import CodeTidy.Constant
import CodeTidy.JavaScript.Import
import CodeTidy.Language
import CodeTidy.Python.Header

/-!
# `CodeTidy.Instruction`: wishes in plain words

Two wishes are understood in a free text: to remove comments, and to extract
constants. Constants are extracted from numbers that occur at least three
times, and are defined after the head of the file.
-/

set_option autoImplicit false

namespace CodeTidy.Instruction

/-- What comments that take a whole line begin with. -/
def commentMarks : Family → List Text
  | .python => ["#"]
  | .sql => ["--"]
  | .generic => ["//", "#"]
  | .javascript => ["//"]
  | .cpp => ["//"]
  | .java => ["//"]

/-- Whether the line holds only a comment. The line that names an interpreter does not count. -/
def isCommentLine (family : Family) (line : Text) : Bool :=
  let body := Text.trimStart line
  !Text.startsWith body "#!" && Text.startsWithAny body (commentMarks family)

/-- The text without the lines that hold only a comment. -/
def removeComments (family : Family) (t : Text) : Text :=
  Text.unlines ((Text.lines t).filter (fun l => !isCommentLine family l))

/-- The literals of a family of languages. -/
def literals : Family → LiteralGrammar
  | .python => .python
  | .sql => .sql
  | _ => .cStyle

/-- How often a number must occur to get a name. -/
def minRepeats : Nat := 3

/-- The definition of the constant for a number. -/
def definition (family : Family) (n : Text) : Text :=
  if family = .javascript then "const " ++ Constant.name n ++ " = " ++ n ++ ";"
  else Constant.name n ++ " = " ++ n

/-- The number of lines before which nothing is defined. -/
def headLength : Family → List Text → Nat
  | .python, ls => Python.importEnd ls
  | .javascript, ls => JavaScript.importEnd ls
  | _, _ => 0

/-- The lines with definitions after the head of the file, and blank lines around them. -/
def insertDefinitions (family : Family) (definitions ls : List Text) : List Text :=
  let n := headLength family ls
  let before : List Text := if 0 < n then [[]] else []
  let after : List Text :=
    match ls[n]? with
    | some l => if Text.allBlank l then [] else [[]]
    | none => [[]]
  ls.take n ++ (before ++ definitions ++ after) ++ ls.drop n

/-- The text with named constants for repeated numbers. -/
def extractConstants (family : Family) (t : Text) : Text :=
  let g := literals family
  let ns := Constant.repeated minRepeats (Constant.numbersIn g t)
  if ns.isEmpty then t
  else
    Text.unlines (insertDefinitions family (ns.map (definition family))
      (Text.lines (Constant.substitute g ns t)))

/-- The text with the wishes fulfilled that are understood. -/
def apply (family : Family) (wishes t : Text) : Text :=
  let wishes := Text.lower wishes
  let t := if Text.holds wishes "remove comments" then removeComments family t else t
  if Text.holds wishes "extract constants" then extractConstants family t else t

end CodeTidy.Instruction
