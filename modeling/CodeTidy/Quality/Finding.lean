import CodeTidy.Language
import CodeTidy.Notebook.Basic
import CodeTidy.Pattern.Search

/-!
# `CodeTidy.Quality.Finding`: places in a text that want attention

Three kinds of places are found: long lines, deeply nested control flow and
numbers without a name. Each finding says on which line it is, and in a
notebook also in which cell.
-/

set_option autoImplicit false

namespace CodeTidy.Quality

open Pattern

/-- A place in a text, what is wrong there and what to do. -/
structure Finding where
  title : Text
  code : Text
  suggestion : Text
  line : Nat
  cell : Option Nat
  deriving DecidableEq, Repr

namespace Finding

/-- The finding as a JSON value. -/
def toJson (f : Finding) : Json :=
  let members : List (Text × Json) := [
    ("title", .string f.title), ("code", .string f.code), ("suggestion", .string f.suggestion),
    ("line", .int f.line)]
  let cell : List (Text × Json) := f.cell.toList.map (fun (n : Nat) => ("cell", .int n))
  .object (members ++ cell)

/-- The place and the title in one line. -/
def issue (f : Finding) : Text :=
  let line := Text.ofNat f.line
  match f.cell with
  | some n => "Cell " ++ Text.ofNat n ++ ", line " ++ line ++ ": " ++ f.title
  | none => "Line " ++ line ++ ": " ++ f.title

end Finding

/-- The number of characters above which a line is long. -/
def maxLineLength : Nat := 100

/-- The most findings of nested control flow. -/
def maxNested : Nat := 2

/-- The most findings of numbers without a name. -/
def maxNumbers : Nat := 3

/-- The finding of a long line. -/
def longLine (comment : Text) (cell : Option Nat) (number : Nat) (line : Text) : Finding where
  title := "Line too long (" ++ Text.ofNat line.length ++ " characters)"
  code := line
  suggestion := line.take 50 ++ "...\n" ++ comment ++
    " Consider breaking this line into multiple statements"
  line := number
  cell := cell

/-- The findings of long lines, of which the first has the given number. -/
def longLines (comment : Text) (cell : Option Nat) : (number : Nat) → List Text → List Finding
  | _, [] => []
  | number, l :: ls =>
    if maxLineLength < l.length then
      longLine comment cell number l :: longLines comment cell (number + 1) ls
    else longLines comment cell (number + 1) ls

/-- Three control statements, each nested in the one before. -/
def nestedControl : Pattern :=
  let keyword := seq [oneOfWords ["if", "for", "while"], boundary]
  seq [lineStart, .group 1 indent, keyword, restOfLine, "\n",
    .group 2 (seq [.again 1, indent1]), keyword, restOfLine, "\n", .again 2, indent1, keyword]

/-- The number of the line at an offset; a negative offset counts from the end of the text. -/
def lineNumber (t : Text) (offset : Int) : Nat :=
  let n := if offset < 0 then (offset + t.length).toNat else offset.toNat
  (t.take n).count '\n' + 1

/-- The number of the line that a match starts on. -/
def lineOf (m : Match) : Nat := m.start.before.count '\n' + 1

/-- The finding of nested control flow. -/
def nesting (comment : Text) (cell : Option Nat) (m : Match) : Finding where
  title := "Deeply nested control flow"
  code := m.text
  suggestion := comment ++ " Extract the inner conditions into named functions or return early"
  line := lineOf m
  cell := cell

/-- A whole number of three digits or more that is no part of a name or of a decimal. -/
def bareNumber : Pattern :=
  let isPart := CharSet.or Text.isWord (CharSet.of ".")
  seq [notAfter isPart, .run .most 3 Text.isDecimal, .notAhead (.one isPart)]

/-- A line that defines a constant. -/
def constantLine : Pattern :=
  seq [space,
    .star .most (seq [
      oneOfWords ["export", "const", "static", "final", "public", "private", "let"], space1]),
    opt (seq ["#define", space1]), .one CharSet.capital,
    many1 (fun c => c.isUpper || c.isDigit || c == '_'), boundary]

/-- The line of the text that a match starts on. -/
def wholeLine (m : Match) : Text := m.lineBefore ++ (m.start.after.takeWhile (· != '\n'))

/-- The finding of a number without a name. -/
def magicNumber (comment : Text) (cell : Option Nat) (m : Match) : Finding where
  title := "Magic number " ++ m.text ++ " should be a named constant"
  code := Text.trim (wholeLine m)
  suggestion := comment ++ " Define CONSTANT_" ++ m.text ++ " = " ++ m.text ++ " once and reuse it"
  line := lineOf m
  cell := cell

/-- The findings in plain code, in which a comment begins with `comment`. -/
def scan (comment : Text) (cell : Option Nat) (t : Text) : List Finding :=
  let nested := (nestedControl.hits t).take maxNested
  let numbers := ((bareNumber.hits t).filter (fun m => !constantLine.isStart (wholeLine m))).take
    maxNumbers
  longLines comment cell 1 (Text.lines t) ++ nested.map (nesting comment cell) ++
    numbers.map (magicNumber comment cell)

/-- The mark of a comment in suggestions. -/
def suggestionMark : Family → Text
  | .python => "#"
  | .sql => "--"
  | _ => "//"

/-- The findings in the code cells, of which the first has the given number. -/
def scanCells : (number : Nat) → List Cell → List Finding
  | _, [] => []
  | number, c :: cs =>
    (if c.isCode then scan "#" (some number) c.source else []) ++ scanCells (number + 1) cs

/-- The findings in a text; in a notebook, those in its code cells. -/
def findings (t : Text) (family : Family) : Except Json.NestingError (List Finding) := do
  match ← Notebook.parse? t with
  | some nb => return scanCells 1 nb.cells
  | none => return scan (suggestionMark family) none t

end CodeTidy.Quality
