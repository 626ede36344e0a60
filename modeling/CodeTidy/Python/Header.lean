import CodeTidy.Pattern.Search

/-!
# `CodeTidy.Python.Header`: definition lines, docstrings, and the imports at the head of a file

`defLine` and `classLine` read the line that begins a definition,
`docstringLength` says how many lines a docstring takes, and `importEnd` finds
where the docstring and the imports at the head of a file end.

Annotations need `Any` and `Optional`, the safe evaluation of text needs the
module `ast`. Names are added to an import of `typing` that is there, and
otherwise a new import goes after the imports at the head of the file.
-/

set_option autoImplicit false

namespace CodeTidy.Python

open Pattern

/-- The end of a definition line: the colon and perhaps a comment. -/
def headEnd : Pattern :=
  seq [space, ":", space, opt (seq ["#", restOfLine]), .place Cursor.atLastEnd]

/-- A line that begins a function: its indentation, name, parameters and return annotation are
groups 1 to 4. The parameters nest one level of parentheses at most. -/
def defLine : Pattern :=
  let inner := many (CharSet.except "()")
  seq [.group 1 indent, opt (seq ["async", space1]), "def", space1, .group 2 word, space, "(",
    .group 3 (seq [inner, .star .most (seq ["(", inner, ")", inner])]), ")",
    opt (.group 4 (seq [space, "->", space, many1 (CharSet.except ":")])), headEnd]

/-- A line that begins a class: its indentation and name are groups 1 and 2. -/
def classLine : Pattern :=
  seq [.group 1 indent, "class", space1, .group 2 word, space,
    opt (seq ["(", many (CharSet.except "()"), ")"]), headEnd]

/-- The opening quotes of a docstring, as group 1, at the start of a line. -/
def docstringStart : Pattern :=
  seq [indent, opt (.one (CharSet.of "rRuU")), .group 1 (oneOf ["\"\"\"", "'''"])]

/-- The number of lines up to the first one that holds `part`. -/
def linesThrough? (part : Text) : List Text → Option Nat
  | [] => none
  | l :: ls => if Text.holds l part then some 1 else (linesThrough? part ls).map (· + 1)

/-- The number of lines of the docstring that the lines begin with; none if it is not closed. -/
def docstringLength : List Text → Nat
  | [] => 0
  | l :: ls =>
    match docstringStart.matchStart? l with
    | none => 0
    | some m =>
      if Text.holds m.stop.after (m.group 1) then 1
      else match linesThrough? (m.group 1) ls with
        | none => 0
        | some n => n + 1

/-- The line that is looked for is one of the lines. -/
theorem linesThrough?_le (part : Text) {ls : List Text} {n : Nat}
    (h : linesThrough? part ls = some n) : n ≤ ls.length := by
  induction ls generalizing n with
  | nil => cases h
  | cons l ls ih =>
    rw [linesThrough?] at h
    split at h
    · cases h
      exact Nat.succ_pos _
    · obtain ⟨n', hn', rfl⟩ := Option.map_eq_some_iff.mp h
      exact Nat.succ_le_succ (ih hn')

/-- A docstring takes only lines that are there. -/
theorem docstringLength_le (ls : List Text) : docstringLength ls ≤ ls.length := by
  cases ls with
  | nil => exact Nat.le_refl 0
  | cons l ls =>
    rw [docstringLength]
    split
    · exact Nat.zero_le _
    · split
      · exact Nat.succ_pos _
      · split
        · exact Nat.zero_le _
        · next n hn => exact Nat.succ_le_succ (linesThrough?_le _ hn)

/-- A line that begins an import. -/
def importLine : Pattern :=
  oneOf [
    seq ["import", space1, .one Text.isWord],
    seq ["from", space1, many1 (fun c => !Text.isBlank c), space1, "import", .one Text.isBlank]]

/-- The number of lines up to the first one that holds a closing parenthesis, or one more than
there are. -/
def linesThroughClose : List Text → Nat
  | [] => 1
  | l :: ls => if l.contains ')' then 1 else linesThroughClose ls + 1

/-- The number of lines up to the end of the imports; `skip` lines still belong to an import,
`seen` lines are passed and `found` is the number up to the last import so far. An import whose
parenthesis stays open is counted one line longer than the text. -/
def importEndFrom : (skip seen found : Nat) → List Text → Nat
  | _, _, found, [] => found
  | skip + 1, seen, found, _ :: ls => importEndFrom skip (seen + 1) found ls
  | 0, seen, found, l :: ls =>
    if importLine.isStart l then
      let extra := if l.contains '(' && !l.contains ')' then linesThroughClose ls else 0
      importEndFrom extra (seen + 1) (seen + 1 + extra) ls
    else if !Text.allBlank l && !Text.startsWith l "#" then found
    else importEndFrom 0 (seen + 1) found ls

/-- The number of lines up to the end of the docstring and the imports at the head of a file. -/
def importEnd (ls : List Text) : Nat :=
  let n := docstringLength ls
  importEndFrom 0 n n (ls.drop n)

/-! ### The imports that new code needs -/

/-- A use of a name as an annotation. -/
def annotationUse (name : Text) : Pattern :=
  seq [.one (CharSet.of ":>["), space, text name, boundary]

/-- A line that imports names from `typing`, which are group 1. -/
def typingImport : Pattern :=
  seq [lineStart, "from", space1, "typing", space1, "import", space1,
    .group 1 (many1 (CharSet.except "()\n")), lineEnd]

/-- The typing names that the text uses. -/
def neededNames (t : Text) : List Text :=
  ["Any".toList, "Optional".toList].filter (fun n => (annotationUse n).occursIn t)

/-- The lines with `extra` before the line at position `n`, or at the end. -/
def insertAt (n : Nat) (extra lines : List Text) : List Text :=
  lines.take n ++ extra ++ lines.drop n

/-- The text with a statement after the imports at its head. -/
def insertImport (statement t : Text) : Text :=
  let ls := Text.lines t
  Text.unlines (insertAt (importEnd ls) [statement] ls)

/-- The names in alphabetical order, each of them once. -/
def sortedNames (names : List Text) : List Text :=
  names.eraseDups.mergeSort (fun a b => !decide (b < a))

/-- The text with an import of the typing names that it uses. -/
def importTyping (t : Text) : Text :=
  let needed := neededNames t
  match typingImport.find? t with
  | some m =>
    let listed := (Text.splitAtEach (· == ',') (m.group 1)).map Text.trim
    let missing := needed.filter (fun n => !listed.elem n)
    if missing.isEmpty then t
    else
      t.take m.start.pos ++ "from typing import " ++
        Text.joinWith ", " (sortedNames (listed ++ missing)) ++ m.stop.after
  | none =>
    if needed.isEmpty then t
    else insertImport ("from typing import " ++ Text.joinWith ", " needed) t

/-- An import of the module `ast`. -/
def astImport : Pattern := seq [lineStart, "import ast", boundary]

/-- The text with an import of `ast` if it evaluates text safely. -/
def importAst (t : Text) : Text :=
  if Text.holds t "ast.literal_eval(" && !astImport.occursIn t then insertImport "import ast" t
  else t

/-- The text with the imports that it needs. -/
def addImports (t : Text) : Text := importAst (importTyping t)

end CodeTidy.Python
