import CodeTidy.Notebook.Basic

/-!
# `CodeTidy.Notebook.Split`: long cells in sections

A code cell of more than forty lines is split before definitions, comments and
blank lines that stand far enough from the split before them. `breakPoints`
lists the line numbers at which it is split, the first and the last included.
-/

set_option autoImplicit false

namespace CodeTidy.Notebook

/-- The number of lines above which a cell is split. -/
def maxCellLines : Nat := 40

/-- The text that explains a split. -/
def splitNote : Text :=
  "## Cell split\nThe following code was split into smaller cells for readability."

/-- Whether the line begins with a space or a tab. -/
def isIndented (line : Text) : Bool := line.head?.any Text.isIndent

/-- Whether the line, without the white space around it, begins a comment. -/
def isComment (line : Text) : Bool := Text.startsWith (Text.trim line) "#"

/-- The words that begin a definition or an import. -/
def definitionWords : List Text := ["import ", "from ", "def ", "class ", "@"]

/-- Whether a cell is split before the line `raw`. `sinceSplit` holds the lines since the last
split, nearest first, and `following` the lines after it. -/
def splitsBefore (sinceSplit : List Text) (raw : Text) (following : List Text) : Bool :=
  let line := Text.trim raw
  let distance := sinceSplit.length
  if isIndented raw then false
  else if Text.startsWithAny line definitionWords then 5 < distance
  else if Text.startsWith line "# " && 5 < line.length && !(sinceSplit.head?.any isComment) then
    10 < distance
  else if line.isEmpty && 15 < distance then
    let next := (following.find? (fun l => !Text.allBlank l)).getD []
    sinceSplit.any (fun l => !Text.allBlank l && !isComment l) && !isIndented next
  else false

/-- The line numbers at which the lines from number `n` on are split, and the number of the line
after the last. -/
def breaksFrom : (n : Nat) → (sinceSplit : List Text) → List Text → List Nat
  | n, _, [] => [n]
  | n, sinceSplit, l :: ls =>
    if splitsBefore sinceSplit l ls then n :: breaksFrom (n + 1) [l] ls
    else breaksFrom (n + 1) (l :: sinceSplit) ls

/-- The line numbers at which a cell is split, with zero and the number of lines. -/
def breakPoints (ls : List Text) : List Nat := 0 :: breaksFrom 0 [] ls

/-- The sections between the given line numbers, without the line feeds around them. -/
def sections (ls : List Text) (points : List Nat) : List Text :=
  ((points.zip points.tail).map (fun (start, stop) =>
    Text.dropAroundWhile (· == '\n') (Text.unlines ((ls.drop start).take (stop - start))))).filter
    (fun s => !s.isEmpty)

/-- The cells in place of a cell: a long one is split, with an explanation first. -/
def splitCell (cell : Cell) : List Cell :=
  if cell.isCode then
    let ls := Text.lines cell.source
    let points := if maxCellLines < ls.length then breakPoints ls else []
    if points.length < 3 then [cell]
    else Cell.newMarkdown splitNote :: (sections ls points).map Cell.newCode
  else [cell]

/-- The cells with long ones split. -/
def splitLongCells (cells : List Cell) : List Cell := cells.flatMap splitCell

end CodeTidy.Notebook
