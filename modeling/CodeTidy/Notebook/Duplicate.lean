import CodeTidy.Notebook.Hoist
import CodeTidy.Notebook.Split
import CodeTidy.Pattern.Search

/-!
# `CodeTidy.Notebook.Duplicate`: functions for repeated blocks

A block of three to ten whole lines that is repeated across the code cells
moves into a function, and calls of the function take its place. Blocks are
lists of lines throughout, so that a block occurs only as whole lines.
-/

set_option autoImplicit false

namespace CodeTidy.Notebook

/-- A block is a list of lines. -/
abbrev Block := List Text

/-- The least number of characters of a repeated block. -/
def minDuplicateChars : Nat := 40

/-- The numbers of lines that a repeated block may have. -/
def blockSizes : List Nat := [3, 4, 5, 6, 7, 8, 9, 10]

/-- The most functions that are made. -/
def maxHelpers : Nat := 3

/-- The occurrences of a block in lines, without overlap; `skip` lines are covered by the one
before. -/
def occurrencesFrom (block : Block) : (skip : Nat) → List Text → Nat
  | _, [] => 0
  | skip + 1, _ :: ls => occurrencesFrom block skip ls
  | 0, l :: ls =>
    if block.isPrefixOf (l :: ls) then occurrencesFrom block (block.length - 1) ls + 1
    else occurrencesFrom block 0 ls

/-- The lines with `call` in place of each occurrence of a block; `skip` lines are covered by the
one before. -/
def replaceFrom (block : Block) (call : Text) : (skip : Nat) → List Text → List Text
  | _, [] => []
  | skip + 1, _ :: ls => replaceFrom block call skip ls
  | 0, l :: ls =>
    if block.isPrefixOf (l :: ls) then call :: replaceFrom block call (block.length - 1) ls
    else l :: replaceFrom block call 0 ls

/-- Whether a line may be the first of a block: it is not blank and begins with neither white
space nor a comment or decorator. -/
def mayBegin (line : Text) : Bool :=
  !Text.allBlank line && !(line.head?.any (CharSet.of " \t#@"))

/-- Whether a block of lines with those after it may be moved: it begins at the left and is long
enough, and the next line is not indented. -/
def isMovable (block following : List Text) : Bool :=
  block.head?.any mayBegin && !(following.head?.any isIndented) &&
    minDuplicateChars ≤ (Text.trim (Text.unlines block)).length

/-- The blocks of one size in lines that may be moved, in order. -/
def movableBlocks (size : Nat) : List Text → List Block
  | [] => []
  | l :: ls =>
    let block := (l :: ls).take size
    if block.length < size then []
    else if isMovable block ((l :: ls).drop size) then block :: movableBlocks size ls
    else movableBlocks size ls

/-- How often a block occurs in all sources together. -/
def occurrences (sources : List (List Text)) (block : Block) : Nat :=
  sources.foldr (fun ls n => occurrencesFrom block 0 ls + n) 0

/-- The blocks that occur at least twice across the sources, each once, in the order in which they
are met source by source and size by size. -/
def repeatedBlocks (sources : List (List Text)) : List Block :=
  let candidates :=
    sources.flatMap (fun ls => blockSizes.flatMap (fun size => movableBlocks size ls))
  (candidates.filter (fun block => 2 ≤ occurrences sources block)).eraseDups

/-- Whether one of the texts holds the other. -/
def overlaps (a b : Text) : Bool := Text.holds a b || Text.holds b a

/-- The first blocks that overlap none chosen before them, as many as functions are made. -/
def chooseBlocks : (chosen : List Text) → List Text → List Text
  | chosen, [] => chosen
  | chosen, b :: bs =>
    if maxHelpers ≤ chosen.length then chosen
    else if chosen.any (overlaps b) then chooseBlocks chosen bs
    else chooseBlocks (chosen ++ [b]) bs

/-- The repeated blocks that move into functions, the longest first. -/
def findDuplicates (sources : List Text) : List Text :=
  let found := (repeatedBlocks (sources.map Text.lines)).map Text.unlines
  chooseBlocks [] (found.mergeSort (fun a b => b.length ≤ a.length))

open Pattern in
/-- A line that binds a name, which is one of groups 1 to 5. -/
def bindingLine : Pattern :=
  oneOf [
    seq [.group 1 word, space, opt (oneOf [.one (CharSet.of "-+*/%"), "//", "**"]), "=",
      .notAhead "="],
    seq [oneOfWords ["def", "class"], space1, .group 2 word],
    seq ["import", space1, .group 3 word],
    seq ["from", space1, many1 (fun c => !Text.isBlank c), space1, "import", space1, .group 4 word],
    seq ["for", space1, .group 5 word, space1, "in", boundary]]

/-- The name that a line binds. -/
def boundName? (line : Text) : Option Text := do
  let m ← bindingLine.matchStart? line
  [1, 2, 3, 4, 5].findSome? m.group?

/-- The names that the lines of a block bind, each once. -/
def boundNames (block : List Text) : List Text := (block.filterMap boundName?).eraseDups

/-- The name of a function for a repeated block. -/
def helperName (n : Nat) : Text := "helper_function_" ++ Text.ofNat n

/-- The line that calls a function. -/
def helperCall (n : Nat) : Text := helperName n ++ "()"

/-- A line of the body of a function; a blank line becomes empty. -/
def bodyLine (line : Text) : Text := if Text.allBlank line then [] else "    " ++ line

/-- The definition of a function that runs a block. The names that the block binds are those of
the notebook. -/
def helperSource (n : Nat) (block : Text) : Text :=
  let ls := Text.lines block
  let bound := boundNames ls
  let definition : Text := "def " ++ helperName n ++ "():"
  let docstring : Text := "    \"\"\"Run a block that was repeated in this notebook.\"\"\""
  let globals : Text := "    global " ++ Text.joinWith ", " bound
  let declaration := if bound.isEmpty then [] else [globals]
  Text.unlines ([definition, docstring] ++ declaration ++
    ls.map bodyLine)

/-- The cell with calls of a function in place of a block, if it holds code. -/
def callHelper (n : Nat) (block : Text) (cell : Cell) : Cell :=
  if cell.isCode then
    cell.update
      (Text.unlines (replaceFrom (Text.lines block) (helperCall n) 0 (Text.lines cell.source)))
  else cell

/-- The first line of the cell of functions. -/
def helpersHeader : Text := "# Helper functions extracted from repeated code"

/-- The text that explains the cell of functions. -/
def helpersNote : Text :=
  "## Code deduplication\nRepeated blocks were extracted into helper functions."

/-- Whether a code cell calls a function for a repeated block. -/
def callsHelper (cell : Cell) : Bool := cell.isCode && Text.holds cell.source "helper_function_"

/-- Whether a code cell holds neither imports nor the constants. -/
def isPlainCode (cell : Cell) : Bool :=
  cell.isCode && !Text.holds cell.source "import " && !Text.startsWith cell.source constantsHeader

/-- The cells with the `extra` ones before the first call of a function, or before the first plain
code cell if that comes earlier, else at the end. -/
def beforeCalls (extra cells : List Cell) : List Cell :=
  let comesFirst (c : Cell) := callsHelper c || isPlainCode c
  cells.takeWhile (fun c => !comesFirst c) ++ extra ++ cells.dropWhile (fun c => !comesFirst c)

/-- The cells with functions for the given blocks, which are numbered from `n` on. -/
def callHelpers (cells : List Cell) : (n : Nat) → (blocks : List Text) → List Cell
  | _, [] => cells
  | n, b :: bs => callHelpers (cells.map (callHelper n b)) (n + 1) bs

/-- The definitions of the functions for the given blocks, which are numbered from `n` on. -/
def helperSources : (n : Nat) → (blocks : List Text) → List Text
  | _, [] => []
  | n, b :: bs => helperSource n b :: helperSources (n + 1) bs

/-- The cells that define the functions, with the explanation first. -/
def helperCells (blocks : List Text) : List Cell :=
  [Cell.newMarkdown helpersNote,
    Cell.newCode (helpersHeader ++ "\n" ++ Text.joinWith "\n\n\n" (helperSources 1 blocks))]

/-- The cells with functions for repeated blocks. -/
def extractDuplicates (cells : List Cell) : List Cell :=
  let blocks := findDuplicates ((cells.filter Cell.isCode).map Cell.source)
  if blocks.isEmpty then cells
  else beforeCalls (helperCells blocks) (callHelpers cells 1 blocks)

end CodeTidy.Notebook
