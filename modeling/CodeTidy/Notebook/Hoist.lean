import CodeTidy.Constant
import CodeTidy.Notebook.Basic

/-!
# `CodeTidy.Notebook.Hoist`: a cell for repeated numbers

Numbers that are repeated across the code cells move into a cell of named
constants before the first code cell, with a cell that explains it.
-/

set_option autoImplicit false

namespace CodeTidy.Notebook

/-- The first line of the cell of constants. -/
def constantsHeader : Text := "# Constants extracted from repeated literals"

/-- The text that explains the cell of constants. -/
def constantsNote : Text :=
  "## Named constants\nRepeated numeric literals were extracted into named constants."

/-- How often a number must occur to get a name. -/
def minRepeats : Nat := 2

/-- The numbers that get a name. -/
def hoistedNumbers (cells : List Cell) : List Text :=
  Constant.repeated minRepeats
    ((cells.filter Cell.isCode).flatMap (fun c => Constant.numbersIn .python c.source))

/-- The cell with names for the given numbers, if it holds code. -/
def nameNumbers (ns : List Text) (cell : Cell) : Cell :=
  if cell.isCode then cell.update (Constant.substitute .python ns cell.source) else cell

/-- The cells that define the constants, with the explanation first. -/
def constantCells (ns : List Text) : List Cell :=
  let definitions := ns.map (fun n => Constant.name n ++ " = " ++ n)
  [Cell.newMarkdown constantsNote, Cell.newCode (Text.unlines (constantsHeader :: definitions))]

/-- The cells with the `extra` ones before the first code cell. -/
def beforeCode (extra cells : List Cell) : List Cell :=
  cells.takeWhile (fun c => !c.isCode) ++ extra ++ cells.dropWhile (fun c => !c.isCode)

/-- The cells with named constants for repeated numbers. -/
def hoistConstants (cells : List Cell) : List Cell :=
  let ns := hoistedNumbers cells
  if ns.isEmpty then cells else beforeCode (constantCells ns) (cells.map (nameNumbers ns))

end CodeTidy.Notebook
