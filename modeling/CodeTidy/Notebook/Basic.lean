import CodeTidy.Json.Reader
import CodeTidy.Json.Writer
import CodeTidy.Text.Blank

/-!
# `CodeTidy.Notebook.Basic`: notebooks and their cells

A notebook is a JSON object with a list of cells, at least one of which holds
code. Everything else in it, and in its cells, is kept as it is. The source of
a cell is a text or a list of lines; `Cell.source` reads either. A text that is
no notebook is not a failure, but one that is nested too deeply is, as nothing
can be said about it.
-/

set_option autoImplicit false

namespace CodeTidy

/-- A cell of a notebook: any JSON value, as documents may hold anything. -/
abbrev Cell := Json

namespace Cell

/-- Whether the cell says that it is of the given kind. -/
def isOfKind (kind : Text) (cell : Cell) : Bool :=
  match cell.get? "cell_type" with
  | some (.string k) => k == kind
  | _ => false

/-- Whether the cell holds code. -/
def isCode (cell : Cell) : Bool := isOfKind "code" cell

/-- Whether the cell holds text. -/
def isMarkdown (cell : Cell) : Bool := isOfKind "markdown" cell

/-- The source of a cell: a list is put together, anything else is its plain text. -/
def source (cell : Cell) : Text :=
  match cell.get? "source" with
  | none => []
  | some (.array parts) => parts.flatMap Json.shown
  | some v => v.shown

/-- A text in the form in which cells keep it, as a list of lines. -/
def sourceLines (t : Text) : Json := .array ((Text.linesWithEnds t).map Json.string)

/-- The cell with another source. -/
def withSource (t : Text) : Cell → Cell
  | .object members => .object (Json.putMember "source" (sourceLines t) members)
  | cell => cell

/-- The cell with another source; a cell that has this source already stays as it is. -/
def update (t : Text) (cell : Cell) : Cell :=
  if t = cell.source then cell else cell.withSource t

/-- A new cell of the given kind. A code cell has not been run. -/
def new (kind source : Text) : Cell :=
  let members : List (Text × Json) :=
    [("cell_type", .string kind), ("metadata", .object []), ("source", sourceLines source)]
  let run : List (Text × Json) := [("execution_count", .null), ("outputs", .array [])]
  .object (if kind == "code".toList then members ++ run else members)

/-- A new cell with text. -/
def newMarkdown (source : Text) : Cell := new "markdown" source

/-- A new cell with code. -/
def newCode (source : Text) : Cell := new "code" source

end Cell

/-- The members of a document and its cells, which stand in the member `cells`. -/
structure Notebook where
  members : List (Text × Json)
  cells : List Cell
  deriving Repr

namespace Notebook

/-- Whether a text may be a notebook: it begins with a brace and speaks of cells. -/
def isLikely (t : Text) : Bool :=
  Text.startsWith (Text.trimStart t) "\x7b" && Text.holds t "\"cells\""

/-- The notebook in a JSON value. -/
def ofJson? : Json → Option Notebook
  | .object members =>
    match Json.member? members "cells" with
    | some (.array cells) => if cells.any Cell.isCode then some ⟨members, cells⟩ else none
    | _ => none
  | _ => none

/-- The notebook that a text writes, if it writes one. -/
def parse? (t : Text) : Except Json.NestingError (Option Notebook) :=
  if isLikely t then do return (← Json.parse? t).bind ofJson? else .ok none

/-- The notebook with other cells. -/
def withCells (nb : Notebook) (cells : List Cell) : Notebook := { nb with cells }

/-- The notebook as a JSON value. -/
def toJson (nb : Notebook) : Json :=
  .object (Json.putMember "cells" (.array nb.cells) nb.members)

/-- The notebook as a text. -/
def write (nb : Notebook) : Text := nb.toJson.write JsonStyle.notebook ++ "\n"

/-- The sources of the code cells. -/
def codeSources (nb : Notebook) : List Text := (nb.cells.filter Cell.isCode).map Cell.source

/-- The code of the notebook, with a blank line between two cells. -/
def code (nb : Notebook) : Text := Text.joinWith "\n\n" nb.codeSources

/-- Whether some cell holds text. -/
def hasMarkdown (nb : Notebook) : Bool := nb.cells.any Cell.isMarkdown

end Notebook

end CodeTidy
