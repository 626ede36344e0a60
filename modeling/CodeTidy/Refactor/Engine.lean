import CodeTidy.Cpp.Table
import CodeTidy.Generic.Table
import CodeTidy.Instruction
import CodeTidy.Java.Table
import CodeTidy.JavaScript.Table
import CodeTidy.Notebook.Duplicate
import CodeTidy.Python.Table
import CodeTidy.Refactor.Improvement
import CodeTidy.Sql.Format

/-!
# `CodeTidy.Refactor.Engine`: refactoring a text

A text is transformed by the rules of its family, and then by the instructions
of the caller. Where a rule fails, the text is formatted by the generic rules,
and a notebook that cannot be read stays as it is. Only instructions for a
notebook that is nested too deeply have no result.

The result of a refactoring says what has improved, who has done it, and what
went wrong on the way.
-/

set_option autoImplicit false

namespace CodeTidy

/-- What the caller may choose. -/
structure RefactorOptions where
  aggressive : Bool := false
  addComments : Bool := true
  restructureNotebooks : Bool := true
  instructions : Text := []
  deriving Repr

namespace Refactor

/-- Why the rules of a family give no result. -/
inductive TransformError where
  /-- A rule has failed. -/
  | rule (error : RuleError)
  /-- A notebook is nested too deeply. -/
  | nesting (error : Json.NestingError)
  deriving Repr

/-- The cell with its source transformed by the rules for cells, if it holds code. -/
def transformCell (cell : Cell) : Except RuleError Cell :=
  if cell.isCode then do return cell.update (← Python.cellRules.apply cell.source)
  else .ok cell

/-- The cells transformed, and restructured if that is wanted. -/
def refactorCells (restructure : Bool) (cells : List Cell) : Except RuleError (List Cell) := do
  let cells := if restructure then Notebook.hoistConstants cells else cells
  let cells ← cells.mapM transformCell
  return if restructure then Notebook.extractDuplicates (Notebook.splitLongCells cells) else cells

/-- The notebook that a text writes, refactored; any other text stays as it is. -/
def refactorNotebook (restructure : Bool) (t : Text) : Except TransformError Text := do
  match ← (Notebook.parse? t).mapError .nesting with
  | none => return t
  | some nb =>
    let cells ← (refactorCells restructure nb.cells).mapError .rule
    return (nb.withCells cells).write

/-- The text transformed by a table of rules. -/
def applyTable (table : RuleTable) (t : Text) : Except TransformError Text :=
  (table.apply t).mapError .rule

/-- The text transformed by the rules of a family. -/
def applyRules (options : RefactorOptions) (t : Text) : Family → Except TransformError Text
  | .javascript => applyTable JavaScript.rules t
  | .python =>
    if Notebook.isLikely t then refactorNotebook options.restructureNotebooks t
    else applyTable Python.rules t
  | .cpp => applyTable Cpp.rules t
  | .java => applyTable Java.rules t
  | .sql => .ok (Sql.format options.aggressive options.addComments t)
  | .generic => .ok (Generic.format t)

/-- The cell with the instructions carried out, if it holds code. -/
def instructCell (wishes : Text) (cell : Cell) : Cell :=
  if cell.isCode then cell.update (Instruction.apply .python wishes cell.source) else cell

/-- The text with the instructions carried out; in a notebook, in each code cell. -/
def instruct (family : Family) (wishes t : Text) : Except Json.NestingError Text :=
  if Notebook.isLikely t then do
    match ← Notebook.parse? t with
    | none => return t
    | some nb => return (nb.withCells (nb.cells.map (instructCell wishes))).write
  else .ok (Instruction.apply family wishes t)

/-- The refactored text. A blank text stays as it is. -/
def refactor (t : Text) (language : LanguageId) (options : RefactorOptions) :
    Except Json.NestingError Text :=
  if Text.allBlank t then .ok t
  else
    let family := language.family
    let transformed :=
      match applyRules options t family with
      | .ok r => r
      | .error _ => Generic.format t
    if options.instructions.isEmpty then .ok transformed
    else instruct family options.instructions transformed

end Refactor

/-! ### A refactored text and its improvements -/

/-- Who has done the work when no model has. -/
def heuristicProvider : Text := "heuristic"

/-- A refactored text and how much it has improved. -/
structure Refactoring where
  code : Text
  improvements : Improvement.Tally
  family : Family
  provider : Text
  errors : List Text
  deriving Repr

namespace Refactoring

/-- The score that the improvements earn. -/
def score (r : Refactoring) : Int := Improvement.score r.improvements.count

/-- The result with one more error. -/
def addError (r : Refactoring) (message : Text) : Refactoring :=
  { r with errors := r.errors ++ [message] }

/-- Texts as a JSON value. -/
def textsToJson (ts : List Text) : Json := .array (ts.map Json.string)

/-- The result as a JSON value; errors stand in it only if there are some. -/
def toJson (r : Refactoring) : Json :=
  let members : List (Text × Json) := [
    ("refactored_code", .string r.code),
    ("improvement_count", .int r.improvements.count),
    ("improvements", textsToJson r.improvements.messages),
    ("quality_score", .int r.score),
    ("language", .string r.family.name),
    ("provider", .string r.provider)]
  let errors : List (Text × Json) := [("errors", textsToJson r.errors)]
  .object (if r.errors.isEmpty then members else members ++ errors)

end Refactoring

/-- The unit refactored by the rules. -/
def SourceUnit.refactor (u : SourceUnit) (options : RefactorOptions) :
    Except Json.NestingError Refactoring := do
  let code ← Refactor.refactor u.text u.language options
  let improvements ← Improvement.countImprovements u.text code u.family
  return ⟨code, improvements, u.family, heuristicProvider, []⟩

end CodeTidy
