import CodeTidy.Model.Client
import CodeTidy.Model.Fence
import CodeTidy.Json.Number
import CodeTidy.Prompt
import CodeTidy.Quality.Report

/-!
# `CodeTidy.Assistant`: analysis and refactoring with a model

The heuristic result comes first. A model, if there is one, may replace its
scores and texts, or give the refactored code. When the client reports an
error, the heuristic result stands and the error is noted in it; a fault of the
reply stops the work.
-/

set_option autoImplicit false

namespace CodeTidy

/-- Whoever works on a unit: the rules alone, or a model and the rules. -/
structure Assistant where
  model? : Option ModelConfig

namespace Assistant

/-- The score that a value of a reply gives, if it gives one. -/
def scoreOf (value : Json) : Except Quality.RoundError (Option Int) :=
  match value with
  | .string t =>
    match Double.ofText? t with
    | some x => some <$> Quality.clampScore x
    | none => .ok none
  | .int n =>
    match Json.intToDouble n with
    | .ok x => some <$> Quality.clampScore x
    | .error _ => .error .tooLarge
  | .float x => some <$> Quality.clampScore x
  | _ => .ok none

/-- The texts that a value of a reply gives: itself, or the items of a list, without those that are
blank. -/
def textsOf (value : Json) : List Text :=
  let items : List Json := match value with
    | .string _ => [value]
    | .array items => items
    | _ => []
  let shown := items.filterMap (fun item => match item with
    | .null => none
    | item => some (Text.trim item.shown))
  shown.filter (fun t => !t.isEmpty)

/-- The score of each category: that of the reply, or else that of the report. -/
def mergedScores (report : Quality.Report) (reply : List (Text × Json)) :
    Except Quality.RoundError (List Quality.CategoryScore) :=
  Quality.Category.all.mapM (fun c => do
    let given ← scoreOf ((Json.member? reply c.key).getD .null)
    return ⟨c.name, given.getD (report.category c)⟩)

/-- The texts of the reply under a key, or else those of the report. -/
def mergedTexts (reply : List (Text × Json)) (key : Text) (own : List Text) : List Text :=
  let given := textsOf ((Json.member? reply key).getD .null)
  if given.isEmpty then own else given

/-- The summary of the reply, or else the sentence for the score. -/
def mergedSummary (reply : List (Text × Json)) (score : Int) : Text :=
  match Json.member? reply "summary" with
  | some (.string t) => if Text.allBlank t then Quality.summarize score false else Text.trim t
  | _ => Quality.summarize score false

/-- The report with what the reply of a model gives. -/
def merge (report : Quality.Report) (reply : List (Text × Json)) (model : Text) :
    Except Quality.RoundError Quality.Report := do
  let categories ← mergedScores report reply
  let score := Quality.overallScore categories
  return { report with
    categories
    score
    issues := mergedTexts reply "issues" report.issues
    recommendations := mergedTexts reply "recommendations" report.recommendations
    summary := mergedSummary reply score
    provider := model }

/-- The report on a unit with the answer of a model. -/
def analyzeWith (config : ModelConfig) (u : SourceUnit) (report : Quality.Report) :
    Exchange Quality.Report := do
  let prompt : Json := .string (Prompt.analysis u.language u.text)
  match ← (ModelClient.generateObject config prompt (.string Prompt.system)).attempt with
  | .error error => return report.addError error.message
  | .ok reply =>
    Exchange.ofExcept ((merge report reply config.model).mapError (.unexpected ∘ .unroundable))

/-- The report on a unit. A unit without text is not shown to a model, and a source that is not a
text cannot be. -/
def analyze (a : Assistant) (u : SourceUnit) (includeRefactored : Bool) :
    Exchange Quality.Report := do
  let report ← Exchange.ofExcept ((Quality.analyze u includeRefactored).mapError .tooDeep)
  match a.model? with
  | none => return report
  | some config =>
    match u.source with
    | .string t => if Text.allBlank t then return report else analyzeWith config u report
    | v => if v.truthy then Exchange.fault (.noOperation v.kindName "strip") else return report

/-- What is said when the answer of a model holds no code. -/
def noCodeMessage : Text := "Model returned an empty response"

/-- The refactoring that the answer of a model gives. -/
def refactoringOf (config : ModelConfig) (u : SourceUnit) (options : RefactorOptions)
    (answer : Text) : Except Json.NestingError Refactoring := do
  let code := Fence.code answer
  if Text.allBlank code then return (← u.refactor options).addError noCodeMessage
  else
    let improvements ← Improvement.countImprovements u.text code u.family
    return ⟨code, improvements, u.family, config.model, []⟩

/-- The refactoring of a unit by the rules. -/
def refactorByRules (u : SourceUnit) (options : RefactorOptions) : Exchange Refactoring :=
  Exchange.ofExcept ((u.refactor options).mapError .tooDeep)

/-- The refactoring of a unit by a model. -/
def refactorWith (config : ModelConfig) (u : SourceUnit) (options : RefactorOptions) :
    Exchange Refactoring := do
  let prompt : Json := .string (Prompt.refactoring u.language u.text options.instructions)
  let system : Json := .string Prompt.system
  match ← (ModelClient.generate config prompt system ModelClient.defaultTokens).attempt with
  | .error error => return (← refactorByRules u options).addError error.message
  | .ok (.string answer) =>
    Exchange.ofExcept ((refactoringOf config u options answer).mapError .tooDeep)
  | .ok v => Exchange.fault (.notCodeText v.kindName)

/-- The refactoring of a unit. A blank unit is not shown to a model. -/
def refactor (a : Assistant) (u : SourceUnit) (options : RefactorOptions) : Exchange Refactoring :=
  match a.model? with
  | none => refactorByRules u options
  | some config =>
    if Text.allBlank u.text then refactorByRules u options else refactorWith config u options

end Assistant

end CodeTidy
