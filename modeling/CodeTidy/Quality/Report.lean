import CodeTidy.Quality.Finding
import CodeTidy.Quality.Score
import CodeTidy.Refactor.Engine

/-!
# `CodeTidy.Quality.Report`: the report on a text

A report holds the scores of a text, advice for the metrics that are too low,
the findings and a summary in one sentence.
-/

set_option autoImplicit false

namespace CodeTidy.Quality

/-- Advice that is given when a metric is below a threshold. -/
structure Advice where
  metric : Metric
  threshold : Double
  text : Text
  /-- What is said about a notebook instead. -/
  notebookText : Text

/-- All advice, in the order of the metrics. -/
def allAdvice : List Advice :=
  let same (m : Metric) (threshold : Double) (t : String) : Advice := ⟨m, threshold, t, t⟩
  [same .lineLength 70 "Break long lines into shorter statements to improve readability",
    same .commentRatio 60
      "Add comments and docstrings that explain the purpose of functions and modules",
    ⟨.complexity, 70,
      "Reduce nesting and branching by extracting conditions into small named functions",
      "Break long notebook cells into smaller, focused cells"⟩,
    ⟨.security, 85,
      "Avoid eval(), innerHTML and shell commands built from input; " ++
        "validate and sanitize user data",
      "Store credentials in environment variables, not in notebook cells"⟩,
    same .consistency 80
      "Use one quote style and one indentation style (tabs or spaces) throughout the file",
    same .bestPractices 75
      ("Replace legacy constructs such as var, alert() and stray console.log calls, " ++
        "and resolve TODO/FIXME markers")]

/-- The most pieces of advice in a report. -/
def maxAdvice : Nat := 3

/-- The advice for the metrics that are too low, the lowest first. -/
def recommendations (ms : MetricSet) (isNotebook : Bool) : List Text :=
  let due := allAdvice.filter (fun a => (ms.get a.metric).lt a.threshold)
  let worstFirst := due.mergeSort (fun a b => !((ms.get b.metric).lt (ms.get a.metric)))
  (worstFirst.take maxAdvice).map (fun a => if isNotebook then a.notebookText else a.text)

/-- The least scores of the bands, and what is said about the subject in each. -/
def summaryBands : List (Int × (Text → Text)) := [
  (90, fun subject => "Excellent " ++ subject ++ " quality. Well-structured and maintainable."),
  (80, fun subject => "Strong " ++ subject ++ " quality with only minor issues."),
  (70, fun subject => "Good " ++ subject ++ " quality with some room for improvement."),
  (60, fun subject => "Acceptable " ++ subject ++ " quality. Several areas need attention."),
  (50, fun subject => "Poor " ++ subject ++ " quality. Significant refactoring recommended."),
  (0, fun subject => "Critical " ++ subject ++ " quality issues. Restructuring is required.")]

/-- The sentence for a score. A score below all bands gets that of the lowest one. -/
def summarize (score : Int) (isNotebook : Bool) : Text :=
  let subject : Text := if isNotebook then "notebook" else "code"
  match summaryBands.find? (fun band => band.1 ≤ score) with
  | some band => band.2 subject
  | none => "Critical " ++ subject ++ " quality issues. Restructuring is required."

/-- The report on a text. -/
structure Report where
  score : Int
  categories : List CategoryScore
  issues : List Text
  recommendations : List Text
  findings : List Finding
  summary : Text
  refactored : Option Text
  metrics : Option MetricSet
  language : LanguageId
  provider : Text
  errors : List Text

namespace Report

/-- The score of a category; 0 if it is not in the report. -/
def category (r : Report) (c : Category) : Int :=
  ((r.categories.find? (fun s => s.name == c.name)).map CategoryScore.score).getD 0

/-- The report with one more error. -/
def addError (r : Report) (message : Text) : Report := { r with errors := r.errors ++ [message] }

/-- The report as a JSON value; what it does not have is left out. -/
def toJson (r : Report) : Json :=
  let scores : List (Text × Json) := Category.all.map (fun c => (c.key, .int (r.category c)))
  let members : List (Text × Json) := [
    ("categories", .array (r.categories.map CategoryScore.toJson)),
    ("issues", Refactoring.textsToJson r.issues),
    ("recommendations", Refactoring.textsToJson r.recommendations),
    ("snippets", .array (r.findings.map Finding.toJson)),
    ("summary", .string r.summary),
    ("language", r.language),
    ("provider", .string r.provider)]
  let metrics : List (Text × Json) := r.metrics.toList.map (fun ms => ("metrics", ms.toJson))
  let refactored : List (Text × Json) :=
    r.refactored.toList.map (fun t => ("refactored_code", .string t))
  let errors : List (Text × Json) :=
    if r.errors.isEmpty then [] else [("errors", Refactoring.textsToJson r.errors)]
  .object ([("score".toList, .int r.score)] ++ scores ++ members ++ metrics ++ refactored ++ errors)

/-- The report on a text without code. -/
def empty (language : LanguageId) : Report where
  score := 0
  categories := zeroCategories
  issues := []
  recommendations := ["Please provide code to analyze."]
  findings := []
  summary := "No code to analyze."
  refactored := none
  metrics := none
  language := language
  provider := heuristicProvider
  errors := []

/-- The report on a text that is not blank. -/
def ofText (t : Text) (language : LanguageId) : Except Json.NestingError Report := do
  let family := language.family
  let metrics ← metricsOf (MetricProfile.ofFamily family) t
  let categories := scoreCategories metrics
  let isNotebook := (← Notebook.parse? t).isSome
  let score := overallScore categories
  let found ← Quality.findings t family
  return {
    score
    categories
    issues := found.map Finding.issue
    recommendations := Quality.recommendations metrics isNotebook
    findings := found
    summary := summarize score isNotebook
    refactored := none
    metrics := some metrics
    language
    provider := heuristicProvider
    errors := [] }

end Report

/-- The report on a unit, with the refactored text if that is wanted. -/
def analyze (u : SourceUnit) (includeRefactored : Bool) : Except Json.NestingError Report :=
  if Text.allBlank u.text then .ok (Report.empty u.language)
  else do
    let report ← Report.ofText u.text u.language
    if includeRefactored then
      return { report with refactored := some (← Refactor.refactor u.text u.language {}) }
    else return report

end CodeTidy.Quality
