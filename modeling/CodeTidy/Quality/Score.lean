import CodeTidy.Quality.Metrics

/-!
# `CodeTidy.Quality.Score`: five categories and the overall score

Each category is the average of some of the metrics, rounded half up to a
whole number from 0 to 100. The overall score is a weighted sum of the
categories. Rounding fails for what is not a finite number.
-/

set_option autoImplicit false

namespace CodeTidy.Quality

/-- One dimension of quality. -/
inductive Category where
  | readability
  | maintainability
  | performance
  | security
  | codeSmell
  deriving DecidableEq, Repr

namespace Category

/-- All categories, in the order in which they are reported. -/
def all : List Category := [.readability, .maintainability, .performance, .security, .codeSmell]

/-- The name of the category. -/
def name : Category → Text
  | .readability => "Readability"
  | .maintainability => "Maintainability"
  | .performance => "Performance"
  | .security => "Security"
  | .codeSmell => "Code Smell"

/-- The key under which the score of the category stands in a report. -/
def key : Category → Text
  | .readability => "readability_score"
  | .maintainability => "maintainability_score"
  | .performance => "performance_score"
  | .security => "security_score"
  | .codeSmell => "code_smell_score"

/-- The metrics that are averaged for the category. -/
def metrics : Category → List Metric
  | .readability => [.lineLength, .commentRatio, .consistency]
  | .maintainability => [.complexity, .commentRatio]
  | .performance => [.complexity, .bestPractices]
  | .security => [.security]
  | .codeSmell => [.bestPractices, .consistency, .lineLength]

/-- The weight of the category, in hundredths. -/
def weight : Category → Nat
  | .readability => 25
  | .maintainability => 25
  | .performance => 20
  | .security => 20
  | .codeSmell => 10

/-- The weight of the category of that name; a name that is not known has none. -/
def weightOf (n : Text) : Double :=
  match all.find? (fun c => c.name == n) with
  | some c => Double.ratio c.weight 100
  | none => 0

end Category

/-- A score under the name of a category. -/
structure CategoryScore where
  name : Text
  score : Int
  deriving DecidableEq, Repr

namespace CategoryScore

/-- The score as a JSON value. -/
def toJson (c : CategoryScore) : Json := .object [("name", .string c.name), ("score", .int c.score)]

end CategoryScore

/-- Why a number cannot be rounded to a whole one. -/
inductive RoundError where
  | notANumber
  | infinite
  | tooLarge
  deriving DecidableEq, Repr

/-- What is said about the failure. -/
def RoundError.message : RoundError → Text
  | .notANumber => "cannot convert float NaN to integer"
  | .infinite => "cannot convert float infinity to integer"
  | .tooLarge => "int too large to convert to float"

/-- The whole number nearest to a number, a half going up. -/
def roundHalfUp (x : Double) : Except RoundError Int :=
  match x + Double.ratio 1 2 with
  | .nan => .error .notANumber
  | .infinity _ => .error .infinite
  | .finite s m e => .ok (Double.toRat s m e).floor

/-- A whole number brought into the range from 0 to 100. -/
def clampWhole (n : Int) : Int := max 0 (min 100 n)

/-- The score that a number makes: rounded and brought into the range from 0 to 100. -/
def clampScore (x : Double) : Except RoundError Int := clampWhole <$> roundHalfUp x

/-- The score that a finite number makes; that of any other number is 0. -/
def finiteScore (x : Double) : Int := (clampScore x).toOption.getD 0

/-- The average of some numbers. -/
def average (xs : List Double) : Double := (xs.foldl (· + ·) 0).divNat xs.length

/-- The score of each category. Metrics are finite, so their averages can be rounded. -/
def scoreCategories (ms : MetricSet) : List CategoryScore :=
  Category.all.map (fun c => ⟨c.name, finiteScore (average (c.metrics.map ms.get))⟩)

/-- The weighted sum of scores. -/
def weightedSum (cs : List CategoryScore) : Double :=
  cs.foldl (fun sum c => sum + Category.weightOf c.name * Double.ofInt c.score) 0

/-- The overall score of the categories. -/
def overallScore (cs : List CategoryScore) : Int := finiteScore (weightedSum cs)

/-- Every category with the score 0. -/
def zeroCategories : List CategoryScore := Category.all.map (fun c => ⟨c.name, 0⟩)

end CodeTidy.Quality
