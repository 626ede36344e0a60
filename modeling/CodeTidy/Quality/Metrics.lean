import CodeTidy.Double.Basic
import CodeTidy.Language
import CodeTidy.Notebook.Basic
import CodeTidy.Pattern.Search

/-!
# `CodeTidy.Quality.Metrics`: six measures of a text

Each metric is a number from 0 to 100, more being better, that is read off
from the text by counting. Four of the counts make whole numbers and are
computed as such. A notebook is measured by its code.
-/

set_option autoImplicit false

namespace CodeTidy.Quality

open Pattern

/-- What counts as a comment when a text is measured. -/
structure MetricProfile where
  name : Text
  commentMarks : List Text

namespace MetricProfile

/-- The profile for languages that are not known. -/
def generic : MetricProfile := ⟨"generic", ["//", "#", "/*", "*", "--", "\"\"\"", "'''"]⟩

/-- The profile for Python. -/
def python : MetricProfile := ⟨"python", ["#", "\"\"\"", "'''"]⟩

/-- The profile for languages with comments after two slashes. -/
def cStyle : MetricProfile := ⟨"c-style", ["//", "/*", "*"]⟩

/-- The profile for SQL. -/
def sql : MetricProfile := ⟨"sql", ["--", "/*", "*"]⟩

/-- The profile of a family of languages. -/
def ofFamily : Family → MetricProfile
  | .javascript => cStyle
  | .python => python
  | .cpp => cStyle
  | .java => cStyle
  | .sql => sql
  | .generic => generic

end MetricProfile

/-- What documentation is recognised by. -/
def docMarks : List Text := ["/**", "\"\"\"", "'''", "@param", ":param", "Returns:"]

/-- The name of a metric. -/
inductive Metric where
  | lineLength
  | commentRatio
  | complexity
  | security
  | consistency
  | bestPractices
  deriving DecidableEq, Repr

namespace Metric

/-- All metrics, in the order in which they are reported. -/
def all : List Metric :=
  [.lineLength, .commentRatio, .complexity, .security, .consistency, .bestPractices]

/-- The key of the metric in a report. -/
def key : Metric → Text
  | .lineLength => "line_length"
  | .commentRatio => "comment_ratio"
  | .complexity => "complexity_score"
  | .security => "security_score"
  | .consistency => "consistency_score"
  | .bestPractices => "best_practices_score"

end Metric

/-- The number brought into the range from 0 to 100. What is not a number becomes 100. -/
def clamp (x : Double) : Double :=
  let x := if x.lt 100 then x else 100
  if Double.lt 0 x then x else 0

/-- A value for each metric. -/
structure MetricSet where
  lineLength : Double
  commentRatio : Double
  complexity : Double
  security : Double
  consistency : Double
  bestPractices : Double
  deriving DecidableEq, Repr

namespace MetricSet

/-- The value of a metric. -/
def get (ms : MetricSet) : Metric → Double
  | .lineLength => ms.lineLength
  | .commentRatio => ms.commentRatio
  | .complexity => ms.complexity
  | .security => ms.security
  | .consistency => ms.consistency
  | .bestPractices => ms.bestPractices

/-- The set of the values that a function gives to the metrics. -/
def ofValues (value : Metric → Double) : MetricSet :=
  ⟨value .lineLength, value .commentRatio, value .complexity, value .security, value .consistency,
    value .bestPractices⟩

/-- The set with all values brought into the range from 0 to 100. -/
def clamped (ms : MetricSet) : MetricSet := ofValues (fun m => clamp (ms.get m))

/-- The values rounded to one place, under their keys. -/
def toJson (ms : MetricSet) : Json :=
  .object (Metric.all.map (fun m => (m.key, .float (ms.get m).roundTenth)))

end MetricSet

/-- The number of lines below which a text is too small to be measured by its lines. -/
def smallFileLines : Nat := 10

/-- The value of those metrics for a small text. -/
def smallFileValue : Double := 90

/-- The average length of a line above which points are lost. -/
def lengthThreshold : Double := 35

/-- The lines that hold more than white space, without the white space at their ends. -/
def textLines (t : Text) : List Text :=
  ((Text.lines t).filter (fun l => !Text.allBlank l)).map Text.trimEnd

/-- Two points are lost for each character that the average line is too long. -/
def lineLengthValue (ls : List Text) : Double :=
  let average := Double.ratio ls.flatten.length ls.length
  let excess := average - lengthThreshold
  100 - 2 * (if Double.lt 0 excess then excess else 0)

/-- Two lines in five should be comments; documentation counts beyond that. -/
def commentValue (profile : MetricProfile) (t : Text) (ls : List Text) (hasMarkdown : Bool) :
    Double :=
  let comments := ls.countP (fun l => Text.startsWithAny (Text.trimStart l) profile.commentMarks)
  let value := Double.ratio comments ls.length * 250
  if hasMarkdown || docMarks.any (Text.holds t) then value + 15 else value

/-- A keyword at which control branches. -/
def branchKeyword : Pattern :=
  seq [boundary,
    oneOfWords ["if", "elif", "else", "for", "while", "switch", "case", "catch",
      "except"], boundary]

/-- The beginning of a function or class. -/
def definitionMark : Pattern :=
  oneOf [seq [boundary, oneOfWords ["def", "function", "class"], boundary], "=>"]

/-- Points are lost for braces and branches per line; a definition earns some. -/
def complexityValue (t : Text) (ls : List Text) : Double :=
  let n := ls.length
  let value :=
    100 - Double.ratio (20 * t.count '\x7b') n - Double.ratio (60 * branchKeyword.count t) n
  if definitionMark.occursIn t then value + 5 else value

/-- A keyword that begins a query, in any case. -/
def queryKeyword : Pattern :=
  oneOf [anyCase "select", anyCase "insert", anyCase "update", anyCase "delete"]

/-- A name that says that its value is a secret, in any case. -/
def secretName : Pattern :=
  oneOf [anyCase "password", anyCase "passwd", anyCase "secret", anyCase "token",
    seq [anyCase "api", opt (.one (CharSet.of "_-")), anyCase "key"]]

/-- A call of the function. -/
def callOf (name : String) : Pattern := seq [boundary, .text name.toList, space, "("]

/-- The name on its own. -/
def nameOnly (name : String) : Pattern := seq [boundary, .text name.toList, boundary]

/-- What endangers security, and the points that each occurrence costs. -/
def securityRisks : List (Pattern × Nat) := [
  (callOf "eval", 25),
  (callOf "exec", 15),
  (nameOnly "innerHTML", 15),
  (nameOnly "dangerouslySetInnerHTML", 15),
  (callOf "os.system", 15),
  (seq [boundary, "shell", space, "=", space, "True", boundary], 20),
  (seq [boundary, secretName, space, .one (CharSet.of ":="), space, .one (CharSet.of "\"'"),
    many1 (CharSet.except "\"'\n"), .one (CharSet.of "\"'")], 30),
  (seq [.one (CharSet.of "\"'`"), space, queryKeyword, boundary, many (CharSet.except "\"'`\n"),
    oneOf [seq [.one (CharSet.of "\"'`"), space, "+"], "$\x7b"]], 30),
  (seq [boundary, anyCase "f", .one (CharSet.of "\"'"), queryKeyword, boundary,
    many (CharSet.except "\"'\n"), "\x7b"], 30)]

/-- A call of a function that checks or cleans its input. -/
def validationCall : Pattern :=
  seq [boundary, oneOf [anyCase "validate", anyCase "sanitize", anyCase "escape"],
    many Text.isWord, space, "("]

/-- The points that the occurrences of patterns in a text cost together. -/
def penalty (costs : List (Pattern × Nat)) (t : Text) : Nat :=
  costs.foldl (fun points (p, cost) => points + cost * p.count t) 0

/-- Risks cost points, and checked input earns some. -/
def securityValue (t : Text) : Int :=
  90 - penalty securityRisks t + (if validationCall.occursIn t then 10 else 0)

/-- A string between two of the given quotes on one line. -/
def quotedBy (quote : Char) : Pattern :=
  seq [.one (· == quote), many (CharSet.except [quote, '\n']), .one (· == quote)]

/-- Whether both kinds of quotes are used, the rarer one at least one time in ten. -/
def mixesQuotes (t : Text) : Bool :=
  let doubles := (quotedBy '"').count t
  let singles := (quotedBy '\'').count t
  doubles != 0 && singles != 0 && doubles + singles ≤ 10 * min doubles singles

/-- Whether some line with text begins with the character. -/
def indentsWith (c : Char) (t : Text) : Bool :=
  (Text.lines t).any (fun l => l.head? == some c && !Text.allBlank l)

/-- Points are lost for two kinds of quotes and for two kinds of indentation. -/
def consistencyValue (t : Text) : Int :=
  100 - (if mixesQuotes t then 20 else 0) -
    (if indentsWith '\t' t && indentsWith ' ' t then 30 else 0)

/-- What is out of date or unfinished, and the points that each occurrence costs. -/
def legacyMarks : List (Pattern × Nat) := [
  (seq [boundary, "var", space1], 5),
  (seq [boundary, "console.log("], 3),
  (seq [boundary, "alert("], 10),
  (seq [boundary, oneOfWords ["TODO", "FIXME"], boundary], 2)]

/-- Points are lost for what is out of date or unfinished. -/
def bestPracticesValue (t : Text) : Int := 100 - penalty legacyMarks t

/-- The metrics of plain code. -/
def codeMetrics (profile : MetricProfile) (hasMarkdown : Bool) (t : Text) : MetricSet :=
  let ls := textLines t
  let security := Double.ofInt (securityValue t)
  if ls.length < smallFileLines then
    MetricSet.clamped { MetricSet.ofValues (fun _ => smallFileValue) with security }
  else
    MetricSet.clamped {
      lineLength := lineLengthValue ls
      commentRatio := commentValue profile t ls hasMarkdown
      complexity := complexityValue t ls
      security
      consistency := Double.ofInt (consistencyValue t)
      bestPractices := Double.ofInt (bestPracticesValue t) }

/-- The metrics of a text; of a notebook, those of its code. -/
def metricsOf (profile : MetricProfile) (t : Text) : Except Json.NestingError MetricSet := do
  match ← Notebook.parse? t with
  | some nb => return codeMetrics profile nb.hasMarkdown nb.code
  | none => return codeMetrics profile false t

end CodeTidy.Quality
