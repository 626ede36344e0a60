import CodeTidy.Language
import CodeTidy.Notebook.Basic
import CodeTidy.Pattern.Search

/-!
# `CodeTidy.Refactor.Improvement`: counting what has become better

Each family has a list of checks. A check counts how often a pattern occurs
before and after, and each occurrence that has gone, or come, counts as an
improvement. Lines that were indented anew count in the generic family, and a
text whose length has changed much counts as improved a little in any case.
-/

set_option autoImplicit false

namespace CodeTidy.Improvement

open Pattern

/-- Whether it is better when the occurrences of a pattern go or come. -/
inductive Direction where
  | removed
  | added
  deriving DecidableEq, Repr

/-- A pattern whose occurrences show one kind of improvement. -/
structure Check where
  pattern : Pattern
  direction : Direction
  message : Text
  weight : Nat := 1

namespace Check

/-- How many occurrences have gone or come. -/
def delta (c : Check) (before after : Text) : Int :=
  let b : Int := c.pattern.count before
  let a : Int := c.pattern.count after
  match c.direction with
  | .removed => b - a
  | .added => a - b

/-- A check that counts occurrences that have gone. -/
def gone (p : Pattern) (message : String) : Check := ⟨p, .removed, message, 1⟩

/-- A check that counts occurrences that have come. -/
def come (p : Pattern) (message : String) : Check := ⟨p, .added, message, 1⟩

/-- A check that counts each occurrence that has come twice. -/
def comeTwice (p : Pattern) (message : String) : Check := ⟨p, .added, message, 2⟩

end Check

/-- The text, from a word boundary on. -/
def fromBoundary (t : String) : Pattern := seq [boundary, .text t.toList]

/-- The text between word boundaries. -/
def wholeWord (t : String) : Pattern := seq [boundary, .text t.toList, boundary]

/-- The word before a brace. -/
def wordBeforeBrace (t : String) : Pattern := seq [boundary, .text t.toList, space, "\x7b"]

/-- The checks for JavaScript. -/
def javascriptChecks : List Check := [
  .gone (seq [boundary, "var", .one Text.isBlank]) "Replaced var declarations with const/let",
  .gone (wholeWord "function") "Converted functions to arrow functions",
  .come "$\x7b" "Converted string concatenation to template literals",
  .gone (fromBoundary "console.log(") "Removed debug console.log statements",
  .gone (wordBeforeBrace "else") "Collapsed if/else returns into ternaries",
  .gone (fromBoundary "require(") "Converted require() calls to ES module imports",
  .come "/**" "Added JSDoc comments",
  .come (seq [boundary, oneOfWords ["const", "let"], space, "\x7b"]) "Used object destructuring",
  .come "?." "Used optional chaining",
  .come (seq [".", oneOfWords ["map", "filter", "forEach"], "("])
    "Replaced index loops with array methods",
  .come (wordBeforeBrace "try") "Added error handling"]

/-- A comprehension between the given brackets, whose element is `element`. -/
def comprehension (opener closer : String) (element : Pattern) : Pattern :=
  let inside := CharSet.except (opener.toList ++ closer.toList ++ ['\n'])
  seq [.text opener.toList, element, boundary, "for", boundary, many1 inside, boundary,
    "in", boundary, many inside, .text closer.toList]

/-- The checks for Python. -/
def pythonChecks : List Check := [
  .comeTwice (comprehension "[" "]" (many1 (CharSet.except "[]\n")))
    "Converted loops to list comprehensions",
  .comeTwice (comprehension "\x7b" "\x7d"
      (seq [many1 (CharSet.except "\x7b\x7d\n"), ":", many1 (CharSet.except "\x7b\x7d\n")]))
    "Converted loops to dict comprehensions",
  .gone (seq [boundary, "range(", space, "len("]) "Iterated directly instead of over range(len())",
  .come (seq [boundary, "f", .one (CharSet.of "\"'")]) "Converted string formatting to f-strings",
  .come (seq [boundary, "with", space1, "open("]) "Used context managers for file handling",
  .gone (seq ["==", space, oneOfWords ["True", "False"], boundary])
    "Simplified boolean comparisons",
  .gone (seq [.one (CharSet.of "!="), "=", space, "None", boundary])
    "Used identity comparisons with None",
  .come "->" "Added type hints",
  .come (seq ["\"\"\"", few CharSet.any, "\"\"\""]) "Added docstrings",
  .come (fromBoundary "ast.literal_eval(") "Replaced eval() with ast.literal_eval()",
  .gone (seq [boundary, "shell", space, "=", space, "True", boundary])
    "Disabled shell=True in subprocess calls",
  .gone (seq ["=", space, oneOfWords ["[]", "\x7b\x7d", "list()", "dict()", "set()"], space,
      .one (CharSet.of ",)")])
    "Replaced mutable default arguments"]

/-- The checks for C and C++. -/
def cppChecks : List Check := [
  .come (wholeWord "nullptr") "Replaced NULL with nullptr",
  .come (wholeWord "auto") "Used auto for verbose declarations",
  .come (wholeWord "std::make_unique") "Replaced raw new/delete with std::make_unique",
  .come (seq [boundary, "for", space, "(", many (CharSet.except ";()"), .one Text.isBlank, ":",
      .one Text.isBlank])
    "Converted index loops to range-based for",
  .come (wholeWord "std::cerr") "Logged caught exceptions",
  .come (seq [boundary, "using", space1, word, space, "="]) "Replaced typedef with using aliases",
  .come ".emplace_back(" "Used emplace_back"]

/-- The checks for Java. -/
def javaChecks : List Check := [
  .come (seq [boundary, "for", space, "(", space, "var", space1, word, space, ":"])
    "Converted index loops to enhanced for",
  .come (seq [boundary, "var", space1, word, space, "="]) "Used var for local declarations",
  .comeTwice ".stream()" "Converted loops to stream pipelines",
  .come (seq ["@Override", boundary]) "Added @Override annotations",
  .come "/**" "Added Javadoc comments",
  .come "<>(" "Used the diamond operator",
  .come (seq [boundary, "try", space, "("]) "Used try-with-resources"]

/-- The checks for SQL. -/
def sqlChecks : List Check := [
  .come (seq [lineStart, space,
      oneOfWords ["SELECT", "FROM", "WHERE", "GROUP BY", "HAVING", "ORDER BY", "LIMIT", "UNION"],
      boundary])
    "Placed each clause on its own line",
  .come (seq [lineStart, space, .star .most (seq [word, space1]), "JOIN", boundary])
    "Placed each join on its own line",
  .gone (seq [boundary,
      oneOfWords ["select", "from", "where", "join", "group by", "order by", "having", "and", "or"],
      boundary])
    "Upper-cased SQL keywords",
  .come (seq [lineStart, "--"]) "Added explanatory comments"]

/-- The checks for all other languages. -/
def genericChecks : List Check :=
  let blankLine := seq [indent, "\n"]
  [.gone (seq ["\n", blankLine, blankLine, .rounds .most blankLine])
    "Collapsed runs of blank lines",
    .gone (seq [indent1, lineEnd]) "Removed trailing whitespace"]

/-- The checks of a family. -/
def checks : Family → List Check
  | .javascript => javascriptChecks
  | .python => pythonChecks
  | .cpp => cppChecks
  | .java => javaChecks
  | .sql => sqlChecks
  | .generic => genericChecks

/-- How many improvements there are, and what they are. -/
structure Tally where
  count : Nat
  messages : List Text
  deriving DecidableEq, Repr

namespace Tally

/-- No improvements. -/
def none : Tally := ⟨0, []⟩

/-- The tally with one more entry. -/
def add (tally : Tally) (count : Nat) (message : Text) : Tally :=
  ⟨tally.count + count, tally.messages ++ [message]⟩

/-- The tally with the outcome of a check. -/
def addCheck (before after : Text) (tally : Tally) (c : Check) : Tally :=
  let delta := c.delta before after
  if 0 < delta then tally.add (delta.toNat * c.weight) c.message else tally

end Tally

/-- The lines of a text that hold more than white space. -/
def nonBlankLines (t : Text) : List Text := (Text.lines t).filter (fun l => !Text.allBlank l)

/-- The number of lines that were only indented anew, if no line has gone or come. -/
def reindentedLines (before after : Text) : Nat :=
  let b := nonBlankLines before
  let a := nonBlankLines after
  if b.length ≠ a.length then 0
  else (b.zip a).countP
    (fun (x, y) => Text.trim x == Text.trim y && Text.indentOf x != Text.indentOf y)

/-- The most improvements that lines indented anew count for. -/
def maxReindentCredit : Nat := 5

/-- The tally with the lines indented anew: three of them count for one improvement. -/
def addReindented (before after : Text) (tally : Tally) : Tally :=
  let n := reindentedLines before after
  if n / 3 = 0 then tally
  else tally.add (min maxReindentCredit (n / 3))
    ("Re-indented " ++ Text.ofNat n ++ " lines by nesting depth")

/-- The least number of improvements if the length has changed much. -/
def floorCount : Nat := 3

/-- The change in length above which that holds. -/
def floorLengthChange : Nat := 100

/-- What is said about a change that no check has seen. -/
def fallbackMessage : Text := "Restructured and reformatted code for readability"

/-- The tally, raised if the length has changed much. -/
def raiseToFloor (before after : Text) (tally : Tally) : Tally :=
  let change := max before.length after.length - min before.length after.length
  if before ≠ after ∧ floorLengthChange < change ∧ tally.count < floorCount then
    ⟨floorCount, if tally.messages.isEmpty then [fallbackMessage] else tally.messages⟩
  else tally

/-- The tally of the cells that a notebook has gained. -/
def cellTally (before after : Notebook) : Tally :=
  let gained := after.cells.length - before.cells.length
  if gained = 0 then Tally.none
  else Tally.none.add gained
    ("Added " ++ Text.ofNat gained ++ " notebook cell(s) for constants, helpers or split sections")

/-- The tally of code, beginning with one that is given. -/
def codeTally (family : Family) (start : Tally) (before after : Text) : Tally :=
  let tally := (checks family).foldl (Tally.addCheck before after) start
  let tally := if family = .generic then addReindented before after tally else tally
  raiseToFloor before after tally

/-- The improvements from one text to another. Of two notebooks the code is compared, and the
cells that were gained count too. -/
def countImprovements (before after : Text) (family : Family) : Except Json.NestingError Tally :=
  if before = after then .ok Tally.none
  else do
    match ← Notebook.parse? before, ← Notebook.parse? after with
    | some b, some a => return codeTally family (cellTally b a) b.code a.code
    | _, _ => return codeTally family Tally.none before after

/-- The score of a text that has not been improved. -/
def baseScore : Int := 91

/-- The most points that improvements earn. -/
def maxBonus : Int := 9

/-- The score of a text with so many improvements. -/
def score (count : Int) : Int := min 100 (baseScore + min count maxBonus)

end CodeTidy.Improvement
