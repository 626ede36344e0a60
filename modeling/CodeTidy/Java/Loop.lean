import CodeTidy.Pattern.Search
import CodeTidy.Rule.Basic

/-!
# `CodeTidy.Java.Loop`: loops over collections

A loop that counts an index becomes an enhanced `for` when the index only
serves to read elements. A loop that filters or maps a collection into a new
list becomes a stream pipeline, for which the collectors are imported.
-/

set_option autoImplicit false

namespace CodeTidy.Java

open Pattern

/-- A word character or a dot. -/
def isPathPart : CharSet := CharSet.or Text.isWord (CharSet.of ".")

/-- A loop over the indices of a collection whose body holds no braces: index, collection and
body are groups 1 to 3. -/
def indexLoop : Pattern :=
  seq ["for", space, "(", space, "int", space1, .group 1 word, space, "=", space, "0", space, ";",
    space, .again 1, space, "<", space, .group 2 (few1 isPathPart),
    oneOfWords [".size()", ".length"], space, ";", space,
    oneOf [seq [.again 1, "++"], seq ["++", .again 1]], space, ")", space, "\x7b",
    .group 3 (many (CharSet.except "\x7b\x7d")), "\x7d"]

/-- The element of the collection at the index. -/
def elementAt (collection index : Text) : Pattern :=
  seq [notAfter isPathPart, oneOf [
    seq [text collection, ".get(", space, text index, space, ")"],
    seq [text collection, "[", space, text index, space, "]"]]]

/-- An assignment to the element, plain, combined or by counting up or down. -/
def elementUpdate (collection index : Text) : Pattern :=
  seq [elementAt collection index, space, oneOf [
    seq [opt (.one (CharSet.of "-+*/%&|^")), "=", .notAhead "="], "++", "--"]]

/-- The name on its own. -/
def nameUse (n : Text) : Pattern := seq [boundary, text n, boundary]

/-- An enhanced `for`, if the loop only reads elements at its index and does not speak of an
`item` already. -/
def toEnhancedFor (m : Match) : Text :=
  let index := m.group 1
  let collection := m.group 2
  let body := m.group 3
  if (nameUse "item").occursIn body || (elementUpdate collection index).occursIn body then m.text
  else
    let body := (elementAt collection index).replace (fun _ => "item") body
    if (nameUse index).occursIn body then m.text
    else "for (var item : " ++ collection ++ ") \x7b" ++ body ++ "\x7d"

/-- The declaration of an empty list: indentation, element type and name are groups 1 to 3. -/
def emptyList : Pattern :=
  seq [lineStart, .group 1 indent, "List<", .group 2 (many1 (CharSet.except ";=\n")), ">", space1,
    .group 3 word, space, "=", space, "new", space1, "ArrayList<", many (CharSet.except ";=\n"),
    ">();"]

/-- The head of a loop over a collection: type and name of the element and the collection are
groups 4 to 6. -/
def elementLoopHead : Pattern :=
  let isTypePart := CharSet.or Text.isWord (CharSet.of "<>?, ")
  let isSourcePart := CharSet.or Text.isWord (CharSet.of ".()")
  seq ["for", space, "(", space, opt (seq ["final", space1]), .group 4 (few1 isTypePart), space1,
    .group 5 word, space, ":", space, .group 6 (many1 isSourcePart), space, ")", space, "\x7b",
    space]

/-- The declaration of an empty list and, on the next line, the head of a loop. -/
def collectingLoopHead : Pattern := seq [emptyList, indent, "\n", indent, elementLoopHead]

/-- The statement that adds a value to the list; the value is group `n`. -/
def addCall (n : Nat) : Pattern :=
  seq [.again 3, ".add(", .group n (many1 (CharSet.except ";\x7b\x7d")), ");", space, "\x7d"]

/-- A loop that adds a value to the list under a condition. -/
def filterLoop : Pattern :=
  seq [collectingLoopHead, "if", space, "(",
    .group 7 (many1 (CharSet.except "\x7b\x7d\n")), ")", space,
    "\x7b", space, addCall 8, space, "\x7d"]

/-- A loop that adds a value to the list in each round. -/
def mapLoop : Pattern := seq [collectingLoopHead, addCall 7]

/-- The declaration of the list as the result of a stream pipeline. -/
def toPipeline (m : Match) (condition : Option Text) (value : Text) : Text :=
  let element := m.group 5
  let margin := m.group 1
  let filtering := condition.toList.map
    (fun c => ".filter(" ++ element ++ " -> " ++ Text.trim c ++ ")")
  let mapping : List Text :=
    if Text.trim value = element then []
    else [".map(" ++ element ++ " -> " ++ Text.trim value ++ ")"]
  let steps := [m.group 6 ++ ".stream()"] ++ filtering ++ mapping ++
    [".collect(Collectors.toList())".toList]
  margin ++ "List<" ++ m.group 2 ++ "> " ++ m.group 3 ++ " = " ++
    Text.joinWith ("\n" ++ margin ++ "        ") steps ++ ";"

/-- The pipeline for a loop that adds in each round, unless it only copies the elements. -/
def toMapPipeline (m : Match) : Text :=
  if Text.trim (m.group 7) = m.group 5 then m.text else toPipeline m none (m.group 7)

/-- A line of the head of a file. -/
def headerLine : Pattern := seq [space, oneOfWords ["package", "import"], .one Text.isBlank]

/-- An import of the collectors. -/
def collectorsImport : Pattern :=
  seq ["import", space1, "java.util.stream.", oneOfWords ["Collectors", "*"], space, ";"]

/-- The text with an import of the collectors if it uses them. -/
def importCollectors (t : Text) : Text :=
  if Text.holds t "Collectors." && !collectorsImport.occursIn t then
    insertAfterHeader t "import java.util.stream.Collectors;" headerLine
  else t

/-- The rules for loops. -/
def loopRules : RuleTable := [
  .replacing "index_loop_to_enhanced_for" indexLoop toEnhancedFor,
  .replacing "filter_loop_to_stream" filterLoop
    (fun m => toPipeline m (some (m.group 7)) (m.group 8)),
  .replacing "map_loop_to_stream" mapLoop toMapPipeline,
  .ofText "collectors_import" importCollectors]

end CodeTidy.Java
