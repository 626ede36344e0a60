import CodeTidy.Pattern.Search
import CodeTidy.Rule.Basic

/-!
# `CodeTidy.Python.Loop`: loops that build a collection or count an index

A loop that only appends to an empty list, or only sets items of an empty
dictionary, becomes a comprehension. A loop over the indices of a sequence
becomes a loop over its elements, with the index beside it where it is still
used, unless the loop assigns to an element.
-/

set_option autoImplicit false

namespace CodeTidy.Python

open Pattern

/-- The loop target: a name, or names with commas between them. -/
def target : Pattern := seq [word, .star .most (seq [space, ",", space, word])]

/-- The start of an empty collection at some indentation, which is group 1, with the name as
group 2, and the head of a loop at the same indentation, with the target as group 3 and the
iterated expression as group 4. -/
def accumulatorLoop (emptyCollection : String) : Pattern :=
  seq [lineStart, .group 1 indent, .group 2 word, space, "=", space, .text emptyCollection.toList,
    indent, "\n", .again 1, "for", space1, .group 3 target, space1, "in", space1,
    .group 4 (many1 (CharSet.except "\n:")), ":", indent, "\n"]

/-- The end of the loop body: the line ends here, and the next one is not indented deeper than
the loop. -/
def bodyEnd : Pattern :=
  seq [indent, .ahead (oneOf ["\n", textEnd]),
    .notAhead (seq ["\n", .again 1, indent1, .one (fun c => !Text.isBlank c)])]

/-- The call that appends to the collection; its argument is group `n`. -/
def appendCall (n : Nat) : Pattern :=
  seq [.again 2, ".append(", .group n (many1 (CharSet.except "\n")), ")"]

/-- A loop that appends under a condition. -/
def filteredLoop : Pattern :=
  seq [accumulatorLoop "[]", .again 1, .group 5 indent1, "if", space1,
    .group 6 (many1 (CharSet.except "\n")), ":", indent, "\n", .again 1, .again 5, indent1,
    appendCall 7, bodyEnd]

/-- A loop that appends in each round. -/
def appendLoop : Pattern :=
  seq [accumulatorLoop "[]", .again 1, indent1, appendCall 5, bodyEnd]

/-- A loop that sets an item in each round. -/
def itemLoop : Pattern :=
  seq [accumulatorLoop "\x7b\x7d", .again 1, indent1, .again 2, "[",
    .group 5 (many1 (CharSet.except "]\n")), "]", space, "=", space,
    .group 6 (few1 (CharSet.except "\n")), bodyEnd]

/-- The clause of a comprehension that says what it runs over. -/
def forClause (m : Match) : Text := " for " ++ m.group 3 ++ " in " ++ m.group 4

/-- The assignment of a comprehension in place of the loop. -/
def assigned (m : Match) (comprehension : Text) : Text :=
  m.group 1 ++ m.group 2 ++ " = " ++ comprehension

/-- A list comprehension with a condition. -/
def toFilteredComprehension (m : Match) : Text :=
  assigned m ("[" ++ m.group 7 ++ forClause m ++ " if " ++ m.group 6 ++ "]")

/-- A list comprehension. -/
def toComprehension (m : Match) : Text :=
  assigned m ("[" ++ m.group 5 ++ forClause m ++ "]")

/-- A dictionary comprehension. -/
def toDictComprehension (m : Match) : Text :=
  assigned m ("\x7b" ++ m.group 5 ++ ": " ++ m.group 6 ++ forClause m ++ "\x7d")

/-- A loop over the indices of a sequence, and its body. -/
def rangeLoop : Pattern :=
  let bodyLine := seq [.again 1, indent1, restOfLine, oneOf ["\n", lineEnd]]
  let round := oneOf [bodyLine, seq [indent, "\n"]]
  seq [lineStart, .group 1 indent, "for", space1, .group 2 word, space1, "in", space1,
    "range(", space, "len(", space,
    .group 3 (many1 (CharSet.or Text.isWord (CharSet.of "."))), space, ")", space, "):",
    indent, "\n", .group 4 (seq [round, .rounds .most round])]

/-- The element of the sequence at the index. -/
def elementAt (sequence index : Text) : Pattern :=
  seq [notAfter (CharSet.or Text.isWord (CharSet.of ".")), text sequence, "[", space, text index,
    space, "]"]

/-- An assignment to the element, plain or combined. -/
def elementAssignment (sequence index : Text) : Pattern :=
  seq [elementAt sequence index, space, opt (oneOf [.one (CharSet.of "-+*/%&|^"), "//", "**"]), "=",
    .notAhead "="]

/-- The name on its own. -/
def nameUse (n : Text) : Pattern := seq [boundary, text n, boundary]

/-- The name for an element of a collection that is named in the plural, or `item`. -/
def singular (name : Text) : Text :=
  if Text.endsWith name "ies" && 3 < name.length then name.take (name.length - 3) ++ "y"
  else if Text.endsWith name "s" && !Text.endsWith name "ss" && 1 < name.length then name.dropLast
  else "item"

/-- The name that the elements of a sequence get in a body: the singular of its name, or `item`
if the body uses that one already, if the body does not use both. -/
def elementName? (sequence body : Text) : Option Text :=
  let one := singular ((Text.splitAtEach (· == '.') sequence).getLastD [])
  if !(nameUse one).occursIn body then some one
  else if !(nameUse "item").occursIn body then some "item"
  else none

/-- A loop over the elements, with the index beside them if the body still uses it. -/
def toElementLoop (m : Match) : Text :=
  let index := m.group 2
  let sequence := m.group 3
  if (elementAssignment sequence index).occursIn (m.group 4) then m.text
  else match elementName? sequence (m.group 4) with
    | none => m.text
    | some element =>
      let body := (elementAt sequence index).replace (fun _ => element) (m.group 4)
      if (nameUse index).occursIn body then
        m.group 1 ++ "for " ++ index ++ ", " ++ element ++ " in enumerate(" ++ sequence ++
          "):\n" ++ body
      else m.group 1 ++ "for " ++ element ++ " in " ++ sequence ++ ":\n" ++ body

/-- The rules for loops. -/
def loopRules : RuleTable := [
  .replacing "filtered_loop_to_comprehension" filteredLoop toFilteredComprehension,
  .replacing "loop_to_comprehension" appendLoop toComprehension,
  .replacing "loop_to_dict_comprehension" itemLoop toDictComprehension,
  .replacing "range_len_to_iteration" rangeLoop toElementLoop]

end CodeTidy.Python
