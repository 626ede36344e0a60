import CodeTidy.JavaScript.Basic

/-!
# `CodeTidy.JavaScript.Loop`: loops over the indices of an array

A loop that counts an index through an array and only collects values becomes
a `map` or a `filter`; any other that leaves the loop nowhere becomes a
`forEach`. The element is called `item`, and the index stays a parameter of the
callback when it is used for more than reaching the element.
-/

set_option autoImplicit false

namespace CodeTidy.JavaScript

open Pattern

/-- The head of a loop that counts through the indices of an array, up to the brace that opens
its body. The index is group `n`, the array the next one. -/
def indexLoopHead (n : Nat) : Pattern :=
  seq ["for", space, "(", space, declarator, space1, .group n name, space, "=", space, "0", space,
    ";", space, .again n, space, "<", space, .group (n + 1) dottedName, ".length", space, ";",
    space, oneOf [seq [.again n, "++"], seq ["++", .again n]], space, ")", space, "\x7b"]

/-- The element of the array at the index. -/
def elementAt (array index : Text) : Pattern :=
  seq [standsAlone, text array, "[", space, text index, space, "]"]

/-- The index on its own. -/
def indexUse (index : Text) : Pattern := seq [standsAlone, text index, boundary]

/-- The code with `item` for the element at the index. -/
def withItem (code array index : Text) : Text :=
  (elementAt array index).replace (fun _ => "item") code

/-- The parameters of a callback: the element, and the index if the code uses it. -/
def callbackParams (index code : Text) : Text :=
  if (indexUse index).occursIn code then "(item, " ++ index ++ ")" else "(item)"

/-- The declaration of an empty array, group 2 its name, and the head of a loop after it. -/
def accumulatorAndHead : Pattern :=
  seq [boundary, .group 1 constOrLet, space1, .group 2 name, space, "=", space, "[]",
    opt ";", space, indexLoopHead 3]

/-- A loop that appends a value to an empty array in each round. -/
def mapLoop : Pattern :=
  seq [accumulatorAndHead, space, .again 2, ".push(", .group 5 (many1 (CharSet.except ";\x7b\x7d")),
    ")", opt ";", space, "\x7d"]

/-- A loop that appends the elements that satisfy a condition to an empty array. -/
def filterLoop : Pattern :=
  seq [accumulatorAndHead, space, "if", space, "(",
    .group 5 (many1 (CharSet.except "\x7b\x7d")), ")",
    space, "\x7b", space, .again 2, ".push(", space, .again 4, "[", space, .again 3, space, "]",
    space, ")", opt ";", space, "\x7d", space, "\x7d"]

/-- The declaration of an array as the result of `method` on the array looped over. -/
def toArrayMethod (method : Text) (m : Match) : Text :=
  let code := withItem (m.group 5) (m.group 4) (m.group 3)
  m.group 1 ++ " " ++ m.group 2 ++ " = " ++ m.group 4 ++ "." ++ method ++ "(" ++
    callbackParams (m.group 3) code ++ " => " ++ Text.trim code ++ ");"

/-- A loop over the indices of an array whose body holds no braces. -/
def indexLoop : Pattern :=
  seq [indexLoopHead 1, .group 3 (many (CharSet.except "\x7b\x7d")), "\x7d"]

/-- A keyword that leaves a loop or goes on to its next round. -/
def loopExit : Pattern :=
  seq [boundary, oneOfWords ["break", "continue", "return"], boundary]

/-- A `forEach` with the body of the loop, unless the body leaves the loop. -/
def toForEach (m : Match) : Text :=
  if loopExit.occursIn (m.group 3) then m.text
  else
    let body := withItem (m.group 3) (m.group 2) (m.group 1)
    m.group 2 ++ ".forEach(" ++ callbackParams (m.group 1) body ++ " => \x7b" ++ body ++ "\x7d);"

/-- The rules for loops. -/
def loopRules : RuleTable := [
  .replacing "accumulate_loop_to_map" mapLoop (toArrayMethod "map"),
  .replacing "accumulate_loop_to_filter" filterLoop (toArrayMethod "filter"),
  .replacing "index_loop_to_foreach" indexLoop toForEach]

end CodeTidy.JavaScript
