import CodeTidy.Pattern.Search
import CodeTidy.Rule.Basic

/-!
# `CodeTidy.Java.Declaration`: local variables and resources

Local variables that are made by a constructor take `var`, collections take
the diamond operator, and a resource that is closed in a `finally` block is
declared in the head of its `try`.
-/

set_option autoImplicit false

namespace CodeTidy.Java

open Pattern

/-- A declaration that repeats its type in a constructor call: indentation, `final`, type and
name are groups 1 to 4. -/
def repeatedType : Pattern :=
  seq [lineStart, .group 1 indent1, opt (.group 2 (seq ["final", space1])),
    .group 3 (seq [.one CharSet.capital, many Text.isWord,
      opt (seq ["<", many (CharSet.except ";=\n"), ">"])]),
    space1, .group 4 word, space, "=", space, "new", space1, .again 3, space, "("]

/-- The least indentation of a local declaration, in columns. -/
def minLocalIndent : Nat := 8

/-- The declaration with `var`, if it is indented as far as a local one. -/
def toVar (m : Match) : Text :=
  let margin := m.group 1
  if (Text.expandTabs 4 margin).length < minLocalIndent then m.text
  else margin ++ m.group 2 ++ "var " ++ m.group 4 ++ " = new " ++ m.group 3 ++ "("

/-- The name of a collection class. -/
def collectionClass : Pattern :=
  oneOfWords ["ArrayList", "LinkedList", "HashMap", "TreeMap", "LinkedHashMap",
    "HashSet", "TreeSet", "LinkedHashSet", "ArrayDeque"]

/-- A declaration that is made by the constructor of a collection, up to the parenthesis. -/
def collectionDeclaration : Pattern :=
  seq [.group 1
      (seq [boundary, word, "<", many1 (CharSet.except ";=\n"), ">", space1, word, space, "=",
      space, "new", space1, collectionClass]),
    opt (seq ["<", many (CharSet.except ";=\n()"), ">"]), space, "("]

/-- A type. -/
def typeName : Pattern :=
  seq [many1 (CharSet.or Text.isWord (CharSet.of ".")),
    opt (seq ["<", many (CharSet.except ";=\n"), ">"])]

/-- The body of a block with one level of braces at most. -/
def blockBody : Pattern :=
  let isPlain := CharSet.except "\x7b\x7d"
  .rounds .most (.either (.one isPlain) (seq ["\x7b", many isPlain, "\x7d"]))

/-- A test that the resource is there. -/
def nullTest : Pattern :=
  seq ["if", space, "(", space, .again 3, space, "!=", space, "null", space, ")", space]

/-- A constructor call that makes the resource, as group 4. -/
def resourceCreation : Pattern :=
  .group 4 (seq ["new", .one Text.isBlank, many1 (CharSet.except ";\n")])

/-- The declaration of a resource up to its initial value: indentation, type and name are groups 1
to 3. -/
def resourceDeclaration : Pattern :=
  seq [lineStart, .group 1 indent, .group 2 typeName, space1, .group 3 word, space, "=", space]

/-- A line end and the head of a `try` at the indentation of the resource. -/
def tryHead : Pattern := seq [indent, "\n", .again 1, "try", space, "\x7b"]

/-- The end of a `try` and the head of its `finally` block. -/
def finallyHead : Pattern := seq ["\x7d", space, "finally", space, "\x7b", space]

/-- The call that closes the resource. -/
def closeCall : Pattern := seq [.again 3, ".close();", space]

/-- A resource that is made before the `try` that uses and closes it. -/
def closedResource : Pattern :=
  seq [resourceDeclaration, resourceCreation, ";", tryHead, .group 5 blockBody, finallyHead,
    opt nullTest, closeCall, "\x7d"]

/-- A resource that is made inside of the `try` that uses and closes it. -/
def lateResource : Pattern :=
  seq [resourceDeclaration, "null;", tryHead, space, .again 3, space, "=", space,
    resourceCreation, ";",
    .group 5 blockBody, finallyHead, nullTest, opt "\x7b", space, closeCall, opt "\x7d", space,
    "\x7d"]

/-- The `try` that declares its resource. -/
def toTryWithResource (m : Match) : Text :=
  m.group 1 ++ "try (" ++ m.group 2 ++ " " ++ m.group 3 ++ " = " ++ m.group 4 ++
    ") \x7b" ++ m.group 5 ++ "\x7d"

/-- The rules for variables and resources. -/
def declarationRules : RuleTable := [
  .replacing "local_declaration_to_var" repeatedType toVar,
  .replacing "collection_to_diamond" collectionDeclaration (fun m => m.group 1 ++ "<>("),
  .replacing "try_finally_to_try_with_resources" closedResource toTryWithResource,
  .replacing "null_initialized_try_to_try_with_resources" lateResource toTryWithResource]

end CodeTidy.Java
