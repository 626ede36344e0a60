import CodeTidy.Pattern.Search
import CodeTidy.Rule.Basic

/-!
# `CodeTidy.Cpp.Table`: the rules for C and C++

Null pointers, declarations, loops over indices, owning pointers, pairs and
empty handlers take their modern forms, and the headers that these need are
included. A pointer that is made by `new` and given up by a `delete` becomes a unique
pointer, and the `delete` goes away.
-/

set_option autoImplicit false

namespace CodeTidy.Cpp

open Pattern

/-! ### Owning pointers -/

/-- The declaration of a pointer that is made by `new`, at the start of a line: indentation, type,
name and arguments are groups 1 to 4. -/
def owningNew : Pattern :=
  seq [lineStart, .group 1 indent,
    .group 2 (seq [.one (CharSet.letter.or (CharSet.of "_")), many Text.isWord,
      .star .most (seq ["::", word]), opt (seq ["<", many (CharSet.except ";\n"), ">"])]),
    space, "*", space, .group 3 word, space, "=", space, "new", space1, .again 2, space,
    opt (seq ["(", .group 4 (many (CharSet.except ";\n")), ")"]), space, ";"]

/-- A line that gives up the pointer of that name. -/
def deleteOf (name : Text) : Pattern :=
  seq [lineStart, indent, "delete", space1, text name, space, ";", indent, opt "\n"]

/-- The declaration of a unique pointer. -/
def uniquePointer (m : Match) : Text :=
  m.group 1 ++ "auto " ++ m.group 3 ++ " = std::make_unique<" ++ m.group 2 ++ ">(" ++
    m.group 4 ++ ");"

/-- The text with the pointer of one declaration unique, if a `delete` gives it up. -/
def makeUnique (t : Text) (m : Match) : Text :=
  let deletion := deleteOf (m.group 3)
  if deletion.occursIn t then
    deletion.replaceFirst (fun _ => []) (Text.replaceFirst m.text (uniquePointer m) t)
  else t

/-- The text with unique pointers for the declarations found in it, one after the other. -/
def makePointersUnique (t : Text) : Text := (owningNew.hits t).foldl makeUnique t

/-! ### The other rules -/

/-- The name of a class template of the standard library. -/
def templateType : Pattern :=
  seq [opt "std::",
    oneOfWords ["vector", "map", "unordered_map", "set", "unordered_set", "list", "deque",
    "array", "pair", "tuple", "shared_ptr", "unique_ptr"]]

/-- A declaration with a template type and an initial value, up to that value. -/
def templateDeclaration : Pattern :=
  seq [lineStart, .group 1 indent, templateType, space, "<", many (CharSet.except ";=\n"), ">",
    .star .most (seq ["::", word]), space1, .group 2 word, space, "=", space,
    .notAhead (.one (CharSet.or Text.isBlank (CharSet.of "\x7b")))]

/-- A type definition. -/
def typedefStatement : Pattern :=
  seq [boundary, "typedef", space1, .group 1 (few1 (CharSet.except ";()\x7b\x7d\n")), space1,
    .group 2 word, space, ";"]

/-- A loop over the indices of a container whose body holds no braces: index, container and body
are groups 1 to 3. -/
def indexLoop : Pattern :=
  seq ["for", space, "(", space,
    oneOf ["int", "size_t", "std::size_t", seq ["unsigned", opt (seq [space1, "int"])], "auto"],
    space1, .group 1 word, space, "=", space, "0", space, ";", space, .again 1, space, "<", space,
    .group 2 (many1 (CharSet.or Text.isWord (CharSet.of "."))), ".size()", space, ";", space,
    oneOf [seq ["++", .again 1], seq [.again 1, "++"]], space, ")", space, "\x7b",
    .group 3 (many (CharSet.except "\x7b\x7d")), "\x7d"]

/-- The element of the container at the index. -/
def elementAt (container index : Text) : Pattern :=
  seq [notAfter (CharSet.or Text.isWord (CharSet.of ".")), text container, "[", space, text index,
    space, "]"]

/-- An assignment to the element or a count after it. -/
def elementUpdate (container index : Text) : Pattern :=
  seq [elementAt container index, space, oneOf [
    seq [opt (.one (CharSet.of "-+*/%&|^")), "=", .notAhead "="], "++", "--"]]

/-- A count before the element. -/
def elementCount (container index : Text) : Pattern :=
  seq [oneOf ["++", "--"], space, elementAt container index]

/-- The name on its own. -/
def nameUse (n : Text) : Pattern := seq [boundary, text n, boundary]

/-- A loop over the elements, if the index only serves to reach them and the body does not speak of
an `element` already. It binds a plain reference if an element is changed. -/
def toRangeFor (m : Match) : Text :=
  let index := m.group 1
  let container := m.group 2
  let body := m.group 3
  if (nameUse "element").occursIn body then m.text
  else
    let changed := (elementUpdate container index).occursIn body ||
      (elementCount container index).occursIn body
    let after := (elementAt container index).replace (fun _ => "element") body
    if (nameUse index).occursIn after then m.text
    else
      let binding : Text := if changed then "auto&" else "const auto&"
      "for (" ++ binding ++ " element : " ++ container ++ ") \x7b" ++ after ++ "\x7d"

/-- A call that appends to a container. -/
def pushBack : Pattern := seq [boundary, .group 1 word, ".push_back("]

/-- Two declarations that take a pair apart. -/
def pairAccess : Pattern :=
  seq [boundary, "auto", space1, .group 1 word, space, "=", space, .group 2 word, ".first;", space,
    "auto", space1, .group 3 word, space, "=", space, .again 2, ".second;"]

/-- A handler without a body: type and name of what it catches are groups 1 and 2. -/
def emptyCatch : Pattern :=
  let isTypePart := CharSet.or Text.isWord (CharSet.of ":")
  seq ["catch", space, "(", space, opt (seq ["const", space1]),
    oneOf ["...", seq [.group 1 (many1 isTypePart), space, opt "&", space, opt (.group 2 word)]],
    space, ")", space, "\x7b", space, "\x7d"]

/-- A type name that speaks of an exception or error. -/
def errorType : Pattern := oneOf [anyCase "exception", anyCase "error"]

/-- A handler that reports what it catches. -/
def toLoggedCatch (m : Match) : Text :=
  let margin := Text.indentOf m.lineBefore
  let (header, message) : Text × Text :=
    match m.group? 1 with
    | none => ("catch (...)", "\"Unknown error\"")
    | some type =>
      let name : Text := if (m.group 2).isEmpty then "e" else m.group 2
      ("catch (const " ++ type ++ "& " ++ name ++ ")",
        if errorType.occursIn type then "\"Error: \" << " ++ name ++ ".what()"
        else "\"Error caught\"")
  header ++ " \x7b\n" ++ margin ++ "    std::cerr << " ++ message ++ " << std::endl;\n" ++
    margin ++ "\x7d"

/-- A handler that catches by value. -/
def catchByValue : Pattern :=
  seq ["catch", space, "(", space, .notAhead (seq ["const", boundary]),
    .group 1 (many1 (CharSet.or Text.isWord (CharSet.of ":"))), space1, .group 2 word, space, ")"]

/-- A line that includes a header. -/
def includeLine : Pattern := seq [space, "#", space, "include", boundary]

/-- The text with a header included if it uses what the header declares. -/
def includeFor (use header t : Text) : Text :=
  if Text.holds t use && !(seq ["#", space, "include", space, .text header]).occursIn t then
    insertAfterHeader t ("#include " ++ header) includeLine
  else t

/-- The text with the headers that it needs. -/
def addIncludes (t : Text) : Text :=
  includeFor "std::cerr" "<iostream>" (includeFor "std::make_unique" "<memory>" t)

/-- The rules for C and C++. -/
def rules : RuleTable := [
  .replacing "null_to_nullptr" (seq [boundary, "NULL", boundary]) (fun _ => "nullptr"),
  .replacing "template_declaration_to_auto" templateDeclaration
    (fun m => m.group 1 ++ "auto " ++ m.group 2 ++ " = "),
  .replacing "typedef_to_using" typedefStatement
    (fun m => "using " ++ m.group 2 ++ " = " ++ m.group 1 ++ ";"),
  .replacing "index_loop_to_range_for" indexLoop toRangeFor,
  .ofText "raw_new_to_make_unique" makePointersUnique,
  .replacing "push_back_to_emplace_back" pushBack (fun m => m.group 1 ++ ".emplace_back("),
  .replacing "pair_access_to_structured_binding" pairAccess
    (fun m => "auto [" ++ m.group 1 ++ ", " ++ m.group 3 ++ "] = " ++ m.group 2 ++ ";"),
  .replacing "empty_catch_to_logged" emptyCatch toLoggedCatch,
  .replacing "catch_by_value_to_reference" catchByValue
    (fun m => "catch (const " ++ m.group 1 ++ "& " ++ m.group 2 ++ ")"),
  .ofText "includes" addIncludes]

end CodeTidy.Cpp
