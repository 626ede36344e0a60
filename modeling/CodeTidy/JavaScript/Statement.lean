import CodeTidy.JavaScript.Basic

/-!
# `CodeTidy.JavaScript.Statement`: logging, conditional returns and object access

Debug output is deleted, two returns become one with a conditional expression,
and accesses to the members of an object take their shorter forms.
-/

set_option autoImplicit false

namespace CodeTidy.JavaScript

open Pattern

/-- The head of a control statement whose body is the next statement. -/
def controlHead : Pattern :=
  seq [space, opt (seq ["\x7d", space]),
    oneOf [
      seq [oneOf [seq [opt (seq ["else", space1]), "if"], "for", "while"], space, "(", restOfLine,
        ")"],
      "else", "do"],
    space, .place Cursor.atLastEnd]

/-- A line that holds a call of `console.log` and does not speak of errors or warnings. -/
def consoleLog : Pattern :=
  seq [lineStart, indent, anyCase "console.log(",
    .notAhead (seq [restOfLine, oneOf [anyCase "error", anyCase "warn", anyCase "important"]]),
    restOfLine, ")", opt ";", indent, oneOf ["\n", lineEnd]]

/-- Nothing, unless the line is the whole body of a control statement. -/
def dropLog (m : Match) : Text :=
  if controlHead.isStart (m.leftContext.takeWhile (· != '\n')).reverse then m.text else []

/-- A block of one return, the returned expression as group `n`. -/
def returnBlock (n : Nat) : Pattern :=
  seq ["\x7b", space, "return", space1, .group n (many1 (CharSet.except ";\x7b\x7d\n")), ";",
    space, "\x7d"]

/-- An `if` and an `else` that both hold one return. -/
def ifElseReturn : Pattern :=
  let inner := many (CharSet.except "()\x7b\x7d\n")
  seq ["if", space, "(",
    .group 1 (seq [inner, .star .most (seq ["(", many (CharSet.except "()\n"), ")", inner])]), ")",
    space, returnBlock 2, space, "else", space, returnBlock 3]

/-- Two declarations in a row that read members of the same object. -/
def memberReads : Pattern :=
  seq [boundary, .group 1 constOrLet, space1, .group 2 name, space, "=", space, .group 3 name, ".",
    .group 4 name, ";", indent, "\n", .group 5 indent, .again 1, space1, .group 6 name, space, "=",
    space, .again 3, ".", .group 7 name, ";"]

/-- A member in a destructuring declaration. -/
def destructured (member target : Text) : Text :=
  if member = target then target else member ++ ": " ++ target

/-- One declaration that takes both members apart. -/
def toDestructuring (m : Match) : Text :=
  m.group 1 ++ " \x7b " ++ destructured (m.group 4) (m.group 2) ++ ", " ++
    destructured (m.group 7) (m.group 6) ++ " \x7d = " ++ m.group 3 ++ ";"

/-- A member of an object literal whose value is the variable of the same name. -/
def selfNamedMember : Pattern :=
  seq [.place (fun c => c.follows (CharSet.of "\x7b,")), .group 1 space, .group 2 name, space, ":",
    space, .again 2, .ahead (seq [space, .one (CharSet.of ",\x7d")])]

/-- An array declared as the concatenation of two arrays. -/
def concatCall : Pattern :=
  seq [boundary, .group 1 constOrLet, space1, .group 2 name, space, "=", space, .group 3 name,
    ".concat(", .group 4 name, ");"]

/-- A place where a chain of accesses may begin. -/
def chainStart : Pattern := notAfter (isNamePart.or (CharSet.of ".?"))

/-- A test of an object before an access to it. -/
def guardedAccess : Pattern :=
  seq [chainStart, .group 1 name, space, "&&", space, .again 1, ".", .group 2 name]

/-- A test of a member before an access to it. -/
def guardedMemberAccess : Pattern :=
  seq [chainStart, .group 1 name, "?.", .group 2 name, space, "&&", space, .again 1, ".", .again 2,
    ".", .group 3 name]

/-- The rules for logging and returns. -/
def statementRules : RuleTable := [
  .replacing "remove_console_log" consoleLog dropLog,
  .replacing "if_else_return_to_ternary" ifElseReturn
    (fun m => "return " ++ m.group 1 ++ " ? " ++ m.group 2 ++ " : " ++ m.group 3 ++ ";"),
  .replacing "property_reads_to_destructuring" memberReads toDestructuring,
  .replacing "object_shorthand" selfNamedMember (fun m => m.group 1 ++ m.group 2)]

/-- The rules for access to objects. -/
def accessRules : RuleTable := [
  .replacing "concat_to_spread" concatCall
    (fun m => m.group 1 ++ " " ++ m.group 2 ++ " = [..." ++ m.group 3 ++ ", ..." ++
      m.group 4 ++ "];"),
  .replacing "optional_chaining" guardedAccess (fun m => m.group 1 ++ "?." ++ m.group 2),
  .replacing "nested_optional_chaining" guardedMemberAccess
    (fun m => m.group 1 ++ "?." ++ m.group 2 ++ "?." ++ m.group 3)]

end CodeTidy.JavaScript
