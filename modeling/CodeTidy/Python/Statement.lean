import CodeTidy.Pattern.Search
import CodeTidy.Rule.Basic

/-!
# `CodeTidy.Python.Statement`: comparisons, files and risky calls

Comparisons with `True`, `False` and `None` take their idiomatic forms, a file
that is opened and closed by hand is opened in a `with` block, and calls that
run a shell or evaluate text are made safer.
-/

set_option autoImplicit false

namespace CodeTidy.Python

open Pattern

/-- The keyword of a condition. -/
def conditionKeyword : Pattern := oneOfWords ["if", "elif", "while"]

/-- A condition that ends in a comparison with `True`. -/
def trueComparison : Pattern :=
  seq [lineStart,
    .group 1 (seq [indent, conditionKeyword, boundary, few (CharSet.except "\n")]), space,
    "==", space, "True", boundary]

/-- A condition that begins with a comparison of a name or call with `False`. -/
def falseComparison : Pattern :=
  seq [lineStart, .group 1 (seq [indent, conditionKeyword, space1, opt (seq ["not", space1])]),
    .group 2 (seq [many1 (CharSet.or Text.isWord (CharSet.of ".")),
      opt (seq ["(", many (CharSet.except "()\n"), ")"])]),
    space, "==", space, "False", boundary]

/-- A comparison with `None` by the operator. -/
def noneComparison (operator : String) : Pattern :=
  seq [space, .text operator.toList, space, "None", boundary]

/-- A file that is opened at some indentation and closed at the same one, and what stands between
as group 4. -/
def openAndClose : Pattern :=
  let line := oneOf [seq [.again 1, restOfLine, "\n"], seq [indent, "\n"]]
  seq [lineStart, .group 1 indent, .group 2 word, space, "=", space, "open(",
    .group 3 restOfLine, ")",
    indent, "\n", .group 4 (.rounds .least line), .again 1, .again 2, ".close()", indent,
    .group 5 (oneOf ["\n", lineEnd])]

/-- The line one level deeper; a blank line stays as it is. -/
def deeper (line : Text) : Text := if Text.allBlank line then line else "    " ++ line

/-- The block in which the file is open, around what stood between opening and closing it. -/
def toWithBlock (m : Match) : Text :=
  let body := Text.dropEndWhile (· == '\n')
    (Text.unlines ((Text.lines (m.group 4)).map deeper))
  let inner := if body.isEmpty then m.group 1 ++ "    pass" else body
  m.group 1 ++ "with open(" ++ m.group 3 ++ ") as " ++ m.group 2 ++ ":\n" ++ inner ++ m.group 5

/-- An argument that asks for a shell. -/
def shellArgument : Pattern := seq [boundary, "shell", space, "=", space, "True", boundary]

/-- A call that evaluates a text. -/
def evalCall : Pattern := seq [notAfter (CharSet.or Text.isWord (CharSet.of ".")), "eval("]

/-- The rules for comparisons and files. -/
def statementRules : RuleTable := [
  .replacing "true_comparison" trueComparison (fun m => m.group 1),
  .replacing "false_comparison" falseComparison (fun m => m.group 1 ++ "not " ++ m.group 2),
  .replacing "none_comparison" (noneComparison "==") (fun _ => " is None"),
  .replacing "not_none_comparison" (noneComparison "!=") (fun _ => " is not None"),
  .replacing "open_close_to_with" openAndClose toWithBlock,
  .replacing "shell_true_to_false" shellArgument (fun _ => "shell=False")]

/-- The rule for calls that evaluate a text. -/
def evalRule : Rule := .replacing "eval_to_literal_eval" evalCall (fun _ => "ast.literal_eval(")

end CodeTidy.Python
