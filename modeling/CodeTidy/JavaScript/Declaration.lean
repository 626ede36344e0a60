import CodeTidy.JavaScript.Basic
import CodeTidy.Rule.Nesting

/-!
# `CodeTidy.JavaScript.Declaration`: variables and functions

`var` becomes `const` when every name of the statement has an initial value
and is assigned only there, and `let` otherwise. Named functions become
constants that hold arrow functions, except constructors (whose names begin
with a capital) and functions that are exported as the default.
-/

set_option autoImplicit false

namespace CodeTidy.JavaScript

open Pattern

/-- The statement that a text begins with: up to a semicolon outside brackets, the bracket that
closes around it, or a line end outside brackets that no comma comes before. `seen` is the
statement so far, reversed. -/
def statementFrom : (depth : Nat) → (quote : Option Char) → (seen : Text) → Text → Text
  | _, _, seen, [] => seen.reverse
  | depth, some q, seen, c :: r =>
    let closes := c == q && seen.head? != some '\\'
    statementFrom depth (if closes then none else some q) (c :: seen) r
  | depth, none, seen, c :: r =>
    if c == '"' || c == '\'' || c == '\x60' then statementFrom depth (some c) (c :: seen) r
    else if c == '(' || c == '[' || c == '\x7b' then statementFrom (depth + 1) none (c :: seen) r
    else if c == ')' || c == ']' || c == '\x7d' then
      match depth with
      | 0 => seen.reverse
      | inner + 1 => statementFrom inner none (c :: seen) r
    else if depth == 0 && (c == ';' ||
        (c == '\n' && (seen.dropWhile Text.isBlank).head? != some ',')) then seen.reverse
    else statementFrom depth none (c :: seen) r

/-- The statement that a text begins with. -/
def statement (t : Text) : Text := statementFrom 0 none [] t

/-- An assignment to the name, plain, combined or by counting up or down. -/
def assignmentTo (n : Text) : Pattern :=
  oneOf [
    seq [standsAlone, text n, space,
      opt (oneOf [.one (CharSet.of "-+*/%&|^"), "**", "<<", seq [">>", opt ">"]]),
      "=", .notAhead (.one (CharSet.of "=>"))],
    seq [oneOf ["++", "--"], text n, boundary],
    seq [standsAlone, text n, space, oneOf ["++", "--"]]]

/-- How often the text assigns to the name. -/
def assignmentCount (t n : Text) : Nat := (assignmentTo n).count t

/-- A declared name, and the equals sign of its initial value if it has one. -/
def declaredName : Pattern :=
  seq [.group 1 name, space, opt (.group 2 (seq ["=", .notAhead (.one (CharSet.of "=>"))]))]

/-- Whether one part of a declaration has an initial value and its name is assigned at most once
in the text. -/
def mayBeConst (t part : Text) : Bool :=
  match declaredName.matchStart? part with
  | none => false
  | some m => (m.group? 2).isSome && assignmentCount t (m.group 1) ≤ 1

/-- A `var` before a name. -/
def varKeyword : Pattern := seq [boundary, "var", space1, .ahead name]

/-- Each `var` becomes `const` or `let`. -/
def varsToConstLet (t : Text) : Text :=
  varKeyword.replace
    (fun m =>
      if (splitParams (statement m.stop.after)).all (mayBeConst t) then "const " else "let ")
    t

/-- The declaration of a named function, up to the brace that opens its body. -/
def functionDeclaration : Pattern :=
  seq [.place (fun c => !c.followsText "default "),
    standsAlone, opt (.group 1 (seq ["async", space1])), "function", space1, .group 2 name,
    space, "(", .group 3 (many (CharSet.except "()")), ")",
    opt (.group 4 (seq [space, ":", space, few1 (CharSet.except "\x7b\x7d;=()")])),
    space, "\x7b"]

/-- The declaration of a constant that holds the function. -/
def toArrow (m : Match) : Text :=
  let n := m.group 2
  if n.head?.any Char.isUpper then m.text
  else
    let async : Text := if (m.group 1).isEmpty then [] else "async "
    "const " ++ n ++ " = " ++ async ++ "(" ++ m.group 3 ++ ")" ++ m.group 4 ++ " => \x7b"

/-- A function without a name, up to the brace that opens its body. -/
def anonymousFunction : Pattern :=
  seq [standsAlone, "function", space, "(", .group 1 (many (CharSet.except "()")), ")", space,
    "\x7b"]

/-- The rules for variables and functions. -/
def declarationRules : RuleTable := [
  .ofText "var_to_const_let" varsToConstLet,
  .replacing "function_to_arrow" functionDeclaration toArrow,
  .replacing "anonymous_function_to_arrow" anonymousFunction
    (fun m => "(" ++ m.group 1 ++ ") => \x7b")]

end CodeTidy.JavaScript
