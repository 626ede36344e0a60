import CodeTidy.Pattern.Search

/-!
# `CodeTidy.Literal`: strings and comments

A rule that changes names or numbers has to leave strings and comments
alone. A `LiteralGrammar` says what these are in a family of languages.
`LiteralGrammar.codeOnly` is the text with its literals blanked out, for
counting, and `LiteralGrammar.replaceOutside` replaces only those matches of a
pattern that start outside every literal.
-/

set_option autoImplicit false

namespace CodeTidy

/-- How a family of languages writes strings and comments. -/
inductive LiteralGrammar where
  /-- Quoted strings, backtick templates, block comments and line comments after two slashes. -/
  | cStyle
  /-- Quoted strings, triple-quoted strings and line comments after a number sign. -/
  | python
  /-- Quoted strings and names, in which a doubled quote stands for itself, and line comments
  after two hyphens. -/
  | sql
  deriving DecidableEq, Repr

namespace LiteralGrammar

/-- A character that is not in `stops`, or a backslash and the character after it. -/
def unit (stops : Text) : Pattern :=
  .either (.one (CharSet.except ('\\' :: stops))) (.both (.one (· == '\\')) (.one CharSet.any))

/-- A string between two quotes, on one line as far as line feeds are not escaped. -/
def lineString (quote : Char) : Pattern :=
  .seq [.one (· == quote), .rounds .most (unit [quote, '\n']), .one (· == quote)]

/-- A string between two triples of quotes, up to the first triple that is not escaped. -/
def blockString (quote : Char) : Pattern :=
  let quotes := Pattern.text [quote, quote, quote]
  .seq [quotes, .rounds .least (unit []), quotes]

/-- A comment from `opening` to the end of the line. -/
def lineComment (opening : Text) : Pattern := .seq [.text opening, .restOfLine]

/-- A block comment, up to the first closing mark. -/
def blockComment : Pattern := .seq ["/*", .few CharSet.any, "*/"]

/-- The literals of the grammar. -/
def pattern : LiteralGrammar → Pattern
  | .cStyle => .oneOf [
      blockComment,
      lineComment "//",
      lineString '"',
      lineString '\'',
      .seq ["`", .rounds .most (unit "`"), "`"]]
  | .python => .oneOf [
      blockString '"',
      blockString '\'',
      lineString '"',
      lineString '\'',
      lineComment "#"]
  | .sql => .oneOf [
      .seq ["'", .rounds .most (.either (.one (CharSet.except "'")) "''"), "'"],
      .seq ["\"", .many (CharSet.except "\""), "\""],
      .seq ["`", .many (CharSet.except "`"), "`"],
      lineComment "--"]

/-- The literals of a text. -/
def literals (g : LiteralGrammar) (t : Text) : List Match := g.pattern.hits t

/-- The text with a space in place of each literal. -/
def codeOnly (g : LiteralGrammar) (t : Text) : Text := Text.joinWith " " (g.pattern.gaps t)

/-- Whether the position lies in one of the literals. -/
def covers (literals : List Match) (pos : Nat) : Bool :=
  literals.any (fun m => m.start.pos ≤ pos && pos < m.stop.pos)

/-- The text with `f` of each match of `p` that starts outside every literal in its place. -/
def replaceOutside (g : LiteralGrammar) (p : Pattern) (f : Match → Text) (t : Text) : Text :=
  let literals := g.literals t
  p.replace (fun m => if covers literals m.start.pos then m.text else f m) t

end LiteralGrammar

end CodeTidy
