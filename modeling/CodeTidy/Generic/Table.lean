import CodeTidy.Literal
import CodeTidy.Rule.Basic

/-!
# `CodeTidy.Generic.Table`: the formatter for all other languages

Only white space changes: trailing blanks go, runs of blank lines shrink to
one, operators get a space on both sides and lines are indented by the depth
of brackets. The last two need a text in which brackets end lines, because
elsewhere indentation and bare equals signs carry meaning.
-/

set_option autoImplicit false

namespace CodeTidy.Generic

open Pattern

/-- Spaces and tabs at the end of a line. -/
def trailingBlanks : Pattern := seq [indent1, lineEnd]

/-- Two or more blank lines. -/
def blankLines : Pattern :=
  let blankLine := seq [indent, "\n"]
  seq ["\n", blankLine, blankLine, .rounds .most blankLine]

/-- A bracket that opens. -/
def isOpener : CharSet := CharSet.of "\x7b[("

/-- A bracket that closes. -/
def isCloser : CharSet := CharSet.of "\x7d])"

/-- Whether the line ends with an opening bracket. -/
def endsOpen (line : Text) : Bool := (Text.trimEnd line).getLast?.any isOpener

/-- Whether the line begins with a closing bracket. -/
def beginsClosed (line : Text) : Bool := (Text.trimStart line).head?.any isCloser

/-- Whether some line ends with an opening bracket. -/
def isBracketStructured (t : Text) : Bool := (Text.lines t).any endsOpen

/-- An operator between two operands, and the blanks around it. -/
def spacedOperator : Pattern :=
  seq [.place (fun c => c.follows (CharSet.or Text.isWord (CharSet.of ")]"))), indent,
    .group 1 (oneOfWords ["==", "!=", "<=", ">=", "+=", "-=", "*=", "/=", "="]), indent,
    .ahead (.one (CharSet.or Text.isWord (CharSet.of "([\"'")))]

/-- The text with one space on both sides of each operator outside strings and comments. -/
def spaceOperators (t : Text) : Text :=
  if isBracketStructured t then
    LiteralGrammar.cStyle.replaceOutside spacedOperator (fun m => " " ++ m.group 1 ++ " ") t
  else t

/-- The lines indented by two spaces for each bracket that is open; a blank line becomes
empty. -/
def indentLines : (depth : Nat) → List Text → List Text
  | _, [] => []
  | depth, l :: ls =>
    let body := Text.trim l
    if body.isEmpty then [] :: indentLines depth ls
    else
      let here := if beginsClosed body then depth - 1 else depth
      (List.replicate (2 * here) ' ' ++ body) ::
        indentLines (if endsOpen body then here + 1 else here) ls

/-- The text indented by the depth of brackets. -/
def reindent (t : Text) : Text :=
  if isBracketStructured t then Text.unlines (indentLines 0 (Text.lines t)) else t

/-- The rules for all other languages. -/
def rules : RuleTable := [
  .replacing "trailing_whitespace" trailingBlanks (fun _ => []),
  .replacing "blank_line_runs" blankLines (fun _ => "\n\n"),
  .ofText "operator_spacing" spaceOperators,
  .ofText "bracket_indentation" reindent]

/-- The formatted text. Each pass is total, so there is a result for every text. -/
def format (t : Text) : Text :=
  reindent (spaceOperators (blankLines.replace (fun _ => "\n\n")
    (trailingBlanks.replace (fun _ => []) t)))

end CodeTidy.Generic
