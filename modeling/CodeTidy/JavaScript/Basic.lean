import CodeTidy.Pattern.Search
import CodeTidy.Rule.Basic

/-!
# `CodeTidy.JavaScript.Basic`: the parts JavaScript rules are made of

Names, simple operands and plain strings, and the condition that a name stands
on its own: not as a part of a longer name and not as a member of something.
-/

set_option autoImplicit false

namespace CodeTidy.JavaScript

open Pattern

/-- A character that a name may begin with. -/
def isNameStart : CharSet := CharSet.letter.or (CharSet.of "_$")

/-- A character that a name may go on with. -/
def isNamePart : CharSet := CharSet.or Text.isWord (CharSet.of "$")

/-- A name. -/
def name : Pattern := seq [.one isNameStart, many isNamePart]

/-- Names joined by dots. -/
def dottedName : Pattern := seq [name, .star .most (seq [".", name])]

/-- A place that neither a name part nor a dot comes before. -/
def standsAlone : Pattern := notAfter (isNamePart.or (CharSet.of "."))

/-- A name followed by member accesses, indexings and calls on one level. -/
def operand : Pattern :=
  seq [name, .star .most (oneOf [
    seq [".", name],
    seq ["[", many (CharSet.except "[]\n"), "]"],
    seq ["(", many (CharSet.except "()\n"), ")"]])]

/-- A single or double quote. -/
def quote : Pattern := .one (CharSet.of "'\"")

/-- A character of a string that reads the same in a template. -/
def isPlain : CharSet := CharSet.except "'\"\\\n`$"

/-- A string that reads the same in a template. Its quote is remembered as group `n` and what is
between the quotes as the next one. -/
def plainString (n : Nat) : Pattern :=
  seq [.group n quote, .group (n + 1) (many isPlain), .again n]

/-- The keyword of a declaration that may be made constant. -/
def constOrLet : Pattern := oneOfWords ["const", "let"]

/-- The keyword of any declaration. -/
def declarator : Pattern := oneOfWords ["const", "let", "var"]

/-- Whether the text before the match ends with a block comment. -/
def followsComment (m : Match) : Bool := Text.startsWith m.leftContext "/*"

end CodeTidy.JavaScript
