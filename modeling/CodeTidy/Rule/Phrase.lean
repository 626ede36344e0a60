import CodeTidy.Text.Blank
import CodeTidy.Text.Case

/-!
# `CodeTidy.Rule.Phrase`: from names to words

Documentation comments describe a function by its name: `fetchUserData` and
`fetch_user_data` both read "Fetch user data".
-/

set_option autoImplicit false

namespace CodeTidy

/-- The name with a space before each ASCII capital that follows a small letter or digit. -/
def spaceCapitals : Text → Text
  | a :: b :: r =>
    if (a.isLower || a.isDigit) && b.isUpper then a :: ' ' :: spaceCapitals (b :: r)
    else a :: spaceCapitals (b :: r)
  | t => t

/-- The text with its first character in capital form. -/
def capitalizeFirst : Text → Text
  | [] => []
  | c :: r => Text.upperChar c ++ r

/-- The words of a name in small letters, the first of them with a capital. A name without words
stays as it is. -/
def humanize (name : Text) : Text :=
  let ws := Text.words ((spaceCapitals name).map (fun c => if c == '_' then ' ' else c))
  if ws.isEmpty then name
  else capitalizeFirst (Text.joinWith " " (ws.map Text.lower))

end CodeTidy
