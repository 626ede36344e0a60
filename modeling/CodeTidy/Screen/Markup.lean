import CodeTidy.Screen.EmojiTable
import CodeTidy.Screen.Width
import CodeTidy.Text.Blank
import CodeTidy.Text.Case

/-!
# `CodeTidy.Screen.Markup`: texts with tags for colours and names of emoji

A tag stands in square brackets: `[bold]` opens a style, `[/bold]` closes it, and
`[/]` closes the last one. `Markup.shown` gives the text that is seen, without
colours; a tag that closes nothing is an error. `Markup.escape` makes a text
whose brackets are not read as tags.

A text that is printed may name an emoji between two colons. `Emoji.expand`
puts the emoji there. The name may end in `-emoji` or `-text`, which ask for a
coloured or a plain picture. Anything else between two colons stays.
-/

set_option autoImplicit false

/-! ### Emoji by their names -/

namespace CodeTidy.Emoji

/-- Words, taken two by two. -/
def pairs : List Text → List (Text × Text)
  | name :: emoji :: rest => (name, emoji) :: pairs rest
  | _ => []

/-- The emoji of a name, in any case. -/
def named? (name : Text) : Option Text :=
  (pairs (Screen.emojiNames.flatMap (fun l => Text.words l.toList))).lookup (Text.lower name)

/-- The endings of a name that ask for a kind of picture, and the characters that do so. -/
def variants : List (Text × Text) := [("-emoji", ['\uFE0F']), ("-text", ['\uFE0E'])]

/-- The name without the ending that asks for a kind of picture, and what asks for it. -/
def splitVariant (name : Text) : Text × Text :=
  match variants.find? (fun v => Text.endsWith name v.1) with
  | some (ending, mark) => (name.take (name.length - ending.length), mark)
  | none => (name, [])

/-- What stands for a name and the colons around it. -/
def ofCode (name : Text) : Text :=
  let (base, mark) := splitVariant name
  match named? base with
  | some emoji => emoji ++ mark
  | none => ':' :: name ++ [':']

/-- The name that a text begins with, if a colon ends it, and the text after the colon. -/
def code? (t : Text) : Option (Text × Text) :=
  let name := t.takeWhile (fun c => c != ':' && !Text.isBlank c)
  match t.drop name.length with
  | ':' :: rest => some (name, rest)
  | _ => none

/-- The text with emoji for their names; its length bounds the recursion. -/
def expandFrom : (bound : Nat) → Text → Text
  | 0, _ => []
  | _ + 1, [] => []
  | bound + 1, c :: rest =>
    match if c == ':' then code? rest else none with
    | some (name, after) => ofCode name ++ expandFrom bound after
    | none => c :: expandFrom bound rest

/-- The text with emoji for their names. -/
def expand (t : Text) : Text := expandFrom (t.length + 1) t

end CodeTidy.Emoji

/-! ### Tags -/

namespace CodeTidy

/-- Why a text with tags cannot be shown. -/
inductive MarkupError where
  /-- A closing tag for a style that is not open. -/
  | notOpen (tag : Text) (position : Nat)
  /-- A closing tag where no style is open. -/
  | nothingOpen (position : Nat)
  deriving DecidableEq, Repr

/-- What is said about the failure. -/
def MarkupError.message : MarkupError → Text
  | .notOpen tag position =>
    "closing tag '[" ++ tag ++ "]' at position " ++ Text.ofNat position ++
      " doesn't match any open tag"
  | .nothingOpen position =>
    "closing tag '[/]' at position " ++ Text.ofNat position ++ " has nothing to close"

namespace Markup

/-- Whether a tag may begin with the character. -/
def startsTag (c : Char) : Bool := ('a' ≤ c && c ≤ 'z') || c == '#' || c == '/' || c == '@'

/-- The inside of the tag that a text begins with, and the text after it. A tag ends at the first
closing bracket and holds no opening one. -/
def tag? : Text → Option (Text × Text)
  | '[' :: c :: rest =>
    if startsTag c then
      let inside := rest.takeWhile (fun x => x != '[' && x != ']')
      match rest.drop inside.length with
      | ']' :: after => some (c :: inside, after)
      | _ => none
    else none
  | _ => none

/-- The backslashes and the inside of the tag that a text begins with, and the text after it. -/
def escapedTag? (t : Text) : Option (Nat × Text × Text) :=
  let slashes := (t.takeWhile (· == '\\')).length
  (tag? (t.drop slashes)).map (fun (inside, after) => (slashes, inside, after))

/-- A piece of a text with tags. -/
inductive Piece where
  | plain (text : Text)
  | tag (inside : Text) (position : Nat)
  deriving Repr

/-- The pieces that backslashes and a tag after them stand for: each two backslashes are one, and an
odd one makes the tag plain. -/
def tagPieces (position slashes : Nat) (inside : Text) : List Piece :=
  let kept := slashes / 2
  let before : List Piece := if kept = 0 then [] else [.plain (List.replicate kept '\\')]
  let last : Piece :=
    if slashes % 2 = 1 then .plain ('[' :: inside ++ [']']) else .tag inside (position + 2 * kept)
  before ++ [last]

/-- The pieces of a text of which `position` characters have been read and `plain` is the plain
text, in reverse order, before the rest. The length of the rest bounds the recursion. -/
def piecesFrom : (bound : Nat) → (position : Nat) → (plain : Text) → Text → List Piece
  | 0, _, _, _ => []
  | _ + 1, _, plain, [] => if plain.isEmpty then [] else [.plain plain.reverse]
  | bound + 1, position, plain, c :: rest =>
    match escapedTag? (c :: rest) with
    | none => piecesFrom bound (position + 1) (c :: plain) rest
    | some (slashes, inside, after) =>
      (if plain.isEmpty then [] else [.plain plain.reverse]) ++ tagPieces position slashes inside ++
        piecesFrom bound (position + slashes + inside.length + 2) [] after

/-- The pieces of a text with tags. -/
def pieces (t : Text) : List Piece := piecesFrom (t.length + 1) 0 [] t

/-- Short names of styles. -/
def shortNames : List (Text × Text) := [
  ("b", "bold"), ("d", "dim"), ("i", "italic"), ("u", "underline"), ("r", "reverse"),
  ("c", "conceal"), ("s", "strike"), ("uu", "underline2"), ("o", "overline")]

/-- A style by its full name. -/
def styleName (t : Text) : Text :=
  let words := (Text.words (Text.lower t)).map (fun w => (shortNames.lookup w).getD w)
  Text.joinWith " " words

/-- The styles that stay open, the latest one first, when the latest of that name is closed. -/
def close? (name : Text) (opened : List Text) : Option (List Text) :=
  if opened.elem name then some (opened.erase name) else none

/-- The text that pieces show while some styles are open. -/
def shownFrom : (opened : List Text) → List Piece → Except MarkupError Text
  | _, [] => .ok []
  | opened, .plain t :: rest => do
    return Screen.visible (Emoji.expand (Text.replaceAll "\\[" "[" t)) ++ (← shownFrom opened rest)
  | opened, .tag inside position :: rest =>
    let name := inside.takeWhile (· != '=')
    match name with
    | '/' :: closing =>
      if Text.allBlank closing then
        match opened with
        | [] => .error (.nothingOpen position)
        | _ :: opened => shownFrom opened rest
      else
        match close? (styleName closing) opened with
        | none => .error (.notOpen inside position)
        | some opened => shownFrom opened rest
    | _ => shownFrom (styleName name :: opened) rest

/-- The text that is seen of a text with tags. -/
def shown (t : Text) : Except MarkupError Text :=
  if t.elem '[' then shownFrom [] (pieces t) else .ok (Screen.visible (Emoji.expand t))

/-- The text with a backslash before each tag; backslashes before a tag are doubled. -/
def escapeTags : (bound : Nat) → Text → Text
  | 0, _ => []
  | _ + 1, [] => []
  | bound + 1, c :: rest =>
    match escapedTag? (c :: rest) with
    | none => c :: escapeTags bound rest
    | some (slashes, inside, after) =>
      List.replicate (2 * slashes + 1) '\\' ++ '[' :: inside ++ ']' :: escapeTags bound after

/-- The text whose brackets are not read as tags. A single backslash at its end is doubled, because
a tag may follow. -/
def escape (t : Text) : Text :=
  let escaped := escapeTags (t.length + 1) t
  if Text.endsWith escaped "\\" && !Text.endsWith escaped "\\\\" then escaped ++ "\\" else escaped

end Markup

end CodeTidy
