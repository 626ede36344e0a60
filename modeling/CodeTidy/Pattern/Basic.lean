import CodeTidy.Text.Blank
import CodeTidy.Text.Case
import CodeTidy.Text.Digit
import CodeTidy.Text.Word

/-!
# `CodeTidy.Pattern.Basic`: cursors, character sets and patterns

A `Pattern` describes a stretch of text by what it is made of: characters of a
set, sequences, alternatives, repetitions, numbered groups and conditions on
the place it stands at. A `Cursor` is such a place: the text on both of its
sides. `CodeTidy.Pattern.Search` says how a pattern is found.

Alternatives are tried from left to right and repetitions are tried longest or
shortest first, so the order in which a pattern is written decides which of
several ways to match it is taken.
-/

set_option autoImplicit false

namespace CodeTidy

/-- A place in a text: the characters before it, nearest first, those after it, and how many
there are before it. -/
structure Cursor where
  before : Text
  after : Text
  pos : Nat
  deriving Repr

namespace Cursor

/-- The start of a text. -/
def start (t : Text) : Cursor := ⟨[], t, 0⟩

/-- The place one character further on, and the character passed. -/
def next? (c : Cursor) : Option (Char × Cursor) :=
  match c.after with
  | [] => none
  | a :: r => some (a, ⟨a :: c.before, r, c.pos + 1⟩)

/-- The place one character back; the start of the text stays where it is. -/
def back (c : Cursor) : Cursor :=
  match c.before with
  | [] => c
  | b :: r => ⟨r, b :: c.after, c.pos - 1⟩

/-- Whether the character before the place satisfies `p`. -/
def follows (p : Char → Bool) (c : Cursor) : Bool := c.before.head?.any p

/-- Whether the text `t` stands before the place. -/
def followsText (t : Text) (c : Cursor) : Bool := t.reverse.isPrefixOf c.before

/-- Whether the character after the place satisfies `p`. -/
def precedes (p : Char → Bool) (c : Cursor) : Bool := c.after.head?.any p

/-- The start of the text or of a line. -/
def atLineStart (c : Cursor) : Bool := c.before.head?.all (· == '\n')

/-- The end of the text or of a line. -/
def atLineEnd (c : Cursor) : Bool := c.after.head?.all (· == '\n')

/-- The start of the text. -/
def atStart (c : Cursor) : Bool := c.before.isEmpty

/-- The end of the text. -/
def atEnd (c : Cursor) : Bool := c.after.isEmpty

/-- The end of the text, or the place before a line feed that ends it. -/
def atLastEnd (c : Cursor) : Bool := c.after.isEmpty || c.after == ['\n']

/-- Between a word character and something else. -/
def atWordBoundary (c : Cursor) : Bool := c.follows Text.isWord != c.precedes Text.isWord

end Cursor

/-- A set of characters. -/
abbrev CharSet := Char → Bool

namespace CharSet

/-- The characters of a text. -/
def of (members : Text) : CharSet := fun c => members.contains c

/-- All characters but those of a text. -/
def except (members : Text) : CharSet := fun c => !members.contains c

/-- All characters. -/
def any : CharSet := fun _ => true

/-- The characters of either set. -/
def or (a b : CharSet) : CharSet := fun c => a c || b c

/-- An ASCII letter. -/
def letter : CharSet := fun c => c.isAlpha

/-- An ASCII capital letter. -/
def capital : CharSet := fun c => c.isUpper

end CharSet

/-- Whether a repetition tries as many or as few rounds as it can first. -/
inductive Appetite where
  | most
  | least
  deriving DecidableEq, Repr

/-- What a stretch of text is made of. -/
inductive Pattern where
  /-- The empty stretch. -/
  | empty
  /-- One character of a set. -/
  | one (set : CharSet)
  /-- A stretch for `p` and then one for `q`. -/
  | both (p q : Pattern)
  /-- A stretch for `p`, or else one for `q`. -/
  | either (p q : Pattern)
  /-- At least `least` characters of a set. -/
  | run (appetite : Appetite) (least : Nat) (set : CharSet)
  /-- Any number of non-empty stretches for `body`. -/
  | star (appetite : Appetite) (body : Pattern)
  /-- Any number of non-empty stretches for `body`, each of which is the first way to match it;
  the repetition can be shortened by whole rounds only. -/
  | rounds (appetite : Appetite) (body : Pattern)
  /-- A stretch for `body`, remembered under a number. -/
  | group (number : Nat) (body : Pattern)
  /-- What the group of that number matched last. -/
  | again (number : Nat)
  /-- The empty stretch at a place that satisfies the condition. -/
  | place (condition : Cursor → Bool)
  /-- The empty stretch at a place where `body` matches. -/
  | ahead (body : Pattern)
  /-- The empty stretch at a place where `body` does not match. -/
  | notAhead (body : Pattern)

namespace Pattern

/-- Exactly the given text. -/
def text (t : Text) : Pattern :=
  t.foldr (fun c p => .both (.one (· == c)) p) .empty

instance : Coe String Pattern := ⟨fun s => text s.toList⟩

/-- The patterns one after the other. -/
def seq : List Pattern → Pattern
  | [] => .empty
  | [p] => p
  | p :: ps => .both p (seq ps)

/-- One of the patterns, the first that leads to a match. -/
def oneOf : List Pattern → Pattern
  | [] => .place (fun _ => false)
  | [p] => p
  | p :: ps => .either p (oneOf ps)

/-- The given ASCII text in any mixture of small and capital letters. -/
def anyCase (t : Text) : Pattern :=
  t.foldr (fun c p => .both (.one (Text.sameIgnoringCase c.toLower)) p) .empty

/-- The pattern, or nothing if it cannot be had. -/
def opt (p : Pattern) : Pattern := .either p .empty

/-- Any number of characters of a set, as many as possible. -/
def many (set : CharSet) : Pattern := .run .most 0 set

/-- One or more characters of a set, as many as possible. -/
def many1 (set : CharSet) : Pattern := .run .most 1 set

/-- Any number of characters of a set, as few as possible. -/
def few (set : CharSet) : Pattern := .run .least 0 set

/-- One or more characters of a set, as few as possible. -/
def few1 (set : CharSet) : Pattern := .run .least 1 set

/-- Any amount of white space. -/
def space : Pattern := many Text.isBlank

/-- At least one character of white space. -/
def space1 : Pattern := many1 Text.isBlank

/-- Spaces and tabs. -/
def indent : Pattern := many Text.isIndent

/-- At least one space or tab. -/
def indent1 : Pattern := many1 Text.isIndent

/-- One or more word characters. -/
def word : Pattern := many1 Text.isWord

/-- The rest of the line. -/
def restOfLine : Pattern := many (CharSet.except "\n")

/-- A boundary between a word character and something else. -/
def boundary : Pattern := .place Cursor.atWordBoundary

/-- The start of a line. -/
def lineStart : Pattern := .place Cursor.atLineStart

/-- The end of a line. -/
def lineEnd : Pattern := .place Cursor.atLineEnd

/-- The end of the text. -/
def textEnd : Pattern := .place Cursor.atEnd

/-- A place whose character before it, if there is one, is not in the set. -/
def notAfter (set : CharSet) : Pattern := .place (fun c => !c.follows set)

/-- The words, in capital or small letters as given, one of them. -/
def oneOfWords (ws : List String) : Pattern := oneOf (ws.map (fun w => text w.toList))

end Pattern

end CodeTidy
