import CodeTidy.Double.Notation
import CodeTidy.Json.Basic
import CodeTidy.Text.Printable

/-!
# `CodeTidy.Json.Writer`: writing JSON

A `JsonStyle` says how far nested values are indented, or that everything
stands on one line, and whether characters outside of ASCII are escaped.
Numbers that are not finite are written `NaN`, `Infinity` and `-Infinity`.

The writers put a value before a text that is given, so that each character is
written once, however deep the value is nested.
-/

set_option autoImplicit false

namespace CodeTidy

/-- The decisions of a JSON layout. -/
structure JsonStyle where
  /-- By how many spaces each level is indented; without it all is on one line. -/
  indent : Option Nat
  /-- Whether characters outside of printable ASCII are escaped. -/
  ascii : Bool

namespace JsonStyle

/-- Notebooks are indented by one space and keep their characters. -/
def notebook : JsonStyle := ⟨some 1, false⟩

/-- Reports are indented by two spaces in ASCII. -/
def report : JsonStyle := ⟨some 2, true⟩

/-- On one line, in ASCII. -/
def compact : JsonStyle := ⟨none, true⟩

/-- The break before an item at a level. -/
def lineBreak (style : JsonStyle) (level : Nat) : Text :=
  match style.indent with
  | none => []
  | some width => '\n' :: List.replicate (width * level) ' '

/-- The mark between a key and its value. -/
def colon (style : JsonStyle) : Text := if style.indent.isSome then ": " else ":"

end JsonStyle

namespace Json

/-- A code unit as an escape. -/
def escapedUnit (n : Nat) : Text := "\\u" ++ Text.hex 4 n

/-- A character as one or two escaped code units. -/
def escapedUnits (c : Char) : Text :=
  let n := c.toNat
  if n < 0x10000 then escapedUnit n
  else escapedUnit (0xD800 + (n - 0x10000) / 0x400) ++ escapedUnit (0xDC00 + (n - 0x10000) % 0x400)

/-- How a character stands in a string. -/
def writeChar (ascii : Bool) (c : Char) : Text :=
  match c with
  | '"' => "\\\""
  | '\\' => "\\\\"
  | '\n' => "\\n"
  | '\r' => "\\r"
  | '\t' => "\\t"
  | '\x0c' => "\\f"
  | '\x08' => "\\b"
  | c =>
    if c.toNat < 32 then escapedUnit c.toNat
    else if ascii && 126 < c.toNat then escapedUnits c
    else [c]

/-- A string in quotes. -/
def writeString (ascii : Bool) (s : Text) : Text := '"' :: s.flatMap (writeChar ascii) ++ ['"']

/-- A number that is not whole. -/
def writeFloat (x : Double) : Text := FloatStyle.json.write x

mutual

/-- A value whose surroundings are indented to `level`, and the text `rest` after it. -/
def writeBefore (style : JsonStyle) (level : Nat) : Json → (rest : Text) → Text
  | .null, rest => "null" ++ rest
  | .bool true, rest => "true" ++ rest
  | .bool false, rest => "false" ++ rest
  | .int n, rest => Text.ofInt n ++ rest
  | .float x, rest => writeFloat x ++ rest
  | .string s, rest => writeString style.ascii s ++ rest
  | .array [], rest => "[]" ++ rest
  | .array (v :: vs), rest =>
    "[" ++ style.lineBreak (level + 1) ++ writeBefore style (level + 1) v
      (writeItems style (level + 1) vs (style.lineBreak level ++ "]" ++ rest))
  | .object [], rest => "\x7b\x7d" ++ rest
  | .object ((k, v) :: members), rest =>
    "\x7b" ++ style.lineBreak (level + 1) ++ writeString style.ascii k ++ style.colon ++
      writeBefore style (level + 1) v
        (writeMembers style (level + 1) members (style.lineBreak level ++ "\x7d" ++ rest))

/-- The items of an array after the first one, and the text after them. -/
def writeItems (style : JsonStyle) (level : Nat) : List Json → (rest : Text) → Text
  | [], rest => rest
  | v :: vs, rest =>
    "," ++ style.lineBreak level ++ writeBefore style level v (writeItems style level vs rest)

/-- The members of an object after the first one, and the text after them. -/
def writeMembers (style : JsonStyle) (level : Nat) : List (Text × Json) → (rest : Text) → Text
  | [], rest => rest
  | (k, v) :: members, rest =>
    "," ++ style.lineBreak level ++ writeString style.ascii k ++ style.colon ++
      writeBefore style level v (writeMembers style level members rest)

end

/-- The value as a text. -/
def write (style : JsonStyle) (v : Json) : Text := writeBefore style 0 v []

mutual

/-- A value as it is shown inside of another one, and the text after it: strings are in quotes. -/
def showBefore : Json → (rest : Text) → Text
  | .null, rest => "None" ++ rest
  | .bool true, rest => "True" ++ rest
  | .bool false, rest => "False" ++ rest
  | .int n, rest => Text.ofInt n ++ rest
  | .float x, rest => FloatStyle.value.write x ++ rest
  | .string s, rest => Text.quoted s ++ rest
  | .array [], rest => "[]" ++ rest
  | .array (v :: vs), rest => "[" ++ showBefore v (showItems vs ("]" ++ rest))
  | .object [], rest => "\x7b\x7d" ++ rest
  | .object ((k, v) :: members), rest =>
    "\x7b" ++ Text.quoted k ++ ": " ++ showBefore v (showMembers members ("\x7d" ++ rest))

/-- The items of an array after the first one, as they are shown, and the text after them. -/
def showItems : List Json → (rest : Text) → Text
  | [], rest => rest
  | v :: vs, rest => ", " ++ showBefore v (showItems vs rest)

/-- The members of an object after the first one, as they are shown, and the text after them. -/
def showMembers : List (Text × Json) → (rest : Text) → Text
  | [], rest => rest
  | (k, v) :: members, rest =>
    ", " ++ Text.quoted k ++ ": " ++ showBefore v (showMembers members rest)

end

/-- A value as a plain text: a string is that text itself. -/
def shown : Json → Text
  | .string s => s
  | v => showBefore v []

end Json

end CodeTidy
