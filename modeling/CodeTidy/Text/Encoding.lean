import CodeTidy.Text.Utf8

/-!
# `CodeTidy.Text.Encoding`: encodings of a text

A JSON text begins with two ASCII characters, or is a single one, so the zeros
among its first bytes show in which encoding it is written. `Encoding.ofZeros`
reads them, and `Encoding.decode?` reads a text in an encoding. In UTF-16 a
high and a low surrogate in a row are one character; a surrogate on its own is
none, and the replacement character stands for it.
-/

set_option autoImplicit false

namespace CodeTidy

/-- Which byte of a number comes first. -/
inductive ByteOrder where
  | bigEndian
  | littleEndian
  deriving DecidableEq, Repr

/-- How bytes write a text. -/
inductive Encoding where
  | utf8
  | utf16 (order : ByteOrder)
  | utf32 (order : ByteOrder)
  deriving DecidableEq, Repr

namespace ByteOrder

/-- The number that bytes write. -/
def number (order : ByteOrder) (bytes : List UInt8) : Nat :=
  let highFirst := match order with
    | .bigEndian => bytes
    | .littleEndian => bytes.reverse
  highFirst.foldl (fun n b => n * 256 + b.toNat) 0

/-- The numbers that pairs of bytes write, if no byte is left over. -/
def pairs? (order : ByteOrder) : List UInt8 → Option (List Nat)
  | [] => some []
  | a :: b :: rest => (pairs? order rest).map (order.number [a, b] :: ·)
  | _ => none

/-- The numbers that groups of four bytes write, if no byte is left over. -/
def fours? (order : ByteOrder) : List UInt8 → Option (List Nat)
  | [] => some []
  | a :: b :: c :: d :: rest => (fours? order rest).map (order.number [a, b, c, d] :: ·)
  | _ => none

end ByteOrder

namespace Text

/-- Whether a number is a surrogate, which is half of a character. -/
def isSurrogate (n : Nat) : Bool := 0xD800 ≤ n && n < 0xE000

/-- The character of that number. -/
def ofCode (n : Nat) : Char := if isSurrogate n then replacement else Char.ofNat n

/-- The characters of code units of UTF-16; a greater number is a character by itself. -/
def ofUnits : List Nat → Text
  | high :: low :: rest =>
    if 0xD800 ≤ high && high < 0xDC00 && 0xDC00 ≤ low && low < 0xE000 then
      Char.ofNat (0x10000 + (high - 0xD800) * 0x400 + (low - 0xDC00)) :: ofUnits rest
    else ofCode high :: ofUnits (low :: rest)
  | [n] => [ofCode n]
  | [] => []

/-- The characters of numbers, if there is none above the last character. -/
def ofCodes? (codes : List Nat) : Option Text :=
  if codes.all (· ≤ 0x10FFFF) then some (codes.map ofCode) else none

end Text

namespace Encoding

/-- The encoding of a JSON text. -/
def ofZeros : List UInt8 → Encoding
  | a :: b :: c :: d :: _ =>
    if a = 0 then if b = 0 then .utf32 .bigEndian else .utf16 .bigEndian
    else if b = 0 then if c = 0 ∧ d = 0 then .utf32 .littleEndian else .utf16 .littleEndian
    else .utf8
  | [a, b] => if a = 0 then .utf16 .bigEndian else if b = 0 then .utf16 .littleEndian else .utf8
  | _ => .utf8

/-- The text that bytes write, if they write one. -/
def decode? (bytes : List UInt8) : Encoding → Option Text
  | .utf8 => some (Text.decodeUtf8 bytes)
  | .utf16 order => (order.pairs? bytes).map Text.ofUnits
  | .utf32 order => (order.fours? bytes).bind Text.ofCodes?

end Encoding

end CodeTidy
