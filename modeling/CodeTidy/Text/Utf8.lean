import CodeTidy.Text.Basic

/-!
# `CodeTidy.Text.Utf8`: bytes and text

`decodeUtf8` reads UTF-8 and puts a replacement character for each longest stretch of bytes that
begins a character but does not finish it, and for each other byte that begins none. `encodeUtf8`
writes a text. `unifyLineEnds` turns the line ends of all systems into line feeds.
-/

set_option autoImplicit false

namespace CodeTidy.Text

/-- What a first byte calls for: the number of further bytes, the bits it gives, and the range of
the second byte. The ranges exclude overlong forms, surrogates and what lies above U+10FFFF. -/
def leadByte? (b : UInt8) : Option (Nat × Nat × UInt8 × UInt8) :=
  if 0xC2 ≤ b && b ≤ 0xDF then some (1, b.toNat - 0xC0, 0x80, 0xBF)
  else if b == 0xE0 then some (2, 0, 0xA0, 0xBF)
  else if b == 0xED then some (2, 0xD, 0x80, 0x9F)
  else if 0xE1 ≤ b && b ≤ 0xEF then some (2, b.toNat - 0xE0, 0x80, 0xBF)
  else if b == 0xF0 then some (3, 0, 0x90, 0xBF)
  else if 0xF1 ≤ b && b ≤ 0xF3 then some (3, b.toNat - 0xF0, 0x80, 0xBF)
  else if b == 0xF4 then some (3, 4, 0x80, 0x8F)
  else none

/-- What has been read of a character: how many bytes are missing, the bits so far, and the range of
the next byte. -/
structure Utf8State where
  missing : Nat
  bits : Nat
  low : UInt8
  high : UInt8

/-- The character that stands for bytes that make up none. -/
def replacement : Char := '\uFFFD'

/-- The characters of bytes, after the part of a character that `state?` holds. -/
def decodeUtf8From : (state? : Option Utf8State) → List UInt8 → Text
  | none, [] => []
  | some _, [] => [replacement]
  | state?, b :: bs =>
    let fresh (pending : Text) : Text :=
      if b < 0x80 then pending ++ Char.ofNat b.toNat :: decodeUtf8From none bs
      else match leadByte? b with
        | some (missing, bits, low, high) =>
          pending ++ decodeUtf8From (some ⟨missing, bits, low, high⟩) bs
        | none => pending ++ replacement :: decodeUtf8From none bs
    match state? with
    | none => fresh []
    | some state =>
      if state.low ≤ b && b ≤ state.high then
        let bits := state.bits * 64 + (b.toNat - 0x80)
        if state.missing = 1 then Char.ofNat bits :: decodeUtf8From none bs
        else decodeUtf8From (some ⟨state.missing - 1, bits, 0x80, 0xBF⟩) bs
      else fresh [replacement]

/-- The text that bytes write in UTF-8. -/
def decodeUtf8 (bytes : List UInt8) : Text := decodeUtf8From none bytes

/-- The bytes that write a text in UTF-8. -/
def encodeUtf8 (t : Text) : List UInt8 := t.flatMap String.utf8EncodeChar

/-- The text in which a carriage return, alone or before a line feed, is a line feed. -/
def unifyLineEnds : Text → Text
  | '\r' :: '\n' :: r => '\n' :: unifyLineEnds r
  | '\r' :: r => '\n' :: unifyLineEnds r
  | c :: r => c :: unifyLineEnds r
  | [] => []

end CodeTidy.Text
