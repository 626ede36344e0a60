import CodeTidy.Double.Decimal
import CodeTidy.Text.Blank
import CodeTidy.Text.Digit

/-!
# `CodeTidy.Double.Notation`: how binary64 numbers are written and read

A `FloatStyle` decides how digits are laid out: where positional notation ends
and what marks a whole number. Values are written in `FloatStyle.value`, the
lengths of time in messages in `FloatStyle.general`.

`Double.ofText?` reads the notation that a person may write: blanks around it,
decimal digits of any script, underscores between digits, and the names of
infinity and of what is not a number in any case.
-/

set_option autoImplicit false

namespace CodeTidy

/-- The decisions of a notation for binary64 numbers. -/
structure FloatStyle where
  /-- The number of significant digits, or the fewest that read back. -/
  digits : Option Nat
  /-- The first power of ten that is written with an exponent. -/
  positionalBelow : Int
  /-- Whether a whole number without an exponent gets a point and a zero. -/
  pointZero : Bool
  nan : String
  infinity : String

namespace FloatStyle

/-- Values: the fewest digits that read back, positional from 0.0001 to below 10^16. -/
def value : FloatStyle := ⟨none, 16, true, "nan", "inf"⟩

/-- Values in JSON: as `value`, with JSON's names for what is not finite. -/
def json : FloatStyle := ⟨none, 16, true, "NaN", "Infinity"⟩

/-- Lengths of time: six significant digits, positional from 0.0001 to below 10^6. -/
def general : FloatStyle := ⟨some 6, 6, false, "nan", "inf"⟩

/-- The digits of a number with the point after the first `whole` of them. -/
def positional (style : FloatStyle) (digits : Text) (whole : Int) : Text :=
  if whole ≤ 0 then "0." ++ Text.padLeft (whole.natAbs + digits.length) '0' digits
  else
    let n := whole.toNat
    let ending : Text := if style.pointZero then ".0" else ""
    if digits.length ≤ n then Text.padRight n '0' digits ++ ending
    else digits.take n ++ "." ++ digits.drop n

/-- The digits of a number with the point after the first one and the power of ten `top`. -/
def scientific (digits : Text) (top : Int) : Text :=
  let tail : Text := digits.drop 1
  let fraction : Text := if tail.isEmpty then "" else "." ++ tail
  let sign : Text := if top < 0 then "-" else "+"
  digits.take 1 ++ fraction ++ "e" ++ sign ++ Text.padLeft 2 '0' (Text.ofNat top.natAbs)

/-- A number as it is written in the style. -/
def write (style : FloatStyle) : Double → Text
  | .nan => style.nan
  | .infinity s => if s then "-" ++ style.infinity.toList else style.infinity
  | .finite s m e =>
    let sign : Text := if s then "-" else ""
    let zero : Text := if style.pointZero then "0.0" else "0"
    if m = 0 then sign ++ zero
    else
      let (number, exponent) := match style.digits with
        | none =>
          let (number, exponent) := Double.shortest m e
          Double.trimZeros 20 number exponent
        | some count => Double.significant count m e
      let digits := Text.ofNat number
      let top := exponent + digits.length - 1
      sign ++ (if -4 ≤ top && top < style.positionalBelow then style.positional digits (top + 1)
        else scientific digits top)

end FloatStyle

namespace Double

/-- A number of any sort that a text can write: its sign is written apart. -/
def ofUnsigned? (negative : Bool) (t : Text) : Option Double :=
  let small := t.map Char.toLower
  if small == "inf".toList || small == "infinity".toList then some (.infinity negative)
  else if small == "nan".toList then some .nan
  else none

/-- Decimal digits with single underscores between them, and the text after them. -/
def digitRun : (afterDigit : Bool) → Text → Text × Text
  | _, [] => ([], [])
  | afterDigit, c :: r =>
    if c.isDigit then
      let (digits, rest) := digitRun true r
      (c :: digits, rest)
    else if c == '_' && afterDigit && r.head?.any Char.isDigit then digitRun false r
    else ([], c :: r)

/-- A decimal: digits, a fraction and an exponent, of which some may be missing. -/
def ofUnsignedDecimal? (negative : Bool) (t : Text) : Option Double := do
  let (whole, rest) := digitRun false t
  let (fraction, rest) := match rest with
    | '.' :: r => digitRun false r
    | _ => ([], rest)
  if whole.isEmpty && fraction.isEmpty then none
  let exponent ← match rest with
    | [] => some (0 : Int)
    | e :: r =>
      if e == 'e' || e == 'E' then
        let (minus, r) := match r with
          | '-' :: r => (true, r)
          | '+' :: r => (false, r)
          | _ => (false, r)
        match digitRun false r with
        | ([], _) => none
        | (digits, []) => do
          let n ← Text.decimalValue? digits
          some (if minus then -(n : Int) else n)
        | _ => none
      else none
  let digits ← Text.decimalValue? (whole ++ fraction)
  some (ofDecimal negative digits (exponent - fraction.length))

/-- Each decimal digit of any script as the ASCII digit of the same value. -/
def asciiDigits (t : Text) : Text :=
  t.map (fun c => match Text.digitValue? c with
    | some d => Char.ofNat (48 + d)
    | none => c)

/-- The number that a text writes. -/
def ofText? (t : Text) : Option Double :=
  let t := asciiDigits (Text.trim t)
  let (negative, body) := match t with
    | '-' :: r => (true, r)
    | '+' :: r => (false, r)
    | _ => (false, t)
  (ofUnsigned? negative body).or (ofUnsignedDecimal? negative body)

end Double

end CodeTidy
