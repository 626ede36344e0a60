import CodeTidy.Double.Basic

/-!
# `CodeTidy.Double.Decimal`: decimals of a binary64 number

`Double.ofDecimal` reads a decimal, `Double.shortest` selects the digits with
which a number is written: the fewest digits that read back to it, and of two
such decimals the nearer one.
-/

set_option autoImplicit false

namespace CodeTidy.Double

/-- The number nearest to `digits · 10 ^ exponent`. Decimals far outside of the range are not
computed: beyond these bounds they round to infinity or to zero. -/
def ofDecimal (negative : Bool) (digits : Nat) (exponent : Int) : Double :=
  if digits = 0 then .finite negative 0 minExponent
  else
    let places : Int := (Nat.toDigits 10 digits).length
    if 400 < exponent + places then .infinity negative
    else if exponent + places < -400 then .finite negative 0 minExponent
    else match exponent with
      | .ofNat k => ofRatio negative (digits * Nat.pow 10 k) 1
      | .negSucc k => ofRatio negative digits (Nat.pow 10 (k + 1))

/-- The greatest `k` with `10 ^ k ≤ r`, for a positive value, found by trying downwards from
`k`. -/
def log10From (r : Rat) : (steps : Nat) → (k : Int) → Int
  | 0, k => k
  | steps + 1, k => if (10 : Rat) ^ k ≤ r then k else log10From r steps (k - 1)

/-- The greatest `k` with `10 ^ k ≤ r`, for the value of a finite positive number. The number of
binary digits gives a start that is at most one too high. -/
def log10 (r : Rat) : Int :=
  let bits : Int := (r.num.natAbs.log2 : Int) - r.den.log2
  log10From r 4 ((bits + 1) * 30103 / 100000 + 1)

/-- The better of the two decimals with last digit at `10 ^ exponent` that are next to the value
`r`, if one of them reads back to `x`: the nearer one, in a tie the even one. -/
def neighbour? (x : Double) (r : Rat) (exponent : Int) : Option Nat :=
  let scaled := r / (10 : Rat) ^ exponent
  let low := scaled.floor.toNat
  let high := low + 1
  let lowReads := low != 0 && ofDecimal false low exponent == x
  let highReads := ofDecimal false high exponent == x
  match lowReads, highReads with
  | false, false => none
  | true, false => some low
  | false, true => some high
  | true, true =>
    let below := scaled - low
    let above := high - scaled
    if below < above then some low
    else if above < below then some high
    else if low % 2 = 0 then some low else some high

/-- The fewest digits, `count` or more, that read back; `steps` bounds the search. -/
def shortestFrom (x : Double) (r : Rat) (top : Int) : (steps : Nat) → (count : Nat) → Nat × Int
  | 0, count => ((r / (10 : Rat) ^ (top + 1 - count)).floor.toNat, top + 1 - count)
  | steps + 1, count =>
    match neighbour? x r (top + 1 - count) with
    | some digits => (digits, top + 1 - count)
    | none => shortestFrom x r top steps (count + 1)

/-- The digits and the exponent of the shortest decimal that reads back to a positive finite
number. Seventeen digits are always enough. -/
def shortest (mantissa : Nat) (exponent : Int) : Nat × Int :=
  let r := toRat false mantissa exponent
  shortestFrom (.finite false mantissa exponent) r (log10 r) 17 1

/-- The digits without the zeros at their end, and the exponent that makes up for them. -/
def trimZeros : (steps : Nat) → (digits : Nat) → (exponent : Int) → Nat × Int
  | 0, digits, exponent => (digits, exponent)
  | steps + 1, digits, exponent =>
    if digits != 0 && digits % 10 = 0 then trimZeros steps (digits / 10) (exponent + 1)
    else (digits, exponent)

/-- The value rounded to `count` significant digits, a tie to the even digit, without zeros at
the end. -/
def significant (count : Nat) (mantissa : Nat) (exponent : Int) : Nat × Int :=
  let r := toRat false mantissa exponent
  let last := log10 r + 1 - count
  let scaled := r / (10 : Rat) ^ last
  trimZeros count (roundDiv scaled.num.natAbs scaled.den) last

end CodeTidy.Double
