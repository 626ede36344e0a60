/-!
# `CodeTidy.Double.Basic`: binary64 numbers as exact values

A `Double` is a binary64 number: not a number, an infinity, or a sign, a
mantissa below 2^53 and an exponent. `Double.ofRat` rounds an exact value to
the nearest such number, a tie to the even mantissa. The operations compute
exactly on rationals and round once, so each is the correctly rounded one.
-/

set_option autoImplicit false

namespace CodeTidy

/-- A binary64 number. The finite ones are `± mantissa · 2 ^ exponent`. -/
inductive Double where
  | nan
  | infinity (negative : Bool)
  | finite (negative : Bool) (mantissa : Nat) (exponent : Int)
  deriving DecidableEq, Repr

namespace Double

/-- Whether the number is neither infinite nor no number at all. -/
def isFinite : Double → Bool
  | .finite _ _ _ => true
  | _ => false

/-- The quotient rounded to the nearest whole number, a tie to the even one. -/
def roundDiv (num den : Nat) : Nat :=
  let q := num / den
  let twice := 2 * (num % den)
  if twice < den then q
  else if den < twice then q + 1
  else if q % 2 = 0 then q else q + 1

/-- The exponent of the smallest steps between finite numbers. -/
def minExponent : Int := -1074

/-- The exponent of the largest steps between finite numbers. -/
def maxExponent : Int := 971

/-- `num / den` without the factor `2 ^ e`, as numerator and denominator. -/
def unscale (num den : Nat) (e : Int) : Nat × Nat :=
  match e with
  | .ofNat k => (num, den * Nat.pow 2 k)
  | .negSucc k => (num * Nat.pow 2 (k + 1), den)

/-- The greatest `k` with `2 ^ k ≤ num / den`, for positive numbers. -/
def log2Ratio (num den : Nat) : Int :=
  let k : Int := num.log2 - den.log2
  let (n, d) := unscale num den k
  if n < d then k - 1 else k

/-- The number nearest to `num / den`, a tie to the even mantissa. -/
def ofRatio (negative : Bool) (num den : Nat) : Double :=
  if num = 0 then .finite negative 0 minExponent
  else
    let e := max (log2Ratio num den - 52) minExponent
    let (n, d) := unscale num den e
    let q := roundDiv n d
    let (q, e) := if q = Nat.pow 2 53 then (Nat.pow 2 52, e + 1) else (q, e)
    if maxExponent < e then .infinity negative else .finite negative q e

/-- The number nearest to an exact value. -/
def ofRat (r : Rat) : Double := ofRatio (r.num < 0) r.num.natAbs r.den

/-- The number nearest to a whole number. -/
def ofInt (n : Int) : Double := ofRatio (n < 0) n.natAbs 1

/-- The number nearest to a natural number. -/
def ofNat (n : Nat) : Double := ofRatio false n 1

instance (n : Nat) : OfNat Double n := ⟨ofNat n⟩

/-- The exact value of a finite number. -/
def toRat (negative : Bool) (mantissa : Nat) (exponent : Int) : Rat :=
  let size : Rat :=
    match exponent with
    | .ofNat k => (mantissa * Nat.pow 2 k : Nat)
    | .negSucc k => mkRat mantissa (Nat.pow 2 (k + 1))
  if negative then -size else size

/-- The number with the other sign. -/
def neg : Double → Double
  | .nan => .nan
  | .infinity s => .infinity (!s)
  | .finite s m e => .finite (!s) m e

/-- The sum, rounded. A sum of zero is negative only if both numbers are negative zeros. -/
def add : Double → Double → Double
  | .nan, _ => .nan
  | _, .nan => .nan
  | .infinity s, .infinity t => if s = t then .infinity s else .nan
  | .infinity s, _ => .infinity s
  | _, .infinity t => .infinity t
  | .finite s m e, .finite t n f =>
    let r := toRat s m e + toRat t n f
    if r = 0 then .finite (s && t && m == 0 && n == 0) 0 minExponent else ofRat r

/-- The difference, rounded. -/
def sub (a b : Double) : Double := add a (neg b)

/-- The product, rounded. -/
def mul : Double → Double → Double
  | .nan, _ => .nan
  | _, .nan => .nan
  | .infinity s, .infinity t => .infinity (s != t)
  | .infinity s, .finite t n _ => if n = 0 then .nan else .infinity (s != t)
  | .finite s m _, .infinity t => if m = 0 then .nan else .infinity (s != t)
  | .finite s m e, .finite t n f =>
    let r := toRat s m e * toRat t n f
    ofRatio (s != t) r.num.natAbs r.den

/-- The quotient by a positive whole number, rounded. -/
def divNat (a : Double) (n : Nat) : Double :=
  match a with
  | .nan => .nan
  | .infinity s => .infinity s
  | .finite s m e =>
    let r := toRat s m e / n
    ofRatio s r.num.natAbs r.den

/-- The quotient of two whole numbers, rounded; the second is positive. -/
def ratio (a b : Nat) : Double := ofRatio false a b

instance : Add Double := ⟨add⟩
instance : Sub Double := ⟨sub⟩
instance : Mul Double := ⟨mul⟩
instance : Neg Double := ⟨neg⟩

/-- Whether `a` is less than `b`. Nothing is less or greater than what is not a number. -/
def lt : Double → Double → Bool
  | .nan, _ => false
  | _, .nan => false
  | .infinity s, .infinity t => s && !t
  | .infinity s, .finite _ _ _ => s
  | .finite _ _ _, .infinity t => !t
  | .finite s m e, .finite t n f => toRat s m e < toRat t n f

/-- Whether the numbers are equal in value, so that both zeros are equal. -/
def same (a b : Double) : Bool :=
  match a, b with
  | .finite s m e, .finite t n f => toRat s m e == toRat t n f
  | .infinity s, .infinity t => s == t
  | _, _ => false

/-- The greatest whole number that is not above the number, if it is finite. -/
def floor? : Double → Option Int
  | .finite s m e => some (toRat s m e).floor
  | _ => none

/-- The number rounded to one decimal place: the nearest of its exact value's neighbours, a tie to
the even one. -/
def roundTenth : Double → Double
  | .finite s m e =>
    let r := toRat false m e * 10
    ofRatio s (roundDiv r.num.natAbs r.den) 10
  | a => a

end Double

end CodeTidy
