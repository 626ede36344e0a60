import CodeTidy.Text.Basic
import CodeTidy.Text.CaseTable

/-!
# `CodeTidy.Text.Case`: small and capital letters

`lower` and `upper` are the full case mappings of Unicode 14. Two of their
rules go beyond one character for another: some characters have a capital form
of two or three characters, and a capital sigma at the end of a word has a
small form of its own.
-/

set_option autoImplicit false

namespace CodeTidy.Text

/-- The code point that the rows map `n` to, or `n` itself; bisection between the positions
`low` and `high`. -/
def CaseRows.search (rows : CaseRows) (n : Nat) : (steps low high : Nat) → Nat
  | 0, _, _ => n
  | steps + 1, low, high =>
    if low < high then
      let middle := (low + high) / 2
      match rows[middle]? with
      | none => n
      | some (first, last, stride, shift) =>
        if n < first then search rows n steps low middle
        else if last < n then search rows n steps (middle + 1) high
        else if (n - first) % stride == 0 then (Int.ofNat n + shift).toNat
        else n
    else n

/-- The code point that the rows map `n` to, or `n` itself. -/
def CaseRows.apply (rows : CaseRows) (n : Nat) : Nat :=
  rows.search n (rows.size.log2 + 1) 0 rows.size

/-- The small form of one character, as far as it is one character. -/
def lowerChar (c : Char) : Char :=
  if c.toNat < 128 then c.toLower else Char.ofNat (lowerRows.apply c.toNat)

/-- The capital form of one character. -/
def upperChar (c : Char) : Text :=
  if c.toNat < 128 then [c.toUpper]
  else match longCapitals.lookup c.toNat with
    | some codes => codes.map Char.ofNat
    | none => [Char.ofNat (upperRows.apply c.toNat)]

/-- Whether the first character that is not passed over has case. -/
def meetsCased (t : Text) : Bool :=
  match t.dropWhile (fun c => caseIgnorableRanges.has c.toNat) with
  | [] => false
  | c :: _ => casedRanges.has c.toNat

/-- The small form of a capital sigma between two texts, the one before it reversed: the final
form at the end of a word, else the plain one. -/
def lowerSigma (before after : Text) : Char :=
  if meetsCased before && !meetsCased after then 'ς' else 'σ'

/-- The small forms of the characters after `before`, which is reversed. -/
def lowerAfter (before : Text) : Text → Text
  | [] => []
  | c :: r =>
    if c == 'Σ' then lowerSigma before r :: lowerAfter (c :: before) r
    else if c == 'İ' then 'i' :: '\u0307' :: lowerAfter (c :: before) r
    else lowerChar c :: lowerAfter (c :: before) r

/-- The text in small letters. -/
def lower (t : Text) : Text := lowerAfter [] t

/-- The text in capital letters. -/
def upper (t : Text) : Text := t.flatMap upperChar

/-- Whether the character `c` is the small ASCII letter or other character `expected` when case
does not count. The dotless i and the long s count as i and s. -/
def sameIgnoringCase (expected c : Char) : Bool :=
  lowerChar c == expected || (expected == 'i' && (c == 'ı' || c == 'İ')) ||
    (expected == 's' && c == 'ſ')

end CodeTidy.Text
