/-!
# `CodeTidy.Text.Ranges`: tables of character ranges

A character class of the Unicode standard is kept as an array of ranges of
code points, in increasing order and without overlap. `Ranges.has` looks a
code point up by bisection.
-/

set_option autoImplicit false

namespace CodeTidy.Text

/-- Ranges of code points, first and last included, in increasing order. -/
abbrev Ranges := Array (Nat × Nat)

namespace Ranges

/-- Bisection between the positions `low` and `high`; `steps` bounds the number of halvings. -/
def search (table : Ranges) (n : Nat) : (steps low high : Nat) → Bool
  | 0, _, _ => false
  | steps + 1, low, high =>
    if low < high then
      let middle := (low + high) / 2
      match table[middle]? with
      | none => false
      | some (first, last) =>
        if n < first then search table n steps low middle
        else if last < n then search table n steps (middle + 1) high
        else true
    else false

/-- Whether the code point `n` lies in one of the ranges. Each halving at least halves the part
still to search, so as many steps as the size has binary digits are enough. -/
def has (table : Ranges) (n : Nat) : Bool :=
  search table n (table.size.log2 + 1) 0 table.size

end Ranges

end CodeTidy.Text
