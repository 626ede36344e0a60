import CodeTidy.Text.Blank
import CodeTidy.Text.Case
import CodeTidy.Text.Digit
import CodeTidy.Text.Word
import Mathlib.Algebra.Group.Nat.Defs
import Mathlib.Data.List.Chain

/-!
# `CodeTidy.Proofs.Text.Tables`: what the tables of characters hold

Classes of characters and their capital forms are looked up in long tables, by
bisection. A table of ranges is in order, so that bisection finds each code point
that lies in one of them. A pattern that does not mind case accepts four
characters besides the ASCII letters. The theorems:

* `Ranges.search_of_getElem?`: bisection does not pass the range by.
* `Ranges.has_of_mem`: a code point in one of the ranges is found.
* `isWord_of_isDecimal`: the table of letters and numerals holds the decimal
  digits.
* `tables_spec`: what is seen by reading the other tables through.
* `mem_letterForms`: the four characters and the ASCII letters are all that a
  pattern accepts for a letter.
* `letterForms_spec`: each of them is a word character, and so is its capital
  form, which is one character and its own capital form.
* `isWord_of_isBlank`: white space is no word character.
* `upperChar_ne_nil`: no character has an empty capital form.
-/

set_option autoImplicit false

namespace CodeTidy.Text

/-! ### Looking a code point up -/

namespace Ranges

/-- Two ranges in order, neither of them empty. -/
def Before (r r' : Nat × Nat) : Prop := r.1 ≤ r.2 ∧ r.2 < r'.1 ∧ r'.1 ≤ r'.2

instance (r r' : Nat × Nat) : Decidable (Before r r') :=
  inferInstanceAs (Decidable (r.1 ≤ r.2 ∧ r.2 < r'.1 ∧ r'.1 ≤ r'.2))

instance : Trans Before Before Before where
  trans := by
    rintro r r' r'' ⟨h, hlt, -⟩ ⟨h', hlt', h''⟩
    exact ⟨h, by omega, h''⟩

variable {table : Ranges}

/-- The ranges of the table are in order. -/
def IsSorted (table : Ranges) : Prop := table.toList.IsChain Before

/-- Two ranges of a sorted table are in order, also if others stand between them. -/
theorem IsSorted.before (h : table.IsSorted) {i j : Nat} {r r' : Nat × Nat}
    (hi : table[i]? = some r) (hj : table[j]? = some r') (hij : i < j) : Before r r' := by
  have hpairwise : table.toList.Pairwise Before := List.isChain_iff_pairwise.mp h
  rw [← Array.getElem?_toList, List.getElem?_eq_some_iff] at hi hj
  obtain ⟨hi, rfl⟩ := hi
  obtain ⟨hj, rfl⟩ := hj
  exact List.pairwise_iff_getElem.mp hpairwise i j hi hj hij

/-- Bisection between two positions finds the range that lies between them. -/
theorem search_of_getElem? (h : table.IsSorted) {i n : Nat} {r : Nat × Nat}
    (hi : table[i]? = some r) (hn : r.1 ≤ n ∧ n ≤ r.2) {steps low high : Nat} (hlow : low ≤ i)
    (hhigh : i < high) (hsize : high ≤ table.size) (hsteps : high - low < 2 ^ steps) :
    search table n steps low high = true := by
  induction steps generalizing low high with
  | zero => omega
  | succ steps ih =>
    rw [search, if_pos (by omega)]
    dsimp only
    have hmiddle : (low + high) / 2 < table.size := by omega
    rw [Array.getElem?_eq_getElem hmiddle]
    generalize hr' : table[(low + high) / 2] = r'
    have hat : table[(low + high) / 2]? = some r' := by
      rw [Array.getElem?_eq_getElem hmiddle, hr']
    obtain ⟨first, last⟩ := r'
    dsimp only
    -- The range stands at the position in the middle, in front of it or behind it.
    rcases Nat.lt_trichotomy i ((low + high) / 2) with hlt | heq | hgt
    · obtain ⟨-, hbefore, -⟩ := h.before hi hat hlt
      rw [if_pos (show n < first by dsimp only at hbefore; omega)]
      exact ih hlow hlt (by omega) (by omega)
    · rw [← heq, hi, Option.some.injEq] at hat
      subst hat
      rw [if_neg (by dsimp only at hn; omega), if_neg (by dsimp only at hn; omega)]
    · obtain ⟨-, hbefore, -⟩ := h.before hat hi hgt
      obtain ⟨hempty, -, -⟩ := h.before hat hi hgt
      rw [if_neg (by dsimp only at hbefore hempty; omega),
        if_pos (show last < n by dsimp only at hbefore; omega)]
      exact ih (by omega) hhigh hsize (by omega)

/-- A code point that lies in one of the ranges is found. -/
theorem has_of_mem (h : table.IsSorted) {n : Nat} {r : Nat × Nat} (hr : r ∈ table.toList)
    (hn : r.1 ≤ n ∧ n ≤ r.2) : table.has n = true := by
  obtain ⟨i, hi, heq⟩ := List.getElem_of_mem hr
  have hat : table[i]? = some r := by
    rw [← Array.getElem?_toList, List.getElem?_eq_getElem hi, heq]
  rw [has]
  exact search_of_getElem? h hat hn (Nat.zero_le i) hi (Nat.le_refl _) Nat.lt_log2_self

end Ranges

/-- The table of letters is in order, so that it can be searched by halves. -/
theorem isSorted_letterRanges : letterRanges.IsSorted := by
  unfold Ranges.IsSorted
  decide +kernel

/-- A decimal digit of any script is a word character. -/
theorem isWord_of_isDecimal {c : Char} (h : isDecimal c = true) : isWord c = true := by
  -- Every block of ten digits is ASCII or within one range of letters.
  have hblocks : zeros.all (fun z =>
      z == 48 || letterRanges.toList.any (fun r => r.1.ble z && (z + 9).ble r.2)) = true := by
    decide +kernel
  simp only [isDecimal, digitValue?] at h
  rw [isWord]
  split at h
  · next hascii =>
    rw [if_pos hascii]
    split at h
    · next hdigit => rw [Char.isAlphanum, hdigit, Bool.or_true, Bool.true_or]
    · cases h
  · next hascii =>
    rw [if_neg hascii]
    rw [Option.isSome_map, List.find?_isSome] at h
    obtain ⟨z, hz, hblock⟩ := h
    rw [Bool.and_eq_true, decide_eq_true_eq, decide_eq_true_eq] at hblock
    have hin := List.all_eq_true.mp hblocks z hz
    rw [Bool.or_eq_true, beq_iff_eq, List.any_eq_true] at hin
    rcases hin with rfl | ⟨r, hr, hrange⟩
    · omega
    · rw [Bool.and_eq_true, Nat.ble_eq, Nat.ble_eq] at hrange
      exact Ranges.has_of_mem isSorted_letterRanges hr (by omega)

/-! ### Letters and white space -/

/-- The ASCII letters, and the characters that are one of them when case does not count. -/
def letterForms : List Char :=
  "ABCDEFGHIJKLMNOPQRSTUVWXYZabcdefghijklmnopqrstuvwxyzıİſ\u212a".toList

/-- A word character whose capital form is one word character and its own capital form. -/
def isLetterForm (c : Char) : Bool :=
  !isBlank c && isWord c &&
    (match upperChar c with
      | [d] => !isBlank d && isWord d && upperChar d == [d]
      | _ => false)

/-- The code points of white space. -/
def blankCodes : List Nat :=
  [9, 10, 11, 12, 13, 28, 29, 30, 31, 32, 0x85, 0xA0, 0x1680, 0x2000, 0x2001, 0x2002, 0x2003,
    0x2004, 0x2005, 0x2006, 0x2007, 0x2008, 0x2009, 0x200A, 0x2028, 0x2029, 0x202F, 0x205F, 0x3000]

/-- What the tables hold, as far as it is seen by looking at one entry after the other: no row of
`lowerRows` but one leads to an ASCII character from beyond, `letterForms` has the ASCII letters and
only letters, no blank is a word character, and no capital form is empty. The tables are long, so
they are read through in this one place. -/
theorem tables_spec :
    (∀ row ∈ lowerRows.toList, row.2.1 < 128 ∨ 128 ≤ Int.ofNat row.1 + row.2.2.2 ∨
        row.1 = 8490 ∧ row.2.1 = 8490) ∧
      (∀ n < 128, (Char.ofNat n).toLower.isLower = true → Char.ofNat n ∈ letterForms) ∧
      letterForms.all isLetterForm = true ∧
      (∀ n ∈ blankCodes, isWord (Char.ofNat n) = false) ∧
      ∀ row ∈ longCapitals, row.2 ≠ [] := by
  decide +kernel

/-- What bisection answers is the code point itself or comes from one of the rows. -/
theorem CaseRows.search_spec (rows : CaseRows) (n steps low high : Nat) :
    rows.search n steps low high = n ∨
      ∃ row ∈ rows, row.1 ≤ n ∧ n ≤ row.2.1 ∧
        rows.search n steps low high = (Int.ofNat n + row.2.2.2).toNat := by
  induction steps generalizing low high with
  | zero => exact .inl rfl
  | succ steps ih =>
    rw [search]
    by_cases hlow : low < high
    · rw [if_pos hlow]
      -- The row in the middle answers, or the search goes on below or above it.
      cases hrow : rows[(low + high) / 2]? with
      | none => simp only [hrow, true_or]
      | some row =>
        obtain ⟨first, last, stride, shift⟩ := row
        simp only [hrow]
        by_cases hfirst : n < first
        · rw [if_pos hfirst]
          exact ih low ((low + high) / 2)
        · by_cases hlast : last < n
          · rw [if_neg hfirst, if_pos hlast]
            exact ih ((low + high) / 2 + 1) high
          · rw [if_neg hfirst, if_neg hlast]
            by_cases hstride : ((n - first) % stride == 0) = true
            · rw [if_pos hstride]
              exact .inr ⟨_, Array.mem_of_getElem? hrow, Nat.le_of_not_lt hfirst,
                Nat.le_of_not_lt hlast, rfl⟩
            · rw [if_neg hstride]
              exact .inl rfl
    · rw [if_neg hlow]
      exact .inl rfl

/-- The Kelvin sign is the only character beyond ASCII whose small form is an ASCII one. -/
theorem lowerRows_apply_lt {n : Nat} (hn : 128 ≤ n) (h : lowerRows.apply n < 128) : n = 8490 := by
  rcases CaseRows.search_spec lowerRows n (lowerRows.size.log2 + 1) 0 lowerRows.size with
    heq | ⟨row, hrow, hfirst, hlast, heq⟩
  · rw [CaseRows.apply, heq] at h
    omega
  · obtain ⟨hrows, -⟩ := tables_spec
    rw [CaseRows.apply, heq] at h
    rcases hrows row (Array.mem_toList_iff.mpr hrow) with hsmall | hbig | ⟨hkelvin, hkelvin'⟩
    · omega
    · simp only [Int.ofNat_eq_natCast] at h hbig
      omega
    · omega

/-- A code point that is not valid names the null character. -/
theorem toNat_ofNat (n : Nat) : (Char.ofNat n).toNat = n ∨ Char.ofNat n = '\x00' := by
  have hdef : Char.ofNat n =
      if h : n.isValidChar then Char.ofNatAux n h else '\x00' := rfl
  by_cases h : n.isValidChar
  · left
    rw [hdef, dif_pos h]
    rfl
  · right
    rw [hdef, dif_neg h]

/-- What is like a small letter, case aside, is one of the letter forms. -/
theorem mem_letterForms {l c : Char} (hl : l.isLower = true)
    (h : sameIgnoringCase l c = true) : c ∈ letterForms := by
  simp only [sameIgnoringCase, Bool.or_eq_true, Bool.and_eq_true, beq_iff_eq] at h
  rcases h with (h | ⟨-, rfl | rfl⟩) | ⟨-, rfl⟩
  · rw [lowerChar] at h
    by_cases hc : c.toNat < 128
    · rw [if_pos hc] at h
      rw [← h] at hl
      have hmem := tables_spec.2.1 c.toNat hc
      rw [Char.ofNat_toNat] at hmem
      exact hmem hl
    · rw [if_neg hc] at h
      have hsmall : l.toNat < 128 := by
        have hrange : (decide (97 ≤ l.val) && decide (l.val ≤ 122)) = true := hl
        rw [Bool.and_eq_true, decide_eq_true_eq, decide_eq_true_eq] at hrange
        exact Nat.lt_of_le_of_lt hrange.2 (by decide)
      have hcode : lowerRows.apply c.toNat = l.toNat := by
        rcases toNat_ofNat (lowerRows.apply c.toNat) with heq | hnull
        · rw [← heq, h]
        · rw [hnull] at h
          subst h
          cases hl
      -- Of the characters behind ASCII one alone has a small ASCII letter.
      have hkelvin := lowerRows_apply_lt (Nat.le_of_not_lt hc) (by omega)
      have hchar : c = Char.ofNat 8490 := by rw [← hkelvin, Char.ofNat_toNat]
      subst hchar
      decide +kernel
  · decide +kernel
  · decide +kernel
  · decide +kernel

/-- A letter form is a word character, and so is its one capital, which is its own capital. -/
theorem letterForms_spec : ∀ c ∈ letterForms, isBlank c = false ∧ isWord c = true ∧
    ∃ d, upperChar c = [d] ∧ isBlank d = false ∧ isWord d = true ∧ upperChar d = [d] := by
  obtain ⟨-, -, hforms, -⟩ := tables_spec
  intro c hc
  have hform := List.all_eq_true.mp hforms c hc
  rw [isLetterForm, Bool.and_eq_true, Bool.and_eq_true] at hform
  obtain ⟨⟨hblank, hword⟩, hupper⟩ := hform
  refine ⟨by simpa using hblank, hword, ?_⟩
  -- The table is checked for the forms with one capital, so there is one.
  cases h : upperChar c with
  | nil =>
    rw [h] at hupper
    cases hupper
  | cons d rest =>
    cases rest with
    | nil =>
      rw [h] at hupper
      simp only [Bool.and_eq_true, Bool.not_eq_true', beq_iff_eq] at hupper
      exact ⟨d, rfl, hupper.1.1, hupper.1.2, hupper.2⟩
    | cons e rest =>
      rw [h] at hupper
      cases hupper

/-- The table of white space lists all of it. -/
theorem mem_blankCodes {c : Char} (h : isBlank c = true) : c.toNat ∈ blankCodes := by
  simp only [isBlank] at h
  split at h
  · simp only [Bool.or_eq_true, Bool.and_eq_true, beq_iff_eq, decide_eq_true_eq] at h
    simp only [blankCodes, List.mem_cons, List.not_mem_nil, or_false]
    omega
  · simp only [Bool.or_eq_true, Bool.and_eq_true, beq_iff_eq, decide_eq_true_eq] at h
    simp only [blankCodes, List.mem_cons, List.not_mem_nil, or_false]
    omega

/-- White space is no part of a word. -/
theorem isWord_of_isBlank {c : Char} (h : isBlank c = true) : isWord c = false := by
  obtain ⟨-, -, -, hcodes, -⟩ := tables_spec
  have hc := hcodes c.toNat (mem_blankCodes h)
  rwa [Char.ofNat_toNat] at hc

/-- Every character has a capital form, if only itself. -/
theorem upperChar_ne_nil (c : Char) : upperChar c ≠ [] := by
  rw [upperChar]
  split
  · exact List.cons_ne_nil _ _
  · split
    · rename_i codes hcodes
      obtain ⟨-, -, -, -, hrows⟩ := tables_spec
      obtain ⟨l₁, l₂, heq, -⟩ := List.lookup_eq_some_iff.mp hcodes
      have hne : codes ≠ [] := hrows (c.toNat, codes) (by simp [heq])
      simpa using hne
    · exact List.cons_ne_nil _ _

end CodeTidy.Text
