import CodeTidy.Proofs.Text.Pieces
import CodeTidy.Proofs.Text.Tables
import CodeTidy.Rule.Phrase

/-!
# `CodeTidy.Proofs.Rule.Phrase`: what the words of a name hold

The words of a name come from its characters: letters change their case, and white space and
underscores become spaces. Letters become letters, so a mark that the name does not hold is not in
its words; of the tables of cases this is read off. Where the name begins with a small letter, the
words begin with its capital. The theorems:

* `marks_spec`: no table leads to a mark from anything but the mark.
* `mem_of_mem_lower`, `eq_of_mem_upperChar`: a mark comes from a mark only.
* `mem_of_mem_humanize`: a mark in the words of a name is in the name.
* `humanize_letter`: what the words of a name begin with.
-/

set_option autoImplicit false

namespace CodeTidy

open Text

/-- An ASCII character that is not a letter, other than the null character, which stands for code
points that are not valid. -/
def isAsciiMark (c : Char) : Bool := c.toNat < 128 && !c.isAlpha && c != '\x00'

namespace Text

/-- The row leads from code points beyond ASCII to code points beyond ASCII, or from one to one that
is no mark. -/
def CaseRows.SparesMarks (rows : CaseRows) : Prop :=
  ∀ row ∈ rows.toList, row.2.1 < 128 ∨ 128 ≤ Int.ofNat row.1 + row.2.2.2 ∨
    row.1 = row.2.1 ∧ isAsciiMark (Char.ofNat (Int.ofNat row.1 + row.2.2.2).toNat) = false

/-- No table leads to a mark from anywhere but the mark itself. -/
theorem marks_spec :
    lowerRows.SparesMarks ∧ upperRows.SparesMarks ∧
      (∀ row ∈ longCapitals, ∀ n ∈ row.2, isAsciiMark (Char.ofNat n) = false) ∧
      ∀ n < 128, (isAsciiMark (Char.ofNat n).toLower = true →
          (Char.ofNat n).toLower = Char.ofNat n) ∧
        (isAsciiMark (Char.ofNat n).toUpper = true → (Char.ofNat n).toUpper = Char.ofNat n) := by
  unfold CaseRows.SparesMarks
  decide +kernel

/-- A mark is within ASCII. -/
theorem isAsciiMark_ofNat {n : Nat} (h : 128 ≤ n) : isAsciiMark (Char.ofNat n) = false := by
  rcases toNat_ofNat n with heq | hnull
  · rw [isAsciiMark, heq, decide_eq_false (Nat.not_lt.mpr h), Bool.false_and, Bool.false_and]
  · rw [hnull]
    decide

/-- A table that spares the marks leads to none from beyond ASCII. -/
theorem CaseRows.SparesMarks.apply {rows : CaseRows} (h : rows.SparesMarks) {n : Nat}
    (hn : 128 ≤ n) : isAsciiMark (Char.ofNat (rows.apply n)) = false := by
  rcases CaseRows.search_spec rows n (rows.size.log2 + 1) 0 rows.size with
    heq | ⟨row, hrow, hfirst, hlast, heq⟩
  · rw [CaseRows.apply, heq]
    exact isAsciiMark_ofNat hn
  · rw [CaseRows.apply, heq]
    rcases h row (Array.mem_toList_iff.mpr hrow) with hsmall | hbig | ⟨hone, hmark⟩
    · omega
    · refine isAsciiMark_ofNat ?_
      simp only [Int.ofNat_eq_natCast] at hbig ⊢
      omega
    · obtain rfl : row.1 = n := by omega
      exact hmark

/-- Of the characters whose small form is a mark there is only the mark itself. -/
theorem eq_of_lowerChar {a c : Char} (ha : isAsciiMark a = true) (h : lowerChar c = a) : c = a := by
  obtain ⟨hlower, -, -, hascii⟩ := marks_spec
  rw [lowerChar] at h
  split at h
  · next hsmall =>
    have hc := (hascii c.toNat hsmall).1
    rw [Char.ofNat_toNat, h] at hc
    exact (hc ha).symm
  · next hbig =>
    have hc := hlower.apply (Nat.not_lt.mp hbig)
    rw [h, ha] at hc
    cases hc

/-- Nor does another character have a mark in its capital form. -/
theorem eq_of_mem_upperChar {a c : Char} (ha : isAsciiMark a = true) (h : a ∈ upperChar c) :
    a = c := by
  obtain ⟨-, hupper, hlong, hascii⟩ := marks_spec
  have hbeyond {d : Char} (hd : isAsciiMark d = false) (h : a = d) : False := by
    rw [← h, ha] at hd
    cases hd
  rw [upperChar] at h
  split at h
  · next hsmall =>
    have hc := (hascii c.toNat hsmall).2
    rw [Char.ofNat_toNat, ← List.mem_singleton.mp h] at hc
    exact hc ha
  · next hbig =>
    split at h
    · next codes hcodes =>
      obtain ⟨l₁, l₂, heq, -⟩ := List.lookup_eq_some_iff.mp hcodes
      obtain ⟨n, hn, hd⟩ := List.mem_map.mp h
      exact (hbeyond (hlong (c.toNat, codes) (by simp [heq]) n hn) hd.symm).elim
    · exact (hbeyond (hupper.apply (Nat.not_lt.mp hbig)) (List.mem_singleton.mp h)).elim

/-- A mark in the small form of a text is in the text. -/
theorem mem_of_mem_lower {a : Char} (ha : isAsciiMark a = true) {t : Text} (h : a ∈ lower t) :
    a ∈ t := by
  -- What a sigma becomes depends on the text in front of it, so the induction is for any.
  have hafter : ∀ before, a ∈ lowerAfter before t → a ∈ t := by
    clear h
    induction t with
    | nil => exact fun _ h => h
    | cons c t ih =>
      intro before h
      rw [lowerAfter] at h
      split at h
      · rcases List.mem_cons.mp h with rfl | h
        · rw [lowerSigma] at ha
          split at ha <;> cases ha
        · exact List.mem_cons_of_mem c (ih _ h)
      · split at h
        · rcases List.mem_cons.mp h with rfl | h
          · cases ha
          · rcases List.mem_cons.mp h with rfl | h
            · cases ha
            · exact List.mem_cons_of_mem c (ih _ h)
        · -- Of the other characters only the mark itself becomes it.
          rcases List.mem_cons.mp h with hc | h
          · exact eq_of_lowerChar ha hc.symm ▸ List.mem_cons_self
          · exact List.mem_cons_of_mem c (ih _ h)
  exact hafter [] h

/-- White space in front of a text adds no words, one character of it. -/
theorem words_cons_blank {b : Char} (hb : isBlank b = true) (t : Text) :
    words (b :: t) = words t := by
  rw [words, words, splitAtEach_cons, if_pos hb]
  rfl

/-- White space in front of a text adds no words. -/
theorem words_blanks_append {s : Text} (hs : s.all isBlank = true) (t : Text) :
    words (s ++ t) = words t := by
  induction s with
  | nil => rfl
  | cons b s ih =>
    rw [List.all_cons, Bool.and_eq_true] at hs
    rw [List.cons_append, words_cons_blank hs.1, ih hs.2]

/-- The first word begins with the first character that can be seen. -/
theorem exists_words_cons {c : Char} (hc : isBlank c = false) (t : Text) :
    ∃ w ws, words (c :: t) = (c :: w) :: ws := by
  rw [words, splitAtEach_cons, hc, if_neg Bool.false_ne_true]
  cases splitAtEach isBlank t with
  | nil => exact ⟨[], [], rfl⟩
  | cons w ws => exact ⟨w, ws.filter (fun w => !w.isEmpty), rfl⟩

/-- The words consist of characters of the text. -/
theorem words_subset {t w : Text} (h : w ∈ words t) : w ⊆ t :=
  fun _ hc => (mem_of_mem_splitAtEach (List.mem_of_mem_filter h) hc).1

end Text

/-! ### The words of a name -/

/-- Nothing is added to a name but spaces. -/
theorem mem_of_mem_spaceCapitals {a : Char} (ha : a ≠ ' ') {n : Text} (h : a ∈ spaceCapitals n) :
    a ∈ n := by
  induction n using spaceCapitals.induct with
  | case1 b c r hcapital ih =>
    rw [spaceCapitals, if_pos hcapital] at h
    rcases List.mem_cons.mp h with rfl | h
    · exact List.mem_cons_self
    · exact List.mem_cons_of_mem b (ih ((List.mem_cons.mp h).resolve_left ha))
  | case2 b c r hplain ih =>
    rw [spaceCapitals, if_neg hplain] at h
    rcases List.mem_cons.mp h with rfl | h
    · exact List.mem_cons_self
    · exact List.mem_cons_of_mem b (ih h)
  | case3 t hshort =>
    rwa [spaceCapitals.eq_2 t hshort] at h

/-- The characters in front of a letter stay, if they can not be seen, and so does the letter. -/
theorem exists_spaceCapitals {s : Text} (hs : s.all isBlank = true) (c : Char) (r : Text) :
    ∃ r', spaceCapitals (s ++ c :: r) = s ++ c :: r' := by
  induction s with
  | nil =>
    cases r with
    | nil => exact ⟨[], rfl⟩
    | cons d r =>
      rw [List.nil_append, spaceCapitals]
      split
      · exact ⟨_, rfl⟩
      · exact ⟨_, rfl⟩
  | cons b s ih =>
    rw [List.all_cons, Bool.and_eq_true] at hs
    obtain ⟨r', hr'⟩ := ih hs.2
    -- No space is put behind white space.
    have hplain : (b.isLower || b.isDigit) = false := by
      have hcodes : ∀ n ∈ blankCodes, ((Char.ofNat n).isLower ||
          (Char.ofNat n).isDigit) = false := by
        decide
      have hb := hcodes b.toNat (mem_blankCodes hs.1)
      rwa [Char.ofNat_toNat] at hb
    obtain ⟨d, y, hd⟩ : ∃ d y, s ++ c :: r = d :: y := by
      cases s with
      | nil => exact ⟨c, r, rfl⟩
      | cons d s => exact ⟨d, _, rfl⟩
    refine ⟨r', ?_⟩
    rw [List.cons_append, hd, spaceCapitals, hplain, Bool.false_and, if_neg Bool.false_ne_true,
      ← hd, hr']
    rfl

/-- What is neither a letter nor a space is in the words of a name only if it is in the name. -/
theorem mem_of_mem_humanize {a : Char} (ha : isAsciiMark a = true) (hspace : a ≠ ' ') {n : Text}
    (h : a ∈ humanize n) : a ∈ n := by
  rw [humanize] at h
  split at h
  · exact h
  · -- The capital at the start is no mark unless it was one before.
    have hjoined : a ∈ joinWith " " ((words ((spaceCapitals n).map
        fun c => if c == '_' then ' ' else c)).map lower) := by
      generalize joinWith " " _ = t at h ⊢
      cases t with
      | nil => exact h
      | cons c r =>
        rw [capitalizeFirst] at h
        rcases List.mem_append.mp h with h | h
        · exact eq_of_mem_upperChar ha h ▸ List.mem_cons_self
        · exact List.mem_cons_of_mem c h
    by_contra hn
    refine not_mem_joinWith (by simpa using hspace) (fun w hw hmem => ?_) hjoined
    obtain ⟨v, hv, rfl⟩ := List.mem_map.mp hw
    obtain ⟨c, hc, heq⟩ := List.mem_map.mp (words_subset hv (mem_of_mem_lower ha hmem))
    split at heq
    · exact hspace heq.symm
    · exact hn (mem_of_mem_spaceCapitals hspace (heq ▸ hc))

/-- A small letter is a letter of ASCII, and its small form is itself. -/
theorem isLower_spec {c : Char} (h : c.isLower = true) :
    c.toNat < 128 ∧ isBlank c = false ∧ c ≠ '_' ∧ c.toLower = c := by
  have hsmall : c.toNat < 128 := by
    have hrange : (decide (97 ≤ c.val) && decide (c.val ≤ 122)) = true := h
    rw [Bool.and_eq_true, decide_eq_true_eq, decide_eq_true_eq] at hrange
    exact Nat.lt_of_le_of_lt hrange.2 (by decide)
  have hletters : ∀ n < 128, (Char.ofNat n).isLower = true → isBlank (Char.ofNat n) = false ∧
      Char.ofNat n ≠ '_' ∧ (Char.ofNat n).toLower = Char.ofNat n := by decide
  have hc := hletters c.toNat hsmall
  rw [Char.ofNat_toNat] at hc
  exact ⟨hsmall, hc h⟩

/-- Where a name begins with a small letter, its words begin with the capital. -/
theorem humanize_letter {s : Text} (hs : s.all isBlank = true) {c : Char} (hc : c.isLower = true)
    (r : Text) : ∃ r', humanize (s ++ c :: r) = c.toUpper :: r' := by
  obtain ⟨hsmall, hvisible, hscore, hlower⟩ := isLower_spec hc
  obtain ⟨r₁, hspaced⟩ := exists_spaceCapitals hs c r
  have hblanks : (s.map fun b => if b == '_' then ' ' else b).all isBlank = true := by
    rw [List.all_map, List.all_eq_true]
    intro b hb
    show isBlank (if b == '_' then ' ' else b) = true
    split
    · rfl
    · exact List.all_eq_true.mp hs b hb
  obtain ⟨w, ws, hwords⟩ :=
    exists_words_cons hvisible (r₁.map fun b => if b == '_' then ' ' else b)
  -- w) = :: The first letter stays small until it gets its capital form.
  have hfirst : lower (c :: w) = c :: lowerAfter [c] w := by
    have hsigma : (c == 'Σ') = false := beq_false_of_ne (by rintro rfl; cases hc)
    have hdotted : (c == 'İ') = false := beq_false_of_ne (by rintro rfl; cases hc)
    rw [lower, lowerAfter, hsigma, hdotted, if_neg Bool.false_ne_true, if_neg Bool.false_ne_true,
      lowerChar, if_pos hsmall, hlower]
  obtain ⟨r₂, hjoined⟩ : ∃ r₂, joinWith " " (lower (c :: w) :: ws.map lower) = c :: r₂ := by
    rw [hfirst]
    cases ws with
    | nil => exact ⟨_, joinWith_singleton _ _⟩
    | cons v ws => exact ⟨_, joinWith_cons_cons _ _ _ _⟩
  refine ⟨r₂, ?_⟩
  rw [humanize, hspaced, List.map_append, words_blanks_append hblanks, List.map_cons,
    beq_false_of_ne hscore, if_neg Bool.false_ne_true, hwords, List.isEmpty_cons,
    if_neg Bool.false_ne_true, List.map_cons, hjoined, capitalizeFirst, upperChar, if_pos hsmall]
  rfl

end CodeTidy
