import CodeTidy.Proofs.Constant.Restore
import CodeTidy.Proofs.Text.LineStarts

/-!
# `CodeTidy.Proofs.Constant.Renamed`: a text with names in the places of numbers

`Replaced` says that one text is another one in which some parts have got others
put in for them, whatever the reason for which each of them was chosen. A character
that no part has, old or new, stands in both texts, and what is on either side of it
has its own parts replaced. `Renamed` is the case of numbers and their names. A
number consists of digits, and a name of capital letters, underscores and digits, so
white space, quotes and the like stay where they are. The theorems:

* `Replaced.cut`, `Replaced.forall₂_lines`: both texts cut at such a character, and
  line by line.
* `renamed_substitute`: a substitution renames.
* `Renamed.cut_left`, `Renamed.cut_right`, `Renamed.text_left`, `Renamed.stretch`: what
  stays as it is, seen from the old text and from the new one.
-/

set_option autoImplicit false

namespace CodeTidy.Constant

open Pattern Text

/-! ### Parts of a text -/

/-- The second text is the first one with other parts put in for some of its parts. -/
inductive Replaced (R : Text → Text → Prop) : Text → Text → Prop
  | nil : Replaced R [] []
  | keep {t u : Text} (c : Char) (h : Replaced R t u) : Replaced R (c :: t) (c :: u)
  | part {x y t u : Text} (hpart : R x y) (h : Replaced R t u) : Replaced R (x ++ t) (y ++ u)

section

variable {R : Text → Text → Prop} {t u v w : Text}

/-- The same front keeps two texts related. -/
theorem Replaced.append_left (w : Text) (h : Replaced R t u) : Replaced R (w ++ t) (w ++ u) := by
  induction w with
  | nil => exact h
  | cons c w ih => exact .keep c ih

/-- The replacement may be read the other way round. -/
theorem Replaced.symm (h : Replaced R t u) : Replaced (fun x y => R y x) u t := by
  induction h with
  | nil => exact .nil
  | keep c _ ih => exact .keep c ih
  | part hpart _ ih => exact .part hpart ih

/-- If no part is empty on either side, both texts are empty or neither is. -/
theorem Replaced.eq_nil_iff (hR : ∀ x y, R x y → x ≠ [] ∧ y ≠ []) (h : Replaced R t u) :
    t = [] ↔ u = [] := by
  cases h with
  | nil => exact Iff.rfl
  | keep c h => exact iff_of_false (List.cons_ne_nil _ _) (List.cons_ne_nil _ _)
  | part hpart h =>
    obtain ⟨hold, hnew⟩ := hR _ _ hpart
    exact iff_of_false (List.append_ne_nil_of_left_ne_nil hold _)
      (List.append_ne_nil_of_left_ne_nil hnew _)

/-- A character that no replaced part has stands in both texts. -/
theorem Replaced.cut {c : Char} (hc : ∀ x y, R x y → c ∉ x) (h : Replaced R (t ++ c :: v) u) :
    ∃ t' v', u = t' ++ c :: v' ∧ Replaced R t t' ∧ Replaced R v v' := by
  generalize hs : t ++ c :: v = s at h
  induction h generalizing t with
  | nil => exact absurd hs (List.append_ne_nil_of_right_ne_nil t (List.cons_ne_nil c v))
  | @keep s u d h ih =>
    cases t with
    | nil =>
      obtain ⟨rfl, rfl⟩ := List.cons.inj hs
      exact ⟨[], u, rfl, .nil, h⟩
    | cons d' t =>
      rw [List.cons_append, List.cons.injEq] at hs
      obtain ⟨rfl, hs⟩ := hs
      obtain ⟨t', v', rfl, ht, hv⟩ := ih hs
      exact ⟨d' :: t', v', rfl, .keep d' ht, hv⟩
  | @part x y s u hpart h ih =>
    -- The part ends in front of the character.
    obtain ⟨z, hz, hrest⟩ := exists_of_append_eq (hc x y hpart) hs.symm
    obtain ⟨t', v', rfl, ht, hv⟩ := ih hrest.symm
    exact ⟨y ++ t', v', by rw [List.append_assoc], hz ▸ .part hpart ht, hv⟩

/-- What a text begins with stays, up to the first character that a replaced part has. -/
theorem Replaced.text (hR : ∀ x y, R x y → x ≠ [] ∧ y ≠ [])
    (hw : ∀ c ∈ w, ∀ x y, R x y → c ∉ x) (h : Replaced R (w ++ t) u) :
    ∃ t', u = w ++ t' ∧ Replaced R t t' := by
  induction w generalizing u with
  | nil => exact ⟨u, rfl, h⟩
  | cons c w ih =>
    rw [List.forall_mem_cons] at hw
    obtain ⟨front, u', rfl, hfront, hrest⟩ := Replaced.cut (t := []) hw.1 h
    rw [(hfront.eq_nil_iff hR).mp rfl]
    obtain ⟨t', rfl, ht⟩ := ih hw.2 hrest
    exact ⟨t', rfl, ht⟩

/-- If no part runs over the end of a line, the lines have their parts replaced one by one. -/
theorem Replaced.forall₂_lines (hR : ∀ x y, R x y → '\n' ∉ x ∧ '\n' ∉ y)
    (h : Replaced R t u) : List.Forall₂ (Replaced R) (lines t) (lines u) := by
  induction h with
  | nil => exact .cons .nil .nil
  | @keep t u c h ih =>
    obtain ⟨l, ls, hl⟩ := List.exists_cons_of_ne_nil (lines_ne_nil t)
    obtain ⟨l', ls', hl'⟩ := List.exists_cons_of_ne_nil (lines_ne_nil u)
    rw [lines_cons, lines_cons]
    split
    · exact .cons .nil ih
    · rw [hl, hl', List.forall₂_cons] at ih
      rw [hl, hl']
      exact .cons (.keep c ih.1) ih.2
  -- Both parts go to the front of the first of the lines behind them.
  | @part x y t u hpart h ih =>
    obtain ⟨hold, hnew⟩ := hR x y hpart
    obtain ⟨l, ls, hl⟩ := List.exists_cons_of_ne_nil (lines_ne_nil t)
    obtain ⟨l', ls', hl'⟩ := List.exists_cons_of_ne_nil (lines_ne_nil u)
    rw [hl, hl', List.forall₂_cons] at ih
    rw [lines_append_of_not_mem hold hl, lines_append_of_not_mem hnew hl']
    exact .cons (.part hpart ih.1) ih.2

end

/-! ### Numbers and their names -/

/-- The second text is the first one with some of the numbers replaced by their names. -/
def Renamed (ns : List Text) : Text → Text → Prop := Replaced fun n m => n ∈ ns ∧ m = name n

section

variable {ns : List Text} {t u v w : Text}

/-- A text is itself with no number replaced. -/
theorem Renamed.refl (ns : List Text) (t : Text) : Renamed ns t t := by
  have h : Renamed ns (t ++ []) (t ++ []) := Replaced.append_left t .nil
  rwa [List.append_nil] at h

/-- A replacement that leaves each number or puts its name writes a renamed text. -/
theorem renamed_of_writes {f : Match → Text}
    (hf : ∀ m, f m = m.text ∨ f m = name m.text ∧ m.text ∈ ns) {c : Cursor} {out : Text}
    (h : Writes number f c out) : Renamed ns c.after out := by
  induction h with
  | stop hend =>
    rw [hend]
    exact .nil
  | @pass c c' a out hread _ _ ih =>
    have hafter : c.after = a :: c'.after := hread.after_eq
    rw [hafter]
    exact .keep a ih
  | @hit c m out rest hmatch _ hout ih =>
    obtain ⟨-, -, hreads, -⟩ := spec_of_matchAt? hmatch
    rw [hreads.after_eq, hout]
    rcases hf m with hsame | ⟨hname, hmem⟩
    · rw [hsame]
      exact Replaced.append_left m.text ih
    · rw [hname]
      exact .part ⟨hmem, rfl⟩ ih

/-- To name numbers outside of literals gives a renamed text. -/
theorem renamed_substitute (g : LiteralGrammar) (ns : List Text) (t : Text) :
    Renamed ns t (substitute g ns t) := by
  refine renamed_of_writes (fun m => ?_) (writes_replace isSolid_number _ t)
  split
  · exact .inl rfl
  · dsimp only
    split
    · next hmem => exact .inr ⟨rfl, List.elem_iff.mp hmem⟩
    · exact .inl rfl

/-- A name is made of word characters. -/
theorem isWord_of_mem_name {n : Text} (hn : IsNumber n) {c : Char} (hc : c ∈ name n) :
    isWord c = true :=
  isWord_of_isNameChar (isNameChar_of_mem_name hn.all_isDecimal hc)

variable (hns : ∀ n ∈ ns, IsNumber n)

include hns

/-- Neither a number nor its name is empty. -/
theorem ne_nil_of_named : ∀ n m, n ∈ ns ∧ m = name n → n ≠ [] ∧ m ≠ [] := by
  rintro n m ⟨hn, rfl⟩
  exact ⟨(hns n hn).ne_nil, name_ne_nil n⟩

/-- A number holds decimal digits only. -/
theorem not_mem_of_isDecimal {c : Char} (hc : isDecimal c = false) :
    ∀ n m, n ∈ ns ∧ m = name n → c ∉ n := by
  rintro n m ⟨hn, -⟩ hmem
  rw [List.all_eq_true.mp (hns n hn).all_isDecimal c hmem] at hc
  cases hc

/-- A name holds word characters only. -/
theorem not_mem_of_isWord {c : Char} (hc : isWord c = false) :
    ∀ m n, n ∈ ns ∧ m = name n → c ∉ m := by
  rintro m n ⟨hn, rfl⟩ hmem
  rw [isWord_of_mem_name (hns n hn) hmem] at hc
  cases hc

/-- A renamed text is empty exactly if the text is. -/
theorem Renamed.eq_nil_iff (h : Renamed ns t u) : t = [] ↔ u = [] :=
  Replaced.eq_nil_iff (ne_nil_of_named hns) h

/-- A character of the old text that is no digit stands in the new one. -/
theorem Renamed.cut_left {c : Char} (hc : isDecimal c = false) (h : Renamed ns (t ++ c :: v) u) :
    ∃ t' v', u = t' ++ c :: v' ∧ Renamed ns t t' ∧ Renamed ns v v' :=
  Replaced.cut (not_mem_of_isDecimal hns hc) h

/-- A character of the new text that no name has stands in the old one. -/
theorem Renamed.cut_right {c : Char} (hc : isWord c = false) (h : Renamed ns t (u ++ c :: v)) :
    ∃ u' v', t = u' ++ c :: v' ∧ Renamed ns u' u ∧ Renamed ns v' v := by
  obtain ⟨u', v', rfl, hu, hv⟩ := Replaced.cut (not_mem_of_isWord hns hc) h.symm
  exact ⟨u', v', rfl, hu.symm, hv.symm⟩

/-- What the old text begins with stays, up to the first digit. -/
theorem Renamed.text_left (hw : w.all (fun c => !isDecimal c) = true)
    (h : Renamed ns (w ++ t) u) : ∃ t', u = w ++ t' ∧ Renamed ns t t' := by
  refine Replaced.text (ne_nil_of_named hns) (fun c hc => ?_) h
  have hdigitless := List.all_eq_true.mp hw c hc
  rw [Bool.not_eq_true'] at hdigitless
  exact not_mem_of_isDecimal hns hdigitless

/-- What the new text begins with was there, up to the first character of a word. -/
theorem Renamed.text_right (hw : w.all (fun c => !isWord c) = true)
    (h : Renamed ns t (w ++ u)) : ∃ u', t = w ++ u' ∧ Renamed ns u' u := by
  have hne := fun m n hpart => (ne_nil_of_named hns n m hpart).symm
  have hwordless : ∀ c ∈ w, ∀ m n, n ∈ ns ∧ m = name n → c ∉ m := by
    intro c hc
    have hplain := List.all_eq_true.mp hw c hc
    rw [Bool.not_eq_true'] at hplain
    exact not_mem_of_isWord hns hplain
  obtain ⟨u', rfl, hu⟩ := Replaced.text hne hwordless h.symm
  exact ⟨u', rfl, hu.symm⟩

/-- A stretch of the new text that has no character of a word is one of the old text. -/
theorem Renamed.stretch (hne : w ≠ []) (hw : w.all (fun c => !isWord c) = true)
    (h : Renamed ns t (u ++ (w ++ v))) :
    ∃ u' v', t = u' ++ (w ++ v') ∧ Renamed ns v' v := by
  obtain ⟨c, w, rfl⟩ := List.exists_cons_of_ne_nil hne
  rw [List.all_cons, Bool.and_eq_true, Bool.not_eq_true'] at hw
  obtain ⟨u', rest, rfl, -, hrest⟩ := h.cut_right hns hw.1
  obtain ⟨v', rfl, hv⟩ := hrest.text_right hns hw.2
  exact ⟨u', v', rfl, hv⟩

/-- A text without digits stays as it is. -/
theorem Renamed.eq_of_digitless (hw : w.all (fun c => !isDecimal c) = true)
    (h : Renamed ns w u) : u = w := by
  rw [← List.append_nil w] at h
  obtain ⟨t', rfl, ht⟩ := h.text_left hns hw
  rw [(ht.eq_nil_iff hns).mp rfl, List.append_nil]

/-- What holds of all characters of the old text and of those of a word holds of the new one. -/
theorem Renamed.all {p : Char → Bool} (hp : ∀ c, isWord c = true → p c = true)
    (ht : t.all p = true) (h : Renamed ns t u) : u.all p = true := by
  induction h with
  | nil => rfl
  | keep c h ih =>
    rw [List.all_cons, Bool.and_eq_true] at ht ⊢
    exact ⟨ht.1, ih ht.2⟩
  | @part n m t u hpart h ih =>
    obtain ⟨hn, rfl⟩ := hpart
    rw [List.all_append, Bool.and_eq_true] at ht ⊢
    exact ⟨List.all_eq_true.mpr fun c hc => hp c (isWord_of_mem_name (hns n hn) hc), ih ht.2⟩

/-- What begins with a character of a word still does so. -/
theorem Renamed.exists_cons {c : Char} (hc : isWord c = true) (h : Renamed ns (c :: t) u) :
    ∃ c' u', u = c' :: u' ∧ isWord c' = true := by
  generalize hs : c :: t = s at h
  cases h with
  | nil => cases hs
  | keep d h =>
    obtain ⟨rfl, -⟩ := List.cons.inj hs
    exact ⟨c, _, rfl, hc⟩
  | @part n m t u hpart h =>
    obtain ⟨hn, rfl⟩ := hpart
    obtain ⟨c', r, hname⟩ := List.exists_cons_of_ne_nil (name_ne_nil n)
    have hword : isWord c' = true :=
      isWord_of_mem_name (hns n hn) (by rw [hname]; exact List.mem_cons_self)
    exact ⟨c', r ++ u, by rw [hname]; rfl, hword⟩

/-- The lines are renamed one by one. -/
theorem Renamed.forall₂_lines (h : Renamed ns t u) :
    List.Forall₂ (Renamed ns) (lines t) (lines u) := by
  have hfeed : ∀ n m, n ∈ ns ∧ m = name n → '\n' ∉ n ∧ '\n' ∉ m := fun n m hpart =>
    ⟨not_mem_of_isDecimal hns (by decide) n m hpart, not_mem_of_isWord hns (by decide) m n hpart⟩
  exact Replaced.forall₂_lines hfeed h

end

end CodeTidy.Constant
