import CodeTidy.Proofs.JavaScript.Concatenation
import CodeTidy.Proofs.Pattern.Spells
import CodeTidy.Proofs.Text.Lines

/-!
# `CodeTidy.Proofs.JavaScript.Operand`: finding operands in the text of a sum

The rules look for operands by their quotes and by the plus signs around them, at any
place of the text. This file says where that leads in the text of a sum, from a
place in or in front of one of its operands. The theorems:

* `opens_of_delimited`: quotes with a plus sign behind them are those of one operand.
* `exists_of_plus`: a quote behind a plus sign opens an operand.
* `name_of_spells`: what the pattern for operands finds in front of a plus sign and a
  quote is one name.
* `eq_of_spells`: and so is what it finds behind a plus sign.
-/

set_option autoImplicit false

namespace CodeTidy.JavaScript

open Pattern Text

/-! ### Plus signs -/

section Plus

variable {s r : Text} {a : Char}

/-- White space in front of a plus sign does not hide it. -/
theorem beginsWithPlus_blank {b : Text} (hb : b.all isBlank = true) (r : Text) :
    beginsWithPlus (b ++ '+' :: r) = true := by
  rw [beginsWithPlus, List.dropWhile_append_of_pos (List.all_eq_true.mp hb)]
  rfl

/-- Whether a text begins with a plus sign is known at its first character that can be seen. -/
theorem beginsWithPlus_cons (ha : isBlank a = false) (s r : Text) :
    beginsWithPlus (s ++ a :: r) = beginsWithPlus (s ++ [a]) := by
  induction s with
  | nil => simp [beginsWithPlus, ha]
  | cons b s ih =>
    cases hb : isBlank b with
    | false => simp [beginsWithPlus, hb]
    | true => simpa [beginsWithPlus, hb] using ih

/-- A text that begins with a plus sign does so whatever comes behind. -/
theorem beginsWithPlus_of_append (h : beginsWithPlus s = true) (r : Text) :
    beginsWithPlus (s ++ r) = true := by
  induction s with
  | nil => cases h
  | cons b s ih =>
    cases hb : isBlank b with
    | false => simpa [beginsWithPlus, hb] using h
    | true =>
      have hs : beginsWithPlus s = true := by simpa [beginsWithPlus, hb] using h
      simpa [beginsWithPlus, hb] using ih hs

end Plus

/-! ### Quotes -/

/-- A quote, or the mark around a template. -/
def isDelimiter : CharSet := CharSet.of "'\"`"

/-- The three delimiters. -/
theorem isDelimiter_iff {d : Char} : isDelimiter d = true ↔ d = '\'' ∨ d = '"' ∨ d = '\x60' := by
  simp [isDelimiter, CharSet.of]

/-- A delimiter is visible, and neither a plus sign nor a part of a name. -/
theorem isDelimiter_spec {d : Char} (h : isDelimiter d = true) :
    isBlank d = false ∧ d ≠ '+' ∧ isNamePart d = false := by
  rcases isDelimiter_iff.mp h with rfl | rfl | rfl <;> exact ⟨rfl, by decide, rfl⟩

/-- An operand that is no name stands between delimiters, and none stands in it. -/
theorem exists_enclosed {o : Operand} (ho : o.isWell = true) (hv : o.isVariable = false) :
    ∃ q s, o.text = q :: (s ++ [q]) ∧ isDelimiter q = true ∧
      (∀ d, isDelimiter d = true → d ∉ s) ∧ isQuiet s = true := by
  cases o with
  | name n => cases hv
  | str q s =>
    simp only [Operand.isWell, Bool.and_eq_true] at ho
    obtain ⟨⟨hq, hs⟩, hquiet⟩ := ho
    have hquote : q = '\'' ∨ q = '"' := by simpa [CharSet.of] using hq
    refine ⟨q, s, rfl, ?_, fun d hd => ?_, hquiet⟩
    · rcases hquote with rfl | rfl <;> rfl
    · rcases isDelimiter_iff.mp hd with rfl | rfl | rfl <;>
        exact not_mem_of_all hs (by decide)
  | template ps =>
    simp only [Operand.isWell, Bool.and_eq_true] at ho
    refine ⟨'\x60', _, rfl, rfl, fun d hd => ?_, ho.2⟩
    rcases isDelimiter_iff.mp hd with rfl | rfl | rfl <;>
      exact not_mem_of_all (all_of_isWell ho.1) (by decide)

section Sums

variable {o : Operand} {ts : List Term} {u w s r : Text} {d : Char}

/-- A name holds no delimiter. -/
theorem not_mem_of_isVariable (ho : o.isWell = true) (hv : o.isVariable = true)
    (hd : isDelimiter d = true) : d ∉ o.text := by
  cases o with
  | name n => exact not_mem_of_all (all_isNamePart_of_isName ho) (isDelimiter_spec hd).2.2
  | str q s => cases hv
  | template ps => cases hv

/-- Between two operands stands no delimiter. -/
theorem not_mem_gap {t : Term} (ht : t.isWell = true) (hd : isDelimiter d = true) :
    d ∉ t.gap := by
  obtain ⟨-, b, b', hb, hb', hgap⟩ := exists_of_isWell ht
  obtain ⟨hblank, hplus, -⟩ := isDelimiter_spec hd
  rw [hgap, List.mem_append, List.mem_cons, not_or, not_or]
  exact ⟨not_mem_of_all hb hblank, hplus, not_mem_of_all hb' hblank⟩

/-- What follows the first delimiter of its kind does not begin with a plus sign, as that delimiter
opens an operand. -/
theorem beginsWithPlus_behind (hts : ts.all Term.isWell = true) (hd : isDelimiter d = true)
    (hs : d ∉ s) (h : textOf ts = s ++ d :: r) : beginsWithPlus r = false := by
  induction ts generalizing s with
  | nil => simp [textOf] at h
  | cons t ts ih =>
    rw [List.all_cons, Bool.and_eq_true] at hts
    obtain ⟨ht, hts⟩ := hts
    have ho := (exists_of_isWell ht).1
    rw [textOf, List.flatMap_cons, ← textOf, List.append_assoc] at h
    obtain ⟨s₁, rfl, h₁⟩ := exists_of_append_eq (not_mem_gap ht hd) h
    rw [List.mem_append, not_or] at hs
    -- A name holds no delimiter, so it is passed.
    cases hv : t.operand.isVariable with
    | true =>
      obtain ⟨s₂, rfl, h₂⟩ := exists_of_append_eq (not_mem_of_isVariable ho hv hd) h₁
      rw [List.mem_append, not_or] at hs
      exact ih hts hs.2.2 h₂
    | false =>
      obtain ⟨q, body, htext, hq, hbody, hquiet⟩ := exists_enclosed ho hv
      obtain ⟨hblank, hplus, -⟩ := isDelimiter_spec hq
      rw [htext, List.cons_append, List.append_assoc, List.singleton_append] at h₁
      -- The delimiter opens this operand, which is quiet, or this operand is passed. It does not
      -- close it, as it would have come before.
      cases s₁ with
      | nil =>
        obtain ⟨rfl, rfl⟩ := List.cons.inj h₁
        simp only [isQuiet, Bool.and_eq_true, Bool.not_eq_true'] at hquiet
        refine beginsWithPlus_append hquiet.1 ?_
        simpa [beginsWithPlus, hblank] using hplus
      | cons a s₁ =>
        obtain ⟨rfl, h₂⟩ := List.cons.inj h₁
        obtain ⟨s₂, rfl, h₃⟩ := exists_of_append_eq (hbody d hd) h₂
        cases s₂ with
        | nil =>
          obtain ⟨rfl, -⟩ := List.cons.inj h₃
          simp at hs
        | cons a s₂ =>
          obtain ⟨rfl, h₄⟩ := List.cons.inj h₃
          exact ih hts (fun hmem => hs.2 (by simp [hmem])) h₄

/-- Delimiters around a text are those of the operand that begins there. -/
theorem eq_of_delimited {z : Text} (ho : o.isWell = true) (hd : isDelimiter d = true) (hs : d ∉ s)
    (h : o.text ++ z = d :: (s ++ d :: r)) : o.text = d :: (s ++ [d]) ∧ z = r := by
  -- A name begins with no delimiter.
  cases hv : o.isVariable with
  | true =>
    obtain ⟨x, hx, -⟩ := exists_of_append_eq (not_mem_of_isVariable ho hv hd) (h.trans (by rfl) :
      o.text ++ z = [] ++ d :: (s ++ d :: r))
    obtain ⟨a, r', htext, -, -⟩ := exists_cons_of_isWell ho
    rw [htext] at hx
    simp at hx
  | false =>
    obtain ⟨q, body, htext, hq, hbody, -⟩ := exists_enclosed ho hv
    rw [htext, List.cons_append, List.append_assoc, List.singleton_append] at h
    obtain ⟨rfl, hrest⟩ := List.cons.inj h
    have hpass : ∀ x : Text, q ∉ x → x.all (fun a => a != q) = true := by
      intro x hx
      refine List.all_eq_true.mpr fun a ha => ?_
      rw [bne_iff_ne]
      rintro rfl
      exact hx ha
    obtain ⟨rfl, -, rfl⟩ := eq_of_first (hpass body (hbody q hq)) (hpass s hs) (by simp)
      (by simp) hrest
    exact ⟨htext, rfl⟩

/-- Delimiters with a plus sign behind them are those of one operand. -/
theorem opens_of_delimited (ho : o.isWell = true) (hts : ts.all Term.isWell = true)
    (htext : o.text = u ++ w) (hw : w ≠ []) (hd : isDelimiter d = true) (hs : d ∉ s)
    (hr : beginsWithPlus r = true) (h : w ++ textOf ts = d :: (s ++ d :: r)) :
    u = [] ∧ o.text = d :: (s ++ [d]) ∧ textOf ts = r := by
  obtain ⟨a, w, rfl⟩ := List.exists_cons_of_ne_nil hw
  rw [List.cons_append] at h
  obtain ⟨rfl, hrest⟩ := List.cons.inj h
  cases hv : o.isVariable with
  | true =>
    refine absurd ?_ (not_mem_of_isVariable ho hv hd)
    rw [htext]
    simp
  | false =>
    obtain ⟨q, body, hbodytext, hq, hbody, -⟩ := exists_enclosed ho hv
    cases u with
    | nil => exact ⟨rfl, eq_of_delimited ho hd hs (by rw [htext]; exact h)⟩
    | cons b u =>
      -- The delimiter would close the operand, and the next one opens another operand.
      rw [hbodytext, List.cons_append] at htext
      obtain ⟨-, hclose⟩ := List.cons.inj htext
      obtain ⟨u', rfl, hlast⟩ := exists_of_append_eq (hbody a hd) hclose
      have hwnil : w = [] := by
        have hlength := congrArg List.length hlast
        simp only [List.length_append, List.length_cons, List.length_nil] at hlength
        exact List.eq_nil_of_length_eq_zero (by omega)
      rw [hwnil, List.nil_append] at hrest
      rw [beginsWithPlus_behind hts hd hs hrest] at hr
      cases hr

/-- The delimiters of an operand are not preceded by a plus sign in it. -/
theorem exists_of_reverse {x : Text} (ho : o.isWell = true) (htext : o.text = u ++ w)
    (hd : isDelimiter d = true) (hx : beginsWithPlus x.reverse = true) {z : Text}
    (h : w ++ z = x ++ d :: r) : ∃ x', x = w ++ x' ∧ z = x' ++ d :: r := by
  rcases append_eq_append_cons h with ⟨w', rfl, -⟩ | hbehind
  · exfalso
    cases hv : o.isVariable with
    | true =>
      refine not_mem_of_isVariable ho hv hd ?_
      rw [htext]
      simp
    | false =>
      obtain ⟨q, body, hbodytext, hq, hbody, hquiet⟩ := exists_enclosed ho hv
      obtain ⟨hblank, hplus, -⟩ := isDelimiter_spec hq
      rw [hbodytext, ← List.append_assoc] at htext
      cases hux : u ++ x with
      | nil =>
        rw [List.append_eq_nil_iff] at hux
        rw [hux.2] at hx
        cases hx
      | cons b y =>
        rw [hux, List.cons_append] at htext
        obtain ⟨rfl, hclose⟩ := List.cons.inj htext
        obtain ⟨y', rfl, hlast⟩ := exists_of_append_eq (hbody d hd) hclose
        have hynil : y' = [] := by
          have hlength := congrArg List.length hlast
          simp only [List.length_append, List.length_cons, List.length_nil] at hlength
          exact List.eq_nil_of_length_eq_zero (by omega)
        -- What stands in front of the closing delimiter is quiet.
        have hreverse : x.reverse ++ u.reverse = body.reverse ++ [q] := by
          rw [← List.reverse_append, hux, hynil]
          simp
        simp only [isQuiet, Bool.and_eq_true, Bool.not_eq_true'] at hquiet
        have hbegins := beginsWithPlus_of_append hx u.reverse
        rw [hreverse,
          beginsWithPlus_append hquiet.2 (by simpa [beginsWithPlus, hblank] using hplus)]
          at hbegins
        cases hbegins
  · exact hbehind

/-- A delimiter behind a plus sign opens an operand. -/
theorem exists_of_plus {x : Text} (ho : o.isWell = true) (hts : ts.all Term.isWell = true)
    (htext : o.text = u ++ w) (hd : isDelimiter d = true) (hx : beginsWithPlus x.reverse = true)
    (h : w ++ textOf ts = x ++ d :: r) :
    ∃ ts₁ t ts₂, ts = ts₁ ++ t :: ts₂ ∧ x = w ++ (textOf ts₁ ++ t.gap) := by
  induction ts generalizing o u w x with
  | nil =>
    obtain ⟨x', -, hnil⟩ := exists_of_reverse ho htext hd hx h
    simp [textOf] at hnil
  | cons t ts ih =>
    obtain ⟨x₁, rfl, h₁⟩ := exists_of_reverse ho htext hd hx h
    rw [List.all_cons, Bool.and_eq_true] at hts
    obtain ⟨ht, hts⟩ := hts
    have ho' := (exists_of_isWell ht).1
    rw [textOf, List.flatMap_cons, ← textOf, List.append_assoc] at h₁
    obtain ⟨x₂, rfl, h₂⟩ := exists_of_append_eq (not_mem_gap ht hd) h₁
    cases x₂ with
    | nil => exact ⟨[], t, ts, rfl, by simp [textOf]⟩
    | cons a x₂ =>
      obtain ⟨a', w', htext', hblank, -⟩ := exists_cons_of_isWell ho'
      have haa : a' = a := by
        rw [htext'] at h₂
        exact (List.cons.inj h₂).1
      subst haa
      -- The plus sign stands behind the first character of this operand.
      have hx' : beginsWithPlus (a' :: x₂).reverse = true := by
        have hreverse : (w ++ (t.gap ++ a' :: x₂)).reverse =
            x₂.reverse ++ a' :: (t.gap.reverse ++ w.reverse) := by simp
        rw [hreverse, beginsWithPlus_cons hblank] at hx
        rwa [List.reverse_cons]
      obtain ⟨ts₁, t', ts₂, rfl, hsplit⟩ := ih ho' hts (u := []) (w := t.operand.text) rfl hx' h₂
      refine ⟨t :: ts₁, t', ts₂, rfl, ?_⟩
      rw [hsplit]
      simp [textOf]

end Sums

/-! ### What the pattern for operands finds -/

section Spelled

variable {e e' : Groups} {x y n r z : Text}

/-- The pattern for names spells names. -/
theorem spells_name : Spells name e x e' ↔ isName x = true ∧ e' = e := by
  rw [name, spells_one_then]
  constructor
  · rintro ⟨a, ha, w, rfl, hw, -, rfl⟩
    exact ⟨by rw [isName, ha, hw, Bool.and_self], rfl⟩
  · rintro ⟨hx, rfl⟩
    obtain ⟨a, w, rfl, ha, hw⟩ := exists_cons_of_isName hx
    exact ⟨a, ha, w, rfl, hw, Nat.zero_le _, rfl⟩

/-- One round of what may come behind the first name of an operand. -/
def accessor : Pattern :=
  oneOf [
    seq [".", name],
    seq ["[", many (CharSet.except "[]\n"), "]"],
    seq ["(", many (CharSet.except "()\n"), ")"]]

/-- An operand is a name with accessors behind it. -/
theorem spells_operand : Spells operand e x e' ↔
    ∃ n e₁, Spells name e n e₁ ∧ ∃ z, n ++ z = x ∧ Repeats (Spells accessor) e₁ z e' := Iff.rfl

/-- A member access, an indexing or a call. -/
theorem spells_accessor (h : Spells accessor e x e') :
    (∃ a y, x = a :: y ∧ CharSet.of ".[(" a = true) ∧
      ((∃ n, isName n = true ∧ x = '.' :: n) ∨ ∃ y a, CharSet.of "])" a = true ∧ x = y ++ [a]) := by
  rcases h with h | h | h
  · obtain ⟨n, rfl, hn⟩ := spells_text_then.mp h
    exact ⟨⟨'.', n, rfl, rfl⟩, .inl ⟨n, (spells_name.mp hn).1, rfl⟩⟩
  · obtain ⟨y, rfl, hy⟩ := spells_text_then.mp h
    obtain ⟨s, -, -, w, rfl, hw⟩ := spells_run_then.mp hy
    obtain ⟨rfl, -⟩ := spells_text.mp hw
    exact ⟨⟨'[', _, rfl, rfl⟩, .inr ⟨'[' :: s, ']', rfl, rfl⟩⟩
  · obtain ⟨y, rfl, hy⟩ := spells_text_then.mp h
    obtain ⟨s, -, -, w, rfl, hw⟩ := spells_run_then.mp hy
    obtain ⟨rfl, -⟩ := spells_text.mp hw
    exact ⟨⟨'(', _, rfl, rfl⟩, .inr ⟨'(' :: s, ')', rfl, rfl⟩⟩

/-- How what comes behind the first name of an operand begins and ends. -/
theorem repeats_accessor (h : Repeats (Spells accessor) e x e') :
    x = [] ∨ (∃ a y, x = a :: y ∧ CharSet.of ".[(" a = true) ∧
      ((∃ y n, isName n = true ∧ x = y ++ '.' :: n) ∨
        ∃ y a, CharSet.of "])" a = true ∧ x = y ++ [a]) := by
  induction h with
  | none => exact .inl rfl
  | more round rest ih =>
    right
    obtain ⟨⟨a, y, rfl, ha⟩, hend⟩ := spells_accessor round
    refine ⟨⟨a, _, rfl, ha⟩, ?_⟩
    rcases ih with rfl | ⟨-, ⟨y', n, hn, rfl⟩ | ⟨y', a', ha', rfl⟩⟩
    · rw [List.append_nil]
      rcases hend with ⟨n, hn, hx⟩ | hend
      · exact .inl ⟨[], n, hn, hx⟩
      · exact .inr hend
    · exact .inl ⟨a :: y ++ y', n, hn, by simp⟩
    · exact .inr ⟨a :: y ++ y', a', ha', by simp⟩

/-- How an operand ends. -/
theorem spells_operand_end (h : Spells operand e x e') :
    isName x = true ∨ (∃ y n, isName n = true ∧ x = y ++ '.' :: n) ∨
      ∃ y a, CharSet.of "])" a = true ∧ x = y ++ [a] := by
  obtain ⟨n, e₁, hn, z, rfl, hz⟩ := spells_operand.mp h
  rcases repeats_accessor hz with rfl | ⟨-, ⟨y, n', hn', rfl⟩ | ⟨y, a, ha, rfl⟩⟩
  · rw [List.append_nil]
    exact .inl (spells_name.mp hn).1
  · exact .inr (.inl ⟨n ++ y, n', hn', by simp⟩)
  · exact .inr (.inr ⟨n ++ y, a, ha, by simp⟩)

/-- The last character of a name. -/
theorem exists_concat_of_isName (h : isName n = true) :
    ∃ m a, n = m ++ [a] ∧ isNamePart a = true := by
  obtain ⟨b, w, rfl, -, -⟩ := exists_cons_of_isName h
  have hne : b :: w ≠ [] := List.cons_ne_nil b w
  exact ⟨_, _, (List.dropLast_concat_getLast hne).symm,
    List.all_eq_true.mp (all_isNamePart_of_isName h) _ (List.getLast_mem hne)⟩

/-- The last character of an operand is neither white space nor a quote. -/
theorem spells_operand_last (h : Spells operand e x e') :
    ∃ y a, x = y ++ [a] ∧ isBlank a = false ∧ isDelimiter a = false := by
  have hpart : ∀ a, isNamePart a = true → isBlank a = false ∧ isDelimiter a = false := by
    intro a ha
    refine ⟨isBlank_of_isNamePart ha, ?_⟩
    rw [Bool.eq_false_iff]
    intro hd
    rw [(isDelimiter_spec hd).2.2] at ha
    cases ha
  rcases spells_operand_end h with hx | ⟨y, n, hn, rfl⟩ | ⟨y, a, ha, rfl⟩
  · obtain ⟨m, a, rfl, ha⟩ := exists_concat_of_isName hx
    exact ⟨m, a, rfl, hpart a ha⟩
  · obtain ⟨m, a, rfl, ha⟩ := exists_concat_of_isName hn
    exact ⟨y ++ '.' :: m, a, by simp, hpart a ha⟩
  · have hclosing : a = ']' ∨ a = ')' := by simpa [CharSet.of] using ha
    exact ⟨y, a, rfl, by rcases hclosing with rfl | rfl <;> exact ⟨rfl, rfl⟩⟩

/-- In front of what no operand goes on with, a name is found as a whole. -/
theorem eq_of_spells (hn : isName n = true) (hy : Spells operand e y e') (h : y ++ r = n ++ z)
    (hz : z.head?.all (fun a => isBlank a || a == '+') = true)
    (hr : r.head?.all (fun a => !isNamePart a) = true) : y = n ∧ r = z := by
  obtain ⟨n', e₁, hn', x, rfl, hx⟩ := spells_operand.mp hy
  have hname := (spells_name.mp hn').1
  rw [List.append_assoc] at h
  -- A name is read up to what is no part of names.
  have hstop : ∀ t : Text, t.head?.all (fun a => !isNamePart a) = true → ∀ m : Text,
      isName m = true → (m ++ t).takeWhile isNamePart = m := by
    intro t ht m hm
    rw [List.takeWhile_append_of_pos (List.all_eq_true.mp (all_isNamePart_of_isName hm))]
    cases t with
    | nil => exact List.append_nil m
    | cons a t =>
      have ha : isNamePart a = false := by simpa using ht
      rw [List.takeWhile_cons_of_neg (by simp [ha]), List.append_nil]
  have hz' : z.head?.all (fun a => !isNamePart a) = true := by
    cases z with
    | nil => rfl
    | cons a z =>
      have ha := isNamePart_of_isGapPart (a := a) (by simpa using hz)
      simp [ha]
  have hbegin := repeats_accessor hx
  -- An accessor begins with a sign, and so it is no part of the name.
  have hx' : (x ++ r).head?.all (fun a => !isNamePart a) = true := by
    rcases hbegin with rfl | ⟨⟨a, x', rfl, ha⟩, -⟩
    · exact hr
    · have hopening : a = '.' ∨ a = '[' ∨ a = '(' := by simpa [CharSet.of] using ha
      rcases hopening with rfl | rfl | rfl <;> rfl
  have hnn : n' = n := by
    have htake := congrArg (List.takeWhile isNamePart) h
    rwa [hstop _ hx' _ hname, hstop _ hz' _ hn] at htake
  subst hnn
  have hrest := List.append_cancel_left h
  rcases hbegin with rfl | ⟨⟨a, x', rfl, ha⟩, -⟩
  · exact ⟨List.append_nil n', hrest⟩
  · -- No accessor follows, as that does not begin with white space or a plus sign.
    exfalso
    rw [← hrest] at hz
    have hopening : a = '.' ∨ a = '[' ∨ a = '(' := by simpa [CharSet.of] using ha
    rcases hopening with rfl | rfl | rfl <;> cases hz

end Spelled

/-! ### Operands in front of a plus sign and a quote -/

section InFront

variable {o : Operand} {ts : List Term} {u w x b b' r : Text} {d : Char} {e e' : Groups}

/-- The last character of an operand. -/
theorem exists_concat_of_isWell (ho : o.isWell = true) (htext : o.text = u ++ w) (hw : w ≠ []) :
    ∃ v a, w = v ++ [a] ∧ isBlank a = false ∧ (o.isVariable = false → isDelimiter a = true) := by
  have hsplit := List.dropLast_concat_getLast hw
  refine ⟨_, _, hsplit.symm, ?_⟩
  generalize w.getLast hw = a at hsplit
  rw [← hsplit, ← List.append_assoc] at htext
  -- A name ends with one of its parts, any other operand with its delimiter.
  cases hv : o.isVariable with
  | true =>
    cases o with
    | name n =>
      obtain ⟨m, a', rfl, ha'⟩ := exists_concat_of_isName ho
      obtain ⟨-, hlast⟩ := List.append_inj' htext rfl
      cases hlast
      exact ⟨isBlank_of_isNamePart ha', fun h => by cases h⟩
    | str q s => cases hv
    | template ps => cases hv
  | false =>
    obtain ⟨q, s, hqs, hq, -, -⟩ := exists_enclosed ho hv
    rw [hqs, ← List.cons_append] at htext
    obtain ⟨-, hlast⟩ := List.append_inj' htext rfl
    cases hlast
    exact ⟨(isDelimiter_spec hq).1, fun _ => hq⟩

/-- The last character of what stands between two operands is no part of a name. -/
theorem exists_concat_of_isGap {g : Text} (h : isGap g = true) :
    ∃ v a, g = v ++ [a] ∧ isNamePart a = false ∧ a ≠ '.' := by
  obtain ⟨b, b', -, hb', rfl⟩ := exists_of_isGap h
  cases hlast : b'.reverse with
  | nil =>
    rw [List.reverse_eq_nil_iff] at hlast
    exact ⟨b, '+', by rw [hlast], rfl, by decide⟩
  | cons a v =>
    have hsplit : b' = v.reverse ++ [a] := by
      rw [← List.reverse_reverse b', hlast, List.reverse_cons]
    have ha : isBlank a = true := List.all_eq_true.mp hb' a (by rw [hsplit]; simp)
    refine ⟨b ++ '+' :: v.reverse, a, by rw [hsplit]; simp, isNamePart_of_isBlank ha, ?_⟩
    rintro rfl
    cases ha

/-- What the pattern finds in front of a plus sign and a quote ends one operand of the sum. -/
theorem exists_of_spells (ho : o.isWell = true) (hts : ts.all Term.isWell = true)
    (htext : o.text = u ++ w) (hw : w ≠ []) (hx : Spells operand e x e')
    (hb : b.all isBlank = true) (hb' : b'.all isBlank = true) (hd : isDelimiter d = true)
    (h : w ++ textOf ts = x ++ (b ++ '+' :: (b' ++ d :: r))) :
    ∃ ts₁ t ts₂, ts = ts₁ ++ t :: ts₂ ∧ x = w ++ textOf ts₁ := by
  have hsplit : w ++ textOf ts = (x ++ (b ++ '+' :: b')) ++ d :: r := by simpa using h
  have hplus : beginsWithPlus (x ++ (b ++ '+' :: b')).reverse = true := by
    have hreverse : (x ++ (b ++ '+' :: b')).reverse =
        b'.reverse ++ '+' :: (b.reverse ++ x.reverse) := by simp
    rw [hreverse]
    exact beginsWithPlus_blank (by simpa using hb') _
  obtain ⟨ts₁, t, ts₂, rfl, hfront⟩ := exists_of_plus ho hts htext hd hplus hsplit
  refine ⟨ts₁, t, ts₂, rfl, ?_⟩
  rw [List.all_append, List.all_cons, Bool.and_eq_true, Bool.and_eq_true] at hts
  obtain ⟨hts₁, ht, -⟩ := hts
  obtain ⟨-, b₁, b₁', hb₁, hb₁', hgap⟩ := exists_of_isWell ht
  obtain ⟨hfront, -, -⟩ := eq_of_last (u := x ++ b) (w := w ++ (textOf ts₁ ++ b₁)) hb' hb₁' rfl rfl
    (by rw [hgap] at hfront; simpa using hfront)
  -- White space behind the two ends is cut off.
  obtain ⟨y, a, rfl, ha, -⟩ := spells_operand_last hx
  obtain ⟨v, a', hv, ha'⟩ : ∃ v a', w ++ textOf ts₁ = v ++ [a'] ∧ isBlank a' = false := by
    rcases List.eq_nil_or_concat ts₁ with rfl | ⟨ts', t', rfl⟩
    · obtain ⟨v, a', rfl, ha', -⟩ := exists_concat_of_isWell ho htext hw
      exact ⟨v, a', by simp [textOf], ha'⟩
    · rw [List.concat_eq_append, List.all_append, List.all_cons, Bool.and_eq_true,
        Bool.and_eq_true] at hts₁
      have ho' := (exists_of_isWell hts₁.2.1).1
      obtain ⟨c, s, hcs, -, -⟩ := exists_cons_of_isWell ho'
      obtain ⟨v, a', hv, ha', -⟩ := exists_concat_of_isWell ho' (u := []) (w := t'.operand.text) rfl
        (by rw [hcs]; exact List.cons_ne_nil c s)
      exact ⟨w ++ (textOf ts' ++ (t'.gap ++ v)), a', by simp [textOf, hv], ha'⟩
  rw [← List.append_assoc, hv] at hfront
  obtain ⟨rfl, rfl, -⟩ := eq_of_last (u := y) (w := v) hb hb₁ ha ha' (by simpa using hfront)
  exact hv.symm

/-- What the pattern for operands finds in front of a plus sign and a quote is one name, unless it
starts behind the first character of a name. -/
theorem name_of_spells (ho : o.isWell = true) (hts : ts.all Term.isWell = true)
    (htext : o.text = u ++ w) (hw : w ≠ []) (hu : o.isVariable = true → u = [])
    (hx : Spells operand e x e') (hb : b.all isBlank = true) (hb' : b'.all isBlank = true)
    (hd : isDelimiter d = true) (h : w ++ textOf ts = x ++ (b ++ '+' :: (b' ++ d :: r))) :
    u = [] ∧ o.isVariable = true ∧ o.text = x ∧ textOf ts = b ++ '+' :: (b' ++ d :: r) := by
  obtain ⟨ts₁, t, ts₂, rfl, hfront⟩ := exists_of_spells ho hts htext hw hx hb hb' hd h
  obtain ⟨y, a, hya, -, ha⟩ := spells_operand_last hx
  rcases List.eq_nil_or_concat ts₁ with rfl | ⟨ts', t', rfl⟩
  · obtain rfl : x = w := by simpa [textOf] using hfront
    have hv : o.isVariable = true := by
      rw [← Bool.not_eq_false]
      intro hv
      obtain ⟨v, a', hva, -, ha'⟩ := exists_concat_of_isWell ho htext hw
      obtain ⟨-, hlast⟩ := List.append_inj' (hya.symm.trans hva) rfl
      cases hlast
      rw [ha' hv] at ha
      cases ha
    obtain rfl := hu hv
    exact ⟨rfl, hv, htext, List.append_cancel_left h⟩
  · -- An operand that ends with a longer part of the sum would hold a plus sign in front of its
    -- last name.
    exfalso
    rw [List.concat_eq_append] at hts hfront
    simp only [List.all_append, List.all_cons, Bool.and_eq_true] at hts
    obtain ⟨⟨-, ht', -⟩, -⟩ := hts
    have ho' := (exists_of_isWell ht').1
    rw [Term.isWell, Bool.and_eq_true] at ht'
    obtain ⟨g, c, hgap, hc, hdot⟩ := exists_concat_of_isGap ht'.1
    have hx' : x = (w ++ (textOf ts' ++ g)) ++ c :: t'.operand.text := by
      rw [hfront]
      simp [textOf, hgap]
    have hv : t'.operand.isVariable = true := by
      rw [← Bool.not_eq_false]
      intro hv
      obtain ⟨q, s, hqs, hq, -, -⟩ := exists_enclosed ho' hv
      have hend : y ++ [a] = (w ++ (textOf ts' ++ g) ++ c :: q :: s) ++ [q] := by
        rw [← hya, hx', hqs]
        simp
      obtain ⟨-, hlast⟩ := List.append_inj' hend rfl
      cases hlast
      rw [hq] at ha
      cases ha
    cases hoperand : t'.operand with
    | name n =>
      rw [hoperand] at ho' hx'
      have hn : n.all isNamePart = true := all_isNamePart_of_isName ho'
      rcases spells_operand_end hx with hname | ⟨y', n', hn', hy'⟩ | ⟨y', a', ha', hy'⟩
      · have hpart := List.all_eq_true.mp (all_isNamePart_of_isName hname) c (by rw [hx']; simp)
        rw [hc] at hpart
        cases hpart
      · obtain ⟨-, hsame, -⟩ := eq_of_last (all_isNamePart_of_isName hn') hn rfl hc
          (hy'.symm.trans hx')
        exact hdot hsame.symm
      · obtain ⟨m, a'', rfl, ha''⟩ := exists_concat_of_isName (show isName n = true from ho')
        have hend : y' ++ [a'] = (w ++ (textOf ts' ++ g) ++ c :: m) ++ [a''] := by
          rw [← hy', hx']
          simp [Operand.text]
        obtain ⟨-, hlast⟩ := List.append_inj' hend rfl
        cases hlast
        have hclosing : a' = ']' ∨ a' = ')' := by simpa [CharSet.of] using ha'
        rcases hclosing with rfl | rfl <;> cases ha''
    | str q s =>
      rw [hoperand] at hv
      cases hv
    | template ps =>
      rw [hoperand] at hv
      cases hv

end InFront

end CodeTidy.JavaScript
