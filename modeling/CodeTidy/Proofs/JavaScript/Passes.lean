import CodeTidy.Proofs.JavaScript.Step
import CodeTidy.Proofs.Pattern.Steps

/-!
# `CodeTidy.Proofs.JavaScript.Passes`: how many passes a text needs

Passes over a text are repeated until one changes nothing, but five times at most. What a step
puts together it puts together at a plus sign, which goes away, so each pass that changes the text
leaves fewer plus signs. The theorems:

* `count_merged`: a match that is rewritten loses its plus sign, and no other.
* `count_templatePass_lt`: a pass that changes the text leaves fewer plus signs.
* `passesNeeded_le_count`: no text needs more passes than it has plus signs.
* `concatenationsToTemplates_stable_iff`: the result stays as it is in a further run, or in a
  further pass, exactly if the text needs at most five passes.
-/

set_option autoImplicit false

namespace CodeTidy.JavaScript

open Pattern Text

/-! ### A step and its plus sign -/

section Plus

variable {e e' : Groups} {x : Text} {n i : Nat} {A B k : Kind} {m : Match}

/-- White space holds no plus sign. -/
theorem count_blank {b : Text} (hb : b.all isBlank = true) : b.count '+' = 0 :=
  List.count_eq_zero.mpr (not_mem_of_all hb (by decide))

/-- A quote is no plus sign. -/
theorem count_quote {q : Char} (hq : CharSet.of "'\"" q = true) : [q].count '+' = 0 := by
  have hcases : q = '\'' ∨ q = '"' := by simpa [CharSet.of] using hq
  rcases hcases with rfl | rfl <;> rfl

/-- What has been remembered in front of an operand stays. -/
theorem lookup_of_spells (h : Spells (k.pattern n) e x e') (hi : i < n) :
    e'.lookup i = e.lookup i := by
  have hne : (i == n) = false := beq_false_of_ne (by omega)
  have hne' : (i == n + 1) = false := beq_false_of_ne (by omega)
  cases k with
  | name =>
    obtain ⟨e₁, hoperand, rfl⟩ := h
    rw [List.lookup_cons, hne, hoperand.groups_eq (show operand.isGroupless = true from rfl)]
  | quoted =>
    obtain ⟨q, s, -, -, -, rfl⟩ := spells_plainString.mp h
    rw [List.lookup_cons, hne', List.lookup_cons, hne]
  | template =>
    obtain ⟨s, -, -, rfl⟩ := spells_template.mp h
    rw [List.lookup_cons, hne]

/-- An operand puts as many plus signs into a template as it has. -/
theorem count_put (h : Spells (k.pattern n) e x e')
    (hgroup : ∀ i, n ≤ i → i < n + k.groups → m.group i = (e'.lookup i).getD []) :
    (k.put n m).count '+' = x.count '+' := by
  cases k with
  | name =>
    obtain ⟨e₁, -, rfl⟩ := h
    have hname := hgroup n (Nat.le_refl n) (Nat.lt_succ_self n)
    rw [List.lookup_cons, beq_self_eq_true] at hname
    simp [Kind.put, hole, hname]
  | quoted =>
    obtain ⟨q, s, hq, -, rfl, rfl⟩ := spells_plainString.mp h
    have hinner := hgroup (n + 1) (Nat.le_succ n) (Nat.lt_succ_self (n + 1))
    rw [List.lookup_cons, beq_self_eq_true] at hinner
    rw [← List.singleton_append, List.count_append, List.count_append, count_quote hq]
    simp [Kind.put, hinner]
  | template =>
    obtain ⟨s, -, rfl, rfl⟩ := spells_template.mp h
    have hinner := hgroup n (Nat.le_refl n) (Nat.lt_succ_self n)
    rw [List.lookup_cons, beq_self_eq_true] at hinner
    simp [Kind.put, hinner]

/-- A step leaves its match alone, or writes the plus signs of the two operands and no other. -/
theorem merged_cases (hquote : A = .quoted → (m.group 1).count '+' = 0) :
    merged A B m = m.text ∨
      (merged A B m).count '+' = (A.put 1 m).count '+' + (B.put (1 + A.groups) m).count '+' := by
  cases A with
  | name =>
    rw [merged, unlessTaken]
    split
    · exact .inl rfl
    · exact .inr (by simp [inTemplate, Kind.groups])
  | quoted =>
    right
    cases B <;> simp [merged, inTemplate, Kind.put, Kind.groups, hquote rfl]
  | template =>
    right
    simp [merged, inTemplate, Kind.groups]

/-- A match that is rewritten loses its plus sign, and no other. -/
theorem count_merged {c : Cursor} (hm : (pair A B).matchAt? c = some m)
    (hchange : merged A B m ≠ m.text) :
    (merged A B m).count '+' + 1 = m.text.count '+' := by
  obtain ⟨rfl, htakes⟩ := takes_of_matchAt? hm
  obtain ⟨-, ⟨c₁, caps₁, c₂, hA, hplus, hB⟩, -⟩ := takes_pair_iff.mp htakes
  obtain ⟨x, hx, hspells⟩ := hA.spells
  obtain ⟨b, b', hb, hb', hbb, -⟩ := takes_plus_iff.mp hplus
  obtain ⟨y, hy, hspells'⟩ := hB.spells
  have htext : m.text = x ++ ((b ++ '+' :: b') ++ y) :=
    Match.text_of_reads (hx.trans (hbb.trans hy))
  -- What the first operand remembers, the second one leaves as it is.
  have hfirst : ∀ i, 1 ≤ i → i < 1 + A.groups → m.group i = ((textsOf caps₁).lookup i).getD [] := by
    intro i _ hi
    rw [group_eq, lookup_of_spells hspells' hi]
  -- The quote of the first operand, which may be put back, is no plus sign.
  have hquote : A = .quoted → (m.group 1).count '+' = 0 := by
    rintro rfl
    obtain ⟨q, s, hq, -, -, hgroups⟩ := spells_plainString.mp hspells
    rw [hfirst 1 (Nat.le_refl 1) (by decide), hgroups]
    exact count_quote hq
  rcases merged_cases hquote with hsame | hcount
  · exact absurd hsame hchange
  · rw [hcount, count_put hspells hfirst, count_put hspells' fun i _ _ => group_eq m i, htext]
    simp only [List.count_append, List.count_cons_self, count_blank hb, count_blank hb']
    omega

end Plus

/-! ### A pass -/

section Passes

variable {t : Text}

/-- A step leaves the text alone, or leaves fewer plus signs. -/
theorem count_replace_pair (A B : Kind) (t : Text) :
    (pair A B).replace (merged A B) t = t ∨
      ((pair A B).replace (merged A B) t).count '+' < t.count '+' := by
  refine replace_related isSolid_pair (R := fun a b => b = a ∨ b.count '+' < a.count '+')
    (fun _ => .inl rfl) ?_ ?_
  · rintro a b d (rfl | hab) (rfl | hbd)
    · exact .inl rfl
    · exact .inr hbd
    · exact .inr hab
    · exact .inr (Nat.lt_trans hbd hab)
  · intro v m hm hchange x
    have hcount := count_merged hm.2 hchange
    refine .inr ?_
    simp only [List.count_append]
    omega

/-- A pass leaves the text alone, or leaves fewer plus signs. -/
theorem count_templatePass (t : Text) :
    templatePass t = t ∨ (templatePass t).count '+' < t.count '+' := by
  -- The induction is on the replacements that are left.
  have hfold : ∀ ks : List (Kind × Kind), ∀ t : Text,
      (ks.map (fun k => (pair k.1 k.2, merged k.1 k.2))).foldl
        (fun t r => r.1.replace r.2 t) t = t ∨
        ((ks.map (fun k => (pair k.1 k.2, merged k.1 k.2))).foldl (fun t r => r.1.replace r.2 t)
          t).count '+' < t.count '+' := by
    intro ks
    induction ks with
    | nil => exact fun t => .inl rfl
    | cons k ks ih =>
      intro t
      rw [List.map_cons, List.foldl_cons]
      rcases count_replace_pair k.1 k.2 t with hsame | hless
      · rw [hsame]
        exact ih t
      · right
        rcases ih ((pair k.1 k.2).replace (merged k.1 k.2) t) with hsame | hless'
        · rw [hsame]
          exact hless
        · exact Nat.lt_trans hless' hless
  rw [templatePass, templateRules_eq]
  exact hfold kindPairs t

/-- A pass that changes the text leaves fewer plus signs. -/
theorem count_templatePass_lt (h : templatePass t ≠ t) :
    (templatePass t).count '+' < t.count '+' :=
  (count_templatePass t).resolve_left h

/-- How many passes change something before one changes nothing. -/
def passesNeeded (t : Text) : Nat :=
  if templatePass t = t then 0 else passesNeeded (templatePass t) + 1
termination_by t.count '+'
decreasing_by exact count_templatePass_lt ‹_›

/-- No pass is needed exactly if one changes nothing. -/
theorem passesNeeded_eq_zero_iff : passesNeeded t = 0 ↔ templatePass t = t := by
  rw [passesNeeded]
  split <;> simp_all

/-- A pass that changes something is one of those needed. -/
theorem passesNeeded_of_change (h : templatePass t ≠ t) :
    passesNeeded t = passesNeeded (templatePass t) + 1 := by
  rw [passesNeeded, if_neg h]

/-- No text needs more passes than it has plus signs. -/
theorem passesNeeded_le_count (t : Text) : passesNeeded t ≤ t.count '+' := by
  fun_induction passesNeeded t with
  | case1 t hsame => exact Nat.zero_le _
  | case2 t hchange ih =>
    have hless := count_templatePass_lt hchange
    omega

/-! ### All passes -/

/-- The passes that are made are no longer needed. -/
theorem passesNeeded_templatePasses (passes : Nat) (t : Text) :
    passesNeeded (templatePasses passes t) = passesNeeded t - passes := by
  induction passes generalizing t with
  | zero => rfl
  | succ passes ih =>
    rw [templatePasses]
    split
    · next hsame =>
      rw [passesNeeded_eq_zero_iff.mpr hsame, Nat.zero_sub]
    · next hchange =>
      rw [ih, passesNeeded_of_change hchange]
      omega

/-- Passes never bring a plus sign. -/
theorem count_templatePasses_le (passes : Nat) (t : Text) :
    (templatePasses passes t).count '+' ≤ t.count '+' := by
  induction passes generalizing t with
  | zero => exact Nat.le_refl _
  | succ passes ih =>
    rw [templatePasses]
    split
    · exact Nat.le_refl _
    · next hchange => exact Nat.le_trans (ih _) (Nat.le_of_lt (count_templatePass_lt hchange))

/-- A text that a run leaves as it is needs no pass: what one pass changes, no later one brings
back. -/
theorem concatenationsToTemplates_eq_self_iff :
    concatenationsToTemplates t = t ↔ passesNeeded t = 0 := by
  rw [concatenationsToTemplates, maxTemplatePasses, templatePasses, passesNeeded_eq_zero_iff]
  split
  · next hsame => exact iff_of_true rfl hsame
  · next hchange =>
    refine iff_of_false (fun hsame => ?_) hchange
    have hless := count_templatePass_lt hchange
    have hle := count_templatePasses_le 4 (templatePass t)
    rw [hsame] at hle
    omega

/-- The result of a run stays as it is in a further run, and in a further pass, exactly if the text
needs no more passes than are made. A text needs at most as many as it has plus signs. -/
theorem concatenationsToTemplates_stable_iff (t : Text) :
    (concatenationsToTemplates (concatenationsToTemplates t) = concatenationsToTemplates t ↔
      passesNeeded t ≤ maxTemplatePasses) ∧
    (templatePass (concatenationsToTemplates t) = concatenationsToTemplates t ↔
      passesNeeded t ≤ maxTemplatePasses) ∧
    passesNeeded t ≤ t.count '+' := by
  have hneeded : passesNeeded (concatenationsToTemplates t) = 0 ↔
      passesNeeded t ≤ maxTemplatePasses := by
    rw [concatenationsToTemplates, passesNeeded_templatePasses, Nat.sub_eq_zero_iff_le]
  exact ⟨concatenationsToTemplates_eq_self_iff.trans hneeded,
    passesNeeded_eq_zero_iff.symm.trans hneeded, passesNeeded_le_count t⟩

/-- Six names and a template with six plus signs between them: five passes take one name each, and
the first name is left. -/
theorem concatenationsToTemplates_unstable :
    concatenationsToTemplates "a + b + c + d + e + f + `x`" =
        "a + `$\x7bb\x7d$\x7bc\x7d$\x7bd\x7d$\x7be\x7d$\x7bf\x7dx`".toList ∧
      concatenationsToTemplates (concatenationsToTemplates "a + b + c + d + e + f + `x`") =
        "`$\x7ba\x7d$\x7bb\x7d$\x7bc\x7d$\x7bd\x7d$\x7be\x7d$\x7bf\x7dx`".toList := by
  decide +kernel

end Passes

end CodeTidy.JavaScript
