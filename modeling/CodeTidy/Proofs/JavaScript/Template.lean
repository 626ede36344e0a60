import CodeTidy.Proofs.JavaScript.Step

/-!
# `CodeTidy.Proofs.JavaScript.Template`: the value of a sum that becomes a template

A pass of the seven steps makes seven sweeps over a sum, and passes are repeated until
nothing changes. Strings and templates in front are put together from the left, as a
sum is taken, but a name is put into the template behind it before it is added to the
name in front of it. The theorems:

* `templatePass_textOf`: a pass rewrites the text of a sum by seven sweeps.
* `evaluate_of_settled`: a sum keeps its value if one of the first two operands is no
  name.
* `lead_pass_lt`: a pass takes one of the names in front of the first string.
* `concatenationsToTemplates_keeps_value_iff`: the value of a sum stays exactly if all its
  operands are names or one of the first two is none.
-/

set_option autoImplicit false

namespace CodeTidy.JavaScript

open Pattern Text

/-! ### A pass, and all passes -/

section Passes

variable {ts : List Term} {P : List Term → Prop}

/-- One sweep for each step, in order. -/
def pass (ts : List Term) : List Term := kindPairs.foldl (fun ts k => sweep k.1 k.2 ts) ts

/-- No step puts two names together. -/
theorem ne_name_of_mem_kindPairs : ∀ k ∈ kindPairs, k.1 ≠ .name ∨ k.2 ≠ .name := by decide

/-- What every sweep keeps, a pass keeps. -/
theorem pass_induction (hsweep : ∀ A B ts, A ≠ .name ∨ B ≠ .name → P ts → P (sweep A B ts))
    (h : P ts) : P (pass ts) := by
  have hfold : ∀ ks : List (Kind × Kind), (∀ k ∈ ks, k.1 ≠ .name ∨ k.2 ≠ .name) → ∀ ts, P ts →
      P (ks.foldl (fun ts k => sweep k.1 k.2 ts) ts) := by
    intro ks hks
    induction ks with
    | nil => exact fun ts h => h
    | cons k ks ih =>
      intro ts h
      rw [List.forall_mem_cons] at hks
      exact ih hks.2 _ (hsweep k.1 k.2 ts hks.1 h)
  exact hfold kindPairs ne_name_of_mem_kindPairs ts h

/-- A pass rewrites the text of a sum by seven sweeps. -/
theorem templatePass_textOf (h : isSum ts = true) :
    templatePass (textOf ts) = textOf (pass ts) := by
  have hfold : ∀ ks : List (Kind × Kind), (∀ k ∈ ks, k.1 ≠ .name ∨ k.2 ≠ .name) → ∀ ts,
      isSum ts = true →
      (ks.map (fun k => (pair k.1 k.2, merged k.1 k.2))).foldl (fun t r => r.1.replace r.2 t)
        (textOf ts) = textOf (ks.foldl (fun ts k => sweep k.1 k.2 ts) ts) := by
    intro ks hks
    induction ks with
    | nil => exact fun ts _ => rfl
    | cons k ks ih =>
      intro ts h
      rw [List.forall_mem_cons] at hks
      rw [List.map_cons, List.foldl_cons, replace_textOf hks.1 h]
      exact ih hks.2 _ (isSum_sweep h)
  rw [templatePass, templateRules_eq]
  exact hfold kindPairs ne_name_of_mem_kindPairs ts h

/-- After a pass the terms make up a sum. -/
theorem isSum_pass (h : isSum ts = true) : isSum (pass ts) = true :=
  pass_induction (P := fun ts => isSum ts = true) (fun _ _ _ _ => isSum_sweep) h

/-- What every pass keeps, all of them keep. -/
theorem templatePasses_textOf (hpass : ∀ ts, P ts → P (pass ts)) (hsum : isSum ts = true)
    (h : P ts) (passes : Nat) :
    ∃ ts', isSum ts' = true ∧ P ts' ∧ templatePasses passes (textOf ts) = textOf ts' := by
  induction passes generalizing ts with
  | zero => exact ⟨ts, hsum, h, rfl⟩
  | succ passes ih =>
    rw [templatePasses, templatePass_textOf hsum]
    split
    · exact ⟨ts, hsum, h, rfl⟩
    · exact ih (isSum_pass hsum) (hpass ts h)

/-- What the first pass leads to and every pass keeps holds in the end. -/
theorem concatenationsToTemplates_textOf (hpass : ∀ ts, P ts → P (pass ts))
    (hsum : isSum ts = true) (h : P (pass ts)) :
    ∃ ts', isSum ts' = true ∧ P ts' ∧ concatenationsToTemplates (textOf ts) = textOf ts' := by
  rw [concatenationsToTemplates, maxTemplatePasses, templatePasses, templatePass_textOf hsum]
  split
  · next hsame => exact ⟨pass ts, isSum_pass hsum, h, hsame.symm⟩
  · exact templatePasses_textOf hpass (isSum_pass hsum) h 4

end Passes

/-! ### The value of a sum -/

section Values

variable {N : NumberSystem} {ts : List Term}

/-- What becomes of a sum in which one of the first two operands is no name has its value. -/
theorem evaluate_of_settled (env : Env N) (hsum : isSum ts = true) (h : settled ts = true) :
    evaluate env (concatenationsToTemplates (textOf ts)) = value? env (ts.map Term.operand) := by
  let P : List Term → Prop := fun ts' =>
    settled ts' = true ∧ value? env (ts'.map Term.operand) = value? env (ts.map Term.operand)
  have hpass : ∀ ts', P ts' → P (pass ts') := fun ts' => pass_induction (P := P)
    fun A B ts' hAB h => ⟨settled_sweep h.1, (value_sweep env hAB h.1).trans h.2⟩
  obtain ⟨ts', hsum', ⟨-, hvalue⟩, htext⟩ :=
    concatenationsToTemplates_textOf hpass hsum (hpass ts ⟨h, rfl⟩)
  rw [htext, evaluate_textOf env hsum', hvalue]

/-- A sum of names is left as it is. -/
theorem concatenationsToTemplates_of_allNames (hsum : isSum ts = true) (h : allNames ts = true) :
    concatenationsToTemplates (textOf ts) = textOf ts := by
  have hpass : pass ts = ts := pass_induction (P := fun ts' => ts' = ts)
    (fun A B ts' hAB hsame => by rw [hsame, sweep_eq_self hAB h]) rfl
  rw [concatenationsToTemplates, maxTemplatePasses, templatePasses, templatePass_textOf hsum, hpass]
  exact if_pos rfl

/-- If not all operands are names, a string or a template leads. -/
theorem leader?_of_allNames (h : allNames ts = false) :
    leader? ts = some .quoted ∨ leader? ts = some .template := by
  induction ts with
  | nil => cases h
  | cons t ts ih =>
    cases hv : t.operand.isVariable with
    | true =>
      rw [leader?_cons_variable hv]
      exact ih (by simpa [allNames_cons, hv] using h)
    | false =>
      rw [leader?_cons_other hv]
      cases ht : t.operand with
      | name n => rw [ht] at hv; cases hv
      | str q s => exact .inl rfl
      | template ps => exact .inr rfl

/-- A pass takes one of the names in front of the first other operand, if there are any. -/
theorem lead_pass_lt (h : allNames ts = false) (hlead : 0 < lead ts) :
    lead (pass ts) < lead ts := by
  let ts₃ := sweep .template .quoted (sweep .quoted .name (sweep .quoted .quoted ts))
  let ts₄ := sweep .name .quoted ts₃
  let ts₆ := sweep .template .template (sweep .quoted .template ts₄)
  have hpass : pass ts = sweep .name .template ts₆ := rfl
  have h₃ : lead ts₃ ≤ lead ts := lead_sweep_le.trans (lead_sweep_le.trans lead_sweep_le)
  have h₄ : lead ts₄ ≤ lead ts₃ := lead_sweep_le
  have h₆ : lead ts₆ ≤ lead ts₄ := lead_sweep_le.trans lead_sweep_le
  have h₇ : lead (pass ts) ≤ lead ts₆ := hpass ▸ lead_sweep_le
  have hother : allNames ts₃ = false :=
    all_isVariable_sweep (all_isVariable_sweep (all_isVariable_sweep h))
  rcases Nat.eq_zero_or_pos (lead ts₃) with hzero | hpos
  · omega
  rcases leader?_of_allNames hother with hquoted | htemplate
  · -- The first string takes the name in front of it.
    have hlt : lead ts₄ < lead ts₃ := lead_sweep_lt hquoted hpos
    omega
  · -- A template stays the first until it takes the name in front of it.
    have htemplate₆ : leader? ts₆ = some .template :=
      leader?_sweep (by decide) (by decide) (leader?_sweep (by decide) (by decide)
        (leader?_sweep (by decide) (by decide) htemplate))
    rcases Nat.eq_zero_or_pos (lead ts₆) with hzero | hpos₆
    · omega
    · have hlt : lead (pass ts) < lead ts₆ := hpass ▸ lead_sweep_lt htemplate₆ hpos₆
      omega

/-- A sum that is not settled begins with two names. -/
theorem two_le_lead (h : allNames ts = false) (hsettled : settled ts = false) : 2 ≤ lead ts := by
  match ts with
  | [] => cases h
  | [t] => simp_all [allNames, settled]
  | t :: t' :: ts =>
    simp only [settled, List.take_succ_cons, List.take_zero, List.any_cons, List.any_nil,
      Bool.or_false, Bool.or_eq_false_iff, Bool.not_eq_false'] at hsettled
    rw [lead_cons_variable hsettled.1, lead_cons_variable hsettled.2]
    omega

/-- The value of a sum stays, whatever its names stand for, exactly if all its operands are names or
one of the first two is none. Otherwise the names in front of the first string are no longer added
where they stand for numbers. -/
theorem concatenationsToTemplates_keeps_value_iff (N : NumberSystem) {ts : List Term}
    (hsum : isSum ts = true) :
    (∀ env : Env N, ∃ v, evaluate env (textOf ts) = some v ∧
      evaluate env (concatenationsToTemplates (textOf ts)) = some v) ↔
      allNames ts = true ∨ settled ts = true := by
  constructor
  · intro hkeeps
    by_contra hneither
    rw [not_or, Bool.not_eq_true, Bool.not_eq_true] at hneither
    obtain ⟨hother, hsettled⟩ := hneither
    have hlead := two_le_lead hother hsettled
    let P : List Term → Prop := fun ts' =>
      allNames ts' = false ∧ width ts' = width ts ∧ lead ts' < lead ts
    have hpass : ∀ ts', P ts' → P (pass ts') := fun ts' => pass_induction (P := P)
      fun A B ts' _ h => ⟨all_isVariable_sweep h.1, width_sweep.trans h.2.1,
        Nat.lt_of_le_of_lt lead_sweep_le h.2.2⟩
    have hfirst : P (pass ts) := by
      obtain ⟨hother', hwidth⟩ := pass_induction
        (P := fun ts' => allNames ts' = false ∧ width ts' = width ts)
        (fun A B ts' _ h => ⟨all_isVariable_sweep h.1, width_sweep.trans h.2⟩) ⟨hother, rfl⟩
      exact ⟨hother', hwidth, lead_pass_lt hother (by omega)⟩
    obtain ⟨ts', hsum', ⟨hother', hwidth, hlt⟩, htext⟩ :=
      concatenationsToTemplates_textOf hpass hsum hfirst
    -- Where all names stand for zero, the result prints more zeros.
    obtain ⟨v, hv, hlength⟩ := length_said_zero (N := N) hother
    obtain ⟨v', hv', hlength'⟩ := length_said_zero (N := N) hother'
    obtain ⟨w, hw, hw'⟩ := hkeeps (zeros N)
    rw [evaluate_textOf _ hsum, hv] at hw
    rw [htext, evaluate_textOf _ hsum', hv'] at hw'
    cases hw
    cases hw'
    omega
  · intro h env
    obtain ⟨o, ts', hts, -, -⟩ := exists_of_isSum hsum
    have hread := evaluate_textOf env hsum
    obtain ⟨v, hv⟩ : ∃ v, value? env (ts.map Term.operand) = some v := ⟨_, by rw [hts]; rfl⟩
    refine ⟨v, hread.trans hv, ?_⟩
    rcases h with hnames | hsettled
    · rw [concatenationsToTemplates_of_allNames hsum hnames, hread, hv]
    · rw [evaluate_of_settled env hsum hsettled, hv]

/-- The integers. -/
def integers : NumberSystem where
  Number := Int
  add := (· + ·)
  print := ofInt
  zero := 0
  zero_add_zero := rfl
  print_zero := rfl

/-- A string and two names. -/
def labelled : List Term :=
  [⟨[], .str '"' "sum: "⟩, ⟨" + ", .name "a"⟩, ⟨" + ", .name "b"⟩]

/-- The theorem for a string with two names added to it. -/
theorem labelled_keeps_value : isSum labelled = true ∧
    ∀ env : Env integers, ∃ v, evaluate env (textOf labelled) = some v ∧
      evaluate env (concatenationsToTemplates (textOf labelled)) = some v :=
  have hsum : isSum labelled = true := by decide
  ⟨hsum, (concatenationsToTemplates_keeps_value_iff integers hsum).mpr (.inr (by decide))⟩

/-- Two names and a string: the names are added before, but not behind. -/
theorem concatenationsToTemplates_from_right :
    let env : Env integers := fun n => .number (Int.ofNat n.length)
    (evaluate env "a + bb + 'x'").map Value.print = some "3x".toList ∧
      concatenationsToTemplates "a + bb + 'x'" = "`$\x7ba\x7d$\x7bbb\x7dx`".toList ∧
      (evaluate env (concatenationsToTemplates "a + bb + 'x'")).map Value.print =
        some "12x".toList := by
  decide +kernel

end Values

end CodeTidy.JavaScript
