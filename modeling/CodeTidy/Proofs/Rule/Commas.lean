import CodeTidy.Proofs.Rule.Nesting

/-!
# `CodeTidy.Proofs.Rule.Commas`: the commas that cut, and lists that are cut again

A scan goes through a text with a depth and the quote it is in. What it has seen can be said
without the scan: `Nesting.Leaves` takes a text apart into quoted stretches and single characters
outside of quotes, and adds up the brackets. A comma cuts exactly if what stands in front of it
leaves no bracket and no quote open. The depth may be negative in between, and a comma behind a
bracket too many does not cut. The theorems:

* `Nesting.run_eq_iff_leaves`: the scan and the relation agree.
* `Nesting.isCutBehind_iff`: the places at which a text is cut.
* `Nesting.cut_eq_singleton_iff`, `Nesting.cut_of_mem_cut`: texts that are not cut, such as the
  pieces.
* `splitParams_joinWith_eq_iff`: the lists of parameters that are taken apart again when they have
  been put together.
* `splitParams_joinWith_of_closed`: among them are the lists of texts that are closed and not cut.
* `splitColumns_exact`: a list of columns is cut at just these commas, and nothing is lost.
-/

set_option autoImplicit false

namespace CodeTidy

open Text

namespace Nesting

variable {n : Nesting} {t u r p : Text}

/-! ### What a text leaves open -/

/-- What a character outside of quotes adds to the depth. -/
def weight (n : Nesting) (c : Char) : Int :=
  if c ∈ n.openers then 1 else if c ∈ n.closers then -1 else 0

/-- The text leaves no quote open, and opens `d` brackets more than it closes: it is made of
quoted stretches, each up to the next quote of its kind, and of other characters. -/
inductive Leaves (n : Nesting) : Text → Int → Prop where
  | nil : Leaves n [] 0
  | quoted {q : Char} {w t : Text} {d : Int} (hq : q ∈ n.quotes) (hw : q ∉ w)
      (rest : Leaves n t d) : Leaves n (q :: (w ++ q :: t)) d
  | other {c : Char} {t : Text} {d : Int} (hc : c ∉ n.quotes) (rest : Leaves n t d) :
      Leaves n (c :: t) (n.weight c + d)

/-- A quote opens a quoted stretch at any depth. -/
theorem step_of_quote {q : Char} (hq : q ∈ n.quotes) (k : Int) :
    n.step ⟨k, none⟩ q = ⟨k, some q⟩ := by
  simp [step, hq]

/-- Any other character changes the depth by its weight. -/
theorem step_of_not_quote {c : Char} (hc : c ∉ n.quotes) (k : Int) :
    n.step ⟨k, none⟩ c = ⟨k + n.weight c, none⟩ := by
  simp only [step, List.contains_iff_mem, if_neg hc, weight]
  split
  · rfl
  · split
    · rw [Int.sub_eq_add_neg]
    · rw [Int.add_zero]

/-- A quoted stretch leaves the state as it is. -/
theorem run_quoted {q : Char} {w : Text} (hq : q ∈ n.quotes) (hw : q ∉ w) (k : Int) (t : Text) :
    n.run ⟨k, none⟩ (q :: (w ++ q :: t)) = n.run ⟨k, none⟩ t := by
  have hclose : n.step ⟨k, some q⟩ q = ⟨k, none⟩ := by simp [step]
  rw [run, List.foldl_cons, step_of_quote hq, ← run, run_append, run_of_quoted hw, run,
    List.foldl_cons, hclose]
  rfl

/-- A text changes the depth by the brackets that it leaves open, wherever it stands outside
quotes. -/
theorem Leaves.run_eq {d : Int} (h : n.Leaves t d) (k : Int) :
    n.run ⟨k, none⟩ t = ⟨k + d, none⟩ := by
  induction h generalizing k with
  | nil => rw [Int.add_zero]; rfl
  | quoted hq hw _ ih => rw [run_quoted hq hw, ih]
  | other hc _ ih =>
    rw [run, List.foldl_cons, step_of_not_quote hc, ← run, ih, Int.add_assoc]

/-- Where no quote is open behind a text the depth is what the text leaves open. -/
theorem leaves_of_run {k d : Int} (h : n.run ⟨k, none⟩ t = ⟨k + d, none⟩) : n.Leaves t d := by
  -- By the length of the text, since a quoted stretch is taken from it as a whole.
  induction hlength : t.length using Nat.strong_induction_on generalizing t k d with
  | _ length ih =>
    cases t with
    | nil =>
      have hd : k = k + d := congrArg State.depth h
      obtain rfl : d = 0 := by omega
      exact .nil
    | cons c t =>
      by_cases hc : c ∈ n.quotes
      · have hclosed : c ∈ t := by
          by_contra hopen
          rw [run, List.foldl_cons, step_of_quote hc, ← run, run_of_quoted hopen] at h
          have hquote : some c = none := congrArg State.quote h
          cases hquote
        obtain ⟨w, t, rfl, hw⟩ := List.eq_append_cons_of_mem hclosed
        rw [run_quoted hc hw] at h
        refine .quoted hc hw (ih t.length ?_ h rfl)
        rw [← hlength, List.length_cons, List.length_append, List.length_cons]
        omega
      · rw [run, List.foldl_cons, step_of_not_quote hc, ← run] at h
        have hrest : n.run ⟨k + n.weight c, none⟩ t =
            ⟨k + n.weight c + (d - n.weight c), none⟩ := by
          rw [h]
          congr 1
          omega
        have hlt : t.length < length := by
          rw [← hlength]
          exact Nat.lt_succ_self _
        have hleaves := Leaves.other hc (ih t.length hlt hrest rfl)
        have hd : n.weight c + (d - n.weight c) = d := by omega
        rwa [hd] at hleaves

/-- What the scanner finds at the end of a text is what the text leaves open. -/
theorem run_eq_iff_leaves {d : Int} : n.run .start t = ⟨d, none⟩ ↔ n.Leaves t d := by
  constructor
  · intro h
    refine leaves_of_run (k := 0) ?_
    rw [Int.zero_add]
    exact h
  · intro h
    rw [State.start, h.run_eq 0, Int.zero_add]

/-- Whether a text leaves so much open can be found by running the scan. -/
instance (n : Nesting) (t : Text) (d : Int) : Decidable (n.Leaves t d) :=
  decidable_of_iff _ run_eq_iff_leaves

/-- The scanner ends as it began exactly if the text leaves nothing open. -/
theorem run_eq_start_iff : n.run .start t = .start ↔ n.Leaves t 0 := run_eq_iff_leaves

/-! ### Where a text is cut -/

section

variable (hcomma : n.step .start ',' = .start)
include hcomma

/-- In front of a cut everything is closed. -/
theorem run_of_cutFrom_eq {s : State} {us rs : List Text} (hus : us ≠ []) (hrs : rs ≠ [])
    (h : n.cutFrom s t = us ++ rs) : n.run s (joinWith [','] us) = .start := by
  -- On the pieces in front. The scan is at its start behind each of them, and a comma leaves it
  -- there.
  induction us generalizing s t with
  | nil => exact absurd rfl hus
  | cons w us ih =>
    rcases n.cutFrom_cases s t with huncut | ⟨w', r, rfl, -, hrun, hpieces⟩
    · rw [huncut, List.cons_append] at h
      exact absurd (List.append_eq_nil_iff.mp (List.cons.inj h).2.symm).2 hrs
    · rw [hpieces, List.cons_append] at h
      obtain ⟨rfl, hrest⟩ := List.cons.inj h
      cases us with
      | nil => rwa [joinWith_singleton]
      | cons v us =>
        rw [joinWith_cons_cons, run_append, hrun, List.singleton_append, run, List.foldl_cons,
          hcomma, ← run]
        exact ih (List.cons_ne_nil v us) hrest

/-- A text is cut at a comma, into what makes up the text in front of it and what makes up the text
behind it, if and only if the text in front of it leaves nothing open. -/
theorem isCutBehind_iff : (∃ us rs, n.cut (u ++ ',' :: r) = us ++ rs ∧ us ≠ [] ∧ rs ≠ [] ∧
    joinWith [','] us = u ∧ joinWith [','] rs = r) ↔ n.Leaves u 0 := by
  rw [← run_eq_start_iff]
  constructor
  · rintro ⟨us, rs, hcut, hus, hrs, rfl, rfl⟩
    exact run_of_cutFrom_eq hcomma hus hrs hcut
  · intro hclosed
    exact ⟨n.cut u, n.cut r, cutFrom_append_comma hcomma hclosed r, n.cutFrom_ne_nil _ u,
      n.cutFrom_ne_nil _ r, joinWith_cutFrom n _ u, joinWith_cutFrom n _ r⟩

/-- A text is one piece if each of its commas stands behind something that is open. -/
theorem cut_eq_singleton_iff : n.cut t = [t] ↔ ∀ u r, t = u ++ ',' :: r → ¬n.Leaves u 0 := by
  constructor
  · rintro huncut u r rfl hleaves
    obtain ⟨us, rs, hcut, hus, hrs, -⟩ := (isCutBehind_iff hcomma (r := r)).mpr hleaves
    rw [huncut] at hcut
    have hlength := congrArg List.length hcut
    rw [List.length_append, List.length_singleton] at hlength
    have hpos := List.length_pos_iff.mpr hus
    have hpos' := List.length_pos_iff.mpr hrs
    omega
  · intro h
    rcases n.cutFrom_cases .start t with huncut | ⟨u, r, ht, -, hclosed, -⟩
    · exact huncut
    · exact absurd (run_eq_start_iff.mp hclosed) (h u r ht)

end

/-- The pieces of a text are not cut again. -/
theorem cut_of_mem_cut (h : p ∈ n.cut t) : n.cut p = [p] := by
  induction hlength : t.length using Nat.strong_induction_on generalizing t with
  | _ length ih =>
    rcases n.cutFrom_cases .start t with huncut | ⟨w, r, rfl, huncut, -, hpieces⟩
    · rw [cut, huncut, List.mem_singleton] at h
      rw [h]
      exact huncut
    · rw [cut, hpieces, List.mem_cons] at h
      rcases h with rfl | h
      · exact huncut
      · refine ih r.length ?_ h rfl
        rw [← hlength, List.length_append, List.length_cons]
        omega

end Nesting

/-! ### Parameters -/

/-- Texts that have been put together are taken apart again if and only if none of them is empty,
has white space around it or is cut, and only the last one leaves something open. -/
theorem splitParams_joinWith_eq_iff {ps : List Text} :
    splitParams (joinWith ", " ps) = ps ↔ AreParams ps := by
  constructor
  · intro h
    rw [← h]
    exact areParams_splitParams _
  · intro h
    calc splitParams (joinWith ", " ps)
        = ps.flatMap splitParams := splitParams_joinWith h.closed
      _ = ps.flatMap fun p => [p] := List.flatMap_congr fun p hp => splitParams_of_areParams h hp
      _ = ps := List.flatMap_singleton' ps

/-- Texts that leave nothing open are taken apart again, if they are not empty, have no white space
around them, and each comma in them stands behind something that is open. -/
theorem splitParams_joinWith_of_closed {ps : List Text} (h : ∀ p ∈ ps, p ≠ [] ∧ trim p = p ∧
      Nesting.params.Leaves p 0 ∧ ∀ u r, p = u ++ ',' :: r → ¬Nesting.params.Leaves u 0) :
    splitParams (joinWith ", " ps) = ps := by
  refine splitParams_joinWith_eq_iff.mpr ⟨fun p hp => ?_, fun p hp => ?_, fun p hp => ?_,
    fun p hp => ?_⟩
  · obtain ⟨-, -, -, hcommas⟩ := h p hp
    exact (Nesting.cut_eq_singleton_iff rfl).mpr hcommas
  · exact (h p hp).2.1
  · exact (h p hp).1
  · exact Nesting.run_eq_start_iff.mpr (h p (List.dropLast_subset ps hp)).2.2.1

/-- The theorem at a call, a pattern with a comma in it, a generic type and a quoted bracket. -/
theorem splitParams_joinWith_nested :
    (∀ p ∈ ["fn(b, c)".toList, "\x7bd, e\x7d".toList, "Map<K, V> m".toList, "'),('".toList],
      p ≠ [] ∧ trim p = p ∧ Nesting.params.Leaves p 0 ∧
        ∀ u r, p = u ++ ',' :: r → ¬Nesting.params.Leaves u 0) ∧
    splitParams (joinWith ", " ["fn(b, c)".toList, "\x7bd, e\x7d".toList, "Map<K, V> m".toList,
      "'),('".toList]) =
      ["fn(b, c)".toList, "\x7bd, e\x7d".toList, "Map<K, V> m".toList, "'),('".toList] := by
  have h : ∀ p ∈ ["fn(b, c)".toList, "\x7bd, e\x7d".toList, "Map<K, V> m".toList, "'),('".toList],
      p ≠ [] ∧ trim p = p ∧ Nesting.params.Leaves p 0 ∧
        ∀ u r, p = u ++ ',' :: r → ¬Nesting.params.Leaves u 0 := by
    simp only [← Nesting.cut_eq_singleton_iff (n := Nesting.params) rfl]
    decide
  exact ⟨h, splitParams_joinWith_of_closed h⟩

/-! ### Columns -/

/-- The columns with commas between them are the segment. It is cut at a comma if and only if what
stands in front of it leaves no parenthesis and no quote open. No column is cut again. -/
theorem splitColumns_exact (t : Text) :
    joinWith [','] (splitColumns t) = t ∧
      (∀ u r, t = u ++ ',' :: r →
        ((∃ us rs, splitColumns t = us ++ rs ∧ us ≠ [] ∧ rs ≠ [] ∧ joinWith [','] us = u ∧
          joinWith [','] rs = r) ↔ Nesting.columns.Leaves u 0)) ∧
      ∀ p ∈ splitColumns t, splitColumns p = [p] := by
  refine ⟨Nesting.joinWith_cutFrom _ _ t, ?_, fun p hp => Nesting.cut_of_mem_cut hp⟩
  rintro u r rfl
  exact Nesting.isCutBehind_iff rfl

/-- The theorem at a call with two arguments and a quoted comma: the segment is cut at the second
of its commas, but not at the first and the last. -/
theorem splitColumns_exact_call :
    joinWith [','] (splitColumns "f(a, b), 'x,y'".toList) = "f(a, b), 'x,y'".toList ∧
      (∃ us rs, splitColumns "f(a, b), 'x,y'".toList = us ++ rs ∧ us ≠ [] ∧ rs ≠ [] ∧
        joinWith [','] us = "f(a, b)".toList ∧ joinWith [','] rs = " 'x,y'".toList) ∧
      (¬∃ us rs, splitColumns "f(a, b), 'x,y'".toList = us ++ rs ∧ us ≠ [] ∧ rs ≠ [] ∧
        joinWith [','] us = "f(a".toList ∧ joinWith [','] rs = " b), 'x,y'".toList) ∧
      ¬∃ us rs, splitColumns "f(a, b), 'x,y'".toList = us ++ rs ∧ us ≠ [] ∧ rs ≠ [] ∧
        joinWith [','] us = "f(a, b), 'x".toList ∧ joinWith [','] rs = "y'".toList := by
  obtain ⟨hjoin, hcut, -⟩ := splitColumns_exact "f(a, b), 'x,y'".toList
  refine ⟨hjoin, (hcut _ _ rfl).mpr (by decide), fun h => ?_, fun h => ?_⟩
  · exact absurd ((hcut _ _ rfl).mp h) (by decide)
  · exact absurd ((hcut _ _ rfl).mp h) (by decide)

end CodeTidy
