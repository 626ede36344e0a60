import CodeTidy.Proofs.Notebook.Reading
import CodeTidy.Refactor.Improvement
import Mathlib.Data.List.Nodup

/-!
# `CodeTidy.Proofs.Refactor.Improvement`: counts and descriptions agree

A tally of improvements is put together from four sources: the cells that a
notebook has gained, the checks of a family, the lines that were indented anew,
and a floor for texts that have changed much. `Tally.Agrees` says that the count
and the descriptions are in step. A source keeps that if it counts something
whenever it says something, and if no other source says the same.

Before anything is counted, both texts are read as notebooks. `Notebook.parse?`
gives no answer for a text that is nested too deeply, and nothing holds that
failure off here, so then there is no count at all. The theorems:

* `Tally.Agrees.add`: one more entry.
* `checks_spec`: the checks of a family say different things, and none of them
  says what the other sources say.
* `Tally.Agrees.foldl_addCheck`, `Tally.Agrees.addReindented`,
  `Tally.Agrees.raiseToFloor`, `agrees_cellTally`: the sources one by one.
* `agrees_countImprovements`: the tally of two texts.
* `exists_countImprovements_iff`: when there is one.
* `countImprovements_agrees_iff`: both together.
-/

set_option autoImplicit false

namespace CodeTidy.Improvement

/-- The count and the descriptions of a tally are in step: no description stands twice, there are
no more descriptions than improvements, and none is missing if something was counted. -/
structure Tally.Agrees (tally : Tally) : Prop where
  nodup : tally.messages.Nodup
  length_le : tally.messages.length ≤ tally.count
  count_eq_zero : tally.messages = [] → tally.count = 0

namespace Tally

/-- A tally of no checks agrees. -/
theorem agrees_none : Tally.none.Agrees := ⟨List.nodup_nil, Nat.le_refl 0, fun _ => rfl⟩

/-- Nothing is described exactly if nothing is counted. -/
theorem Agrees.messages_eq_nil_iff {tally : Tally} (h : tally.Agrees) :
    tally.messages = [] ↔ tally.count = 0 := by
  refine ⟨h.count_eq_zero, fun hzero => ?_⟩
  have hle := h.length_le
  rw [hzero, Nat.le_zero, List.length_eq_zero_iff] at hle
  exact hle

/-- An entry that counts something and says something new. -/
theorem Agrees.add {tally : Tally} (h : tally.Agrees) {n : Nat} (hn : 0 < n) {message : Text}
    (hnew : message ∉ tally.messages) : (tally.add n message).Agrees where
  nodup := by
    rw [Tally.add, List.nodup_append]
    refine ⟨h.nodup, List.nodup_singleton _, fun m hm m' hm' heq => ?_⟩
    rw [List.mem_singleton] at hm'
    exact hnew (hm' ▸ heq ▸ hm)
  length_le := by
    have hle := h.length_le
    simp only [Tally.add, List.length_append, List.length_singleton]
    omega
  count_eq_zero hnil := absurd hnil (by simp [Tally.add])

end Tally

/-! ### The checks -/

/-- What the description of gained cells ends with. -/
def cellsEnding : Text := "sections"

/-- What the description of lines that were indented anew ends with. -/
def linesEnding : Text := "by nesting depth"

/-- The checks of a family count something and say different things, and none of them speaks of
gained cells or of lines that were indented anew. -/
theorem checks_spec (family : Family) : ((checks family).map Check.message).Nodup ∧
    ∀ c ∈ checks family, 0 < c.weight ∧ Text.endsWith c.message cellsEnding = false ∧
      Text.endsWith c.message linesEnding = false := by
  cases family <;> decide +kernel

/-- A text ends with each of its suffixes. -/
theorem endsWith_of_suffix {t w : Text} (h : w <:+ t) : Text.endsWith t w = true :=
  List.isSuffixOf_iff_suffix.mpr h

/-- What speaks of gained cells does not speak of lines. -/
theorem endsWith_linesEnding {m : Text} (h : Text.endsWith m cellsEnding = true) :
    Text.endsWith m linesEnding = false := by
  rw [Bool.eq_false_iff]
  intro h'
  obtain ⟨t, rfl⟩ := List.isSuffixOf_iff_suffix.mp h
  obtain ⟨t', ht'⟩ := List.isSuffixOf_iff_suffix.mp h'
  -- The two endings differ in their last letters.
  have hlast := congrArg List.getLast? ht'
  rw [List.getLast?_append, List.getLast?_append] at hlast
  cases hlast

section

variable {tally : Tally} {before after : Text}

/-- A check keeps the agreement, if it counts for something and its message is a new one. -/
theorem Tally.Agrees.addCheck (h : tally.Agrees) {c : Check} (hweight : 0 < c.weight)
    (hnew : c.message ∉ tally.messages) : (tally.addCheck before after c).Agrees := by
  rw [Tally.addCheck]
  split
  · exact h.add (Nat.mul_pos (by omega) hweight) hnew
  · exact h

/-- A check adds no message but its own. -/
theorem Tally.messages_addCheck_subset (tally : Tally) (before after : Text) (c : Check) :
    (tally.addCheck before after c).messages ⊆ tally.messages ++ [c.message] := by
  rw [Tally.addCheck]
  split
  · exact List.Subset.refl _
  · exact List.subset_append_left _ _

/-- Checks that say different things, and nothing that was said before. -/
theorem Tally.Agrees.foldl_addCheck {cs : List Check} (hweight : ∀ c ∈ cs, 0 < c.weight)
    (hnodup : (cs.map Check.message).Nodup) (h : tally.Agrees)
    (hnew : ∀ c ∈ cs, c.message ∉ tally.messages) :
    (cs.foldl (Tally.addCheck before after) tally).Agrees ∧
      (cs.foldl (Tally.addCheck before after) tally).messages ⊆
        tally.messages ++ cs.map Check.message := by
  induction cs generalizing tally with
  | nil => exact ⟨h, by simp⟩
  | cons c cs ih =>
    rw [List.forall_mem_cons] at hweight hnew
    rw [List.map_cons, List.nodup_cons] at hnodup
    have hfirst := tally.messages_addCheck_subset before after c
    -- What has been said is new to the checks that are left: the first one says something else.
    have hnew' : ∀ c' ∈ cs, c'.message ∉ (tally.addCheck before after c).messages := by
      intro c' hc' hmem
      rcases List.mem_append.mp (hfirst hmem) with hold | hsame
      · exact hnew.2 c' hc' hold
      · rw [List.mem_singleton] at hsame
        exact hnodup.1 (hsame ▸ List.mem_map_of_mem hc')
    obtain ⟨hagrees, hrest⟩ := ih hweight.2 hnodup.2 (h.addCheck hweight.1 hnew.1) hnew'
    refine ⟨hagrees, List.Subset.trans hrest ?_⟩
    rw [List.map_cons, List.append_cons]
    exact List.append_subset.mpr ⟨List.Subset.trans hfirst (List.subset_append_left _ _),
      List.subset_append_right _ _⟩

/-! ### The other sources -/

/-- The lines that were indented anew, if nothing was said of them before. -/
theorem Tally.Agrees.addReindented (h : tally.Agrees)
    (hnew : ∀ m ∈ tally.messages, Text.endsWith m linesEnding = false) :
    (addReindented before after tally).Agrees := by
  rw [Improvement.addReindented]
  split
  · exact h
  · next hcredit =>
    refine h.add (by rw [maxReindentCredit]; omega) fun hmem => ?_
    have hends : Text.endsWith ("Re-indented " ++ Text.ofNat (reindentedLines before after) ++
        " lines by nesting depth") linesEnding = true :=
      endsWith_of_suffix ((List.IsSuffix.trans ⟨" lines ", rfl⟩ (List.suffix_append _ _)))
    rw [hnew _ hmem] at hends
    cases hends

/-- A tally below the floor is raised, and says something then. -/
theorem Tally.Agrees.raiseToFloor (h : tally.Agrees) :
    (raiseToFloor before after tally).Agrees := by
  rw [Improvement.raiseToFloor]
  split
  · next hraise =>
    -- The floor is above the count, which was not below the number of descriptions.
    have hle := Nat.le_trans h.length_le (Nat.le_of_lt hraise.2.2)
    split
    · exact ⟨List.nodup_singleton _, by decide, fun hnil => nomatch hnil⟩
    · next hmessages =>
      exact ⟨h.nodup, hle, fun hnil => absurd (List.isEmpty_iff.mpr hnil) hmessages⟩
  · exact h

end

/-- The cells that a notebook has gained. -/
theorem agrees_cellTally (b a : Notebook) : (cellTally b a).Agrees ∧
    ∀ m ∈ (cellTally b a).messages, Text.endsWith m cellsEnding = true := by
  rw [cellTally]
  split
  · exact ⟨Tally.agrees_none, fun m hm => nomatch hm⟩
  · next hgained =>
    refine ⟨Tally.agrees_none.add (Nat.pos_of_ne_zero hgained) List.not_mem_nil, fun m hm => ?_⟩
    obtain rfl := List.mem_singleton.mp hm
    exact endsWith_of_suffix
      (List.IsSuffix.trans ⟨" notebook cell(s) for constants, helpers or split ", rfl⟩
        (List.suffix_append _ _))

/-- The tally of code, if what it begins with speaks of gained cells only. -/
theorem Tally.Agrees.codeTally {start : Tally} (h : start.Agrees)
    (hstart : ∀ m ∈ start.messages, Text.endsWith m cellsEnding = true) (family : Family)
    (before after : Text) : (codeTally family start before after).Agrees := by
  obtain ⟨hnodup, hchecks⟩ := checks_spec family
  have hnew : ∀ c ∈ checks family, c.message ∉ start.messages := by
    intro c hc hmem
    have hends := hstart _ hmem
    rw [(hchecks c hc).2.1] at hends
    cases hends
  obtain ⟨hagrees, hsubset⟩ :
      ((checks family).foldl (Tally.addCheck before after) start).Agrees ∧ _ :=
    h.foldl_addCheck (fun c hc => (hchecks c hc).1) hnodup hnew
  -- So far gained cells and checks are described, so nothing is said of the lines yet.
  rw [Improvement.codeTally]
  refine Tally.Agrees.raiseToFloor ?_
  split
  · refine hagrees.addReindented fun m hm => ?_
    rcases List.mem_append.mp (hsubset hm) with hm | hm
    · exact endsWith_linesEnding (hstart m hm)
    · obtain ⟨c, hc, rfl⟩ := List.mem_map.mp hm
      exact (hchecks c hc).2.2
  · exact hagrees

/-! ### The tally of two texts -/

/-- There is a count if the texts are the same, or if of both it can be said whether they are
notebooks. -/
theorem exists_countImprovements_iff (before after : Text) (family : Family) :
    (∃ tally, countImprovements before after family = .ok tally) ↔
      before = after ∨ ¬Notebook.NestsTooDeeply before ∧ ¬Notebook.NestsTooDeeply after := by
  rw [← Notebook.exists_parse?_iff, ← Notebook.exists_parse?_iff, countImprovements]
  split
  · next hsame => exact ⟨fun _ => .inl hsame, fun _ => ⟨_, rfl⟩⟩
  · next hdiffer =>
    rcases hb : Notebook.parse? before with e | b
    · simp [hdiffer, bind, Except.bind]
    · rcases ha : Notebook.parse? after with e | a
      · simp [hdiffer, bind, Except.bind]
      · rcases b with _ | b <;> rcases a with _ | a <;>
          simp [bind, Except.bind, pure, Except.pure]

/-- What is counted: nothing, the cells and the code of two notebooks, or two texts. -/
theorem countImprovements_cases {before after : Text} {family : Family} {tally : Tally}
    (h : countImprovements before after family = .ok tally) :
    tally = Tally.none ∨
      (∃ b a, Notebook.parse? before = .ok (some b) ∧ Notebook.parse? after = .ok (some a) ∧
        tally = codeTally family (cellTally b a) b.code a.code) ∨
      tally = codeTally family Tally.none before after := by
  rw [countImprovements] at h
  split at h
  · cases h
    exact .inl rfl
  · rcases hb : Notebook.parse? before with e | b
    · rw [hb] at h
      cases h
    · rcases ha : Notebook.parse? after with e | a
      · rw [hb, ha] at h
        cases h
      · rw [hb, ha] at h
        -- Code is compared with code only if both texts are notebooks.
        rcases b with _ | b <;> rcases a with _ | a <;> cases h
        · exact .inr (.inr rfl)
        · exact .inr (.inr rfl)
        · exact .inr (.inr rfl)
        · exact .inr (.inl ⟨b, a, rfl, rfl, rfl⟩)

/-- Whatever is counted, the count and the descriptions are in step. -/
theorem agrees_countImprovements {before after : Text} {family : Family} {tally : Tally}
    (h : countImprovements before after family = .ok tally) : tally.Agrees := by
  rcases countImprovements_cases h with rfl | ⟨b, a, -, -, rfl⟩ | rfl
  · exact Tally.agrees_none
  · obtain ⟨hcells, hmessages⟩ := agrees_cellTally b a
    exact hcells.codeTally hmessages family b.code a.code
  · exact Tally.agrees_none.codeTally (fun m hm => nomatch hm) family before after

/-- The text of a notebook whose cells have the given sources. -/
def notebookOf (sources : List Text) : Text :=
  let cell (source : Text) : Text :=
    "\x7b\"cell_type\": \"code\", \"source\": \"" ++ source ++ "\"\x7d"
  "\x7b\"cells\": [" ++ Text.joinWith ", " (sources.map cell) ++ "]\x7d"

/-- A notebook that has gained a cell and lost a comparison. -/
example : (countImprovements (notebookOf ["x == None"]) (notebookOf ["x is None", "y"])
    .python).toOption = some ⟨2,
      ["Added 1 notebook cell(s) for constants, helpers or split sections",
        "Used identity comparisons with None"]⟩ := by
  decide +kernel

/-- What a comparison of two texts is for: it gives a count and descriptions, no description stands
twice, there are none exactly if nothing is counted, there are no more of them than improvements,
and from a text to itself nothing improves. -/
def CountsInStep (before after : Text) (family : Family) : Prop :=
  ∃ tally, countImprovements before after family = .ok tally ∧ tally.messages.Nodup ∧
    (tally.messages = [] ↔ tally.count = 0) ∧ tally.messages.length ≤ tally.count ∧
    (before = after → tally = ⟨0, []⟩)

/-- The count of improvements and their descriptions agree, whichever two texts are compared, unless
the texts differ and one of them is nested too deeply to say whether it is a notebook: then there is
no count. -/
theorem countImprovements_agrees_iff (before after : Text) (family : Family) :
    CountsInStep before after family ↔
      before = after ∨ ¬Notebook.NestsTooDeeply before ∧ ¬Notebook.NestsTooDeeply after := by
  rw [← exists_countImprovements_iff before after family]
  constructor
  · rintro ⟨tally, htally, -⟩
    exact ⟨tally, htally⟩
  · rintro ⟨tally, htally⟩
    have hagrees := agrees_countImprovements htally
    refine ⟨tally, htally, hagrees.nodup, hagrees.messages_eq_nil_iff, hagrees.length_le, ?_⟩
    intro hsame
    rw [countImprovements, if_pos hsame] at htally
    exact (Except.ok.inj htally).symm

/-- The text of a notebook with one code cell, in whose metadata arrays stand within arrays. -/
def nestedNotebook (depth : Nat) (source : Text) : Text :=
  let brackets : Text := List.replicate depth '[' ++ List.replicate depth ']'
  let cell : Text := "\x7b\"cell_type\": \"code\", \"source\": \"" ++ source ++ "\"\x7d"
  "\x7b\"metadata\": ".toList ++ (brackets ++ (", ".toList ++ ("\"cells\"".toList ++
    (": [".toList ++ (cell ++ "]\x7d".toList)))))

/-- The notebook itself is one container, so as many arrays as there is room for are too many. -/
theorem nestsTooDeeply_nestedNotebook {depth : Nat} (h : Json.maxNesting ≤ depth) (source : Text) :
    Notebook.NestsTooDeeply (nestedNotebook depth source) := by
  have hcells : Text.holds (nestedNotebook depth source) "\"cells\"" = true := by
    rw [Text.holds_iff]
    unfold nestedNotebook
    exact List.infix_append_of_infix_right (List.infix_append_of_infix_right
      (List.infix_append_of_infix_right (List.prefix_append _ _).isInfix))
  -- Behind the brace and the first key stand the arrays.
  obtain ⟨r, hopen⟩ : ∃ r, nestedNotebook depth source =
      '\x7b' :: '"' :: ("metadata\": ".toList ++ (List.replicate depth '[' ++ r)) := by
    unfold nestedNotebook
    dsimp only
    rw [List.append_assoc]
    exact ⟨_, rfl⟩
  have hkey : Json.string? ("metadata\": ".toList ++ (List.replicate depth '[' ++ r)) =
      some ("metadata".toList, ':' :: ' ' :: (List.replicate depth '[' ++ r)) := rfl
  have hroom : Json.maxNesting = 987 + 1 := rfl
  have harrays := Json.exceeds_arrays (show 987 < depth by omega) r
  refine ⟨by rw [Notebook.isLikely, hcells, hopen]; rfl, .array, ?_⟩
  rw [hopen, hroom]
  refine .inObject (.member hkey rfl ?_)
  obtain ⟨n, rfl⟩ := Nat.exists_eq_succ_of_ne_zero (show depth ≠ 0 by omega)
  exact harrays

/-- The cell's source can be told from the text. -/
theorem nestedNotebook_inj {depth : Nat} {s s' : Text}
    (h : nestedNotebook depth s = nestedNotebook depth s') : s = s' := by
  unfold nestedNotebook at h
  simpa only [List.append_cancel_left_eq, List.append_cancel_right_eq] using h

/-- Two notebooks whose one cell differs by a comparison, with arrays in their metadata that are
nested too deeply: that the comparison got better is not counted, as nothing is. -/
theorem not_countsInStep_nestedNotebook :
    ¬CountsInStep (nestedNotebook 2000 "x == None") (nestedNotebook 2000 "x is None") .python := by
  rintro ⟨tally, htally, -⟩
  rcases (exists_countImprovements_iff _ _ _).mp ⟨tally, htally⟩ with hsame | ⟨hdeep, -⟩
  · exact absurd (nestedNotebook_inj hsame) (by decide)
  · exact hdeep (nestsTooDeeply_nestedNotebook (by decide) _)

end CodeTidy.Improvement
