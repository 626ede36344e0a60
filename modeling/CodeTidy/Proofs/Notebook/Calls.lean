import CodeTidy.Proofs.Notebook.Blocks

/-!
# `CodeTidy.Proofs.Notebook.Calls`: how often a function is called

Blocks are counted in the sources as they are at first, but each is replaced in
what the ones before it have left. Blocks that are chosen together do not hold
one another, yet one may end with lines that another one begins with. Replacing
the first then takes lines away from the second. The theorems:

* `pairwise_chooseBlocks`: no chosen block holds another one.
* `occurrencesFrom_replaceBlocks`: what is left of a block that is apart from the
  blocks before it.
* `count_call_replaceBlocks`: a function is called as often as its block is left.
* `callsOf_extractDuplicates`: the calls in the cells that come out.
* `extractDuplicates_leaves_uncalled`: a function that is not called at all.
-/

set_option autoImplicit false

namespace CodeTidy

open Text

namespace Notebook

/-! ### The chosen blocks -/

/-- No chosen block holds another one or is held by it. -/
theorem pairwise_chooseBlocks {chosen : List Text} (bs : List Text)
    (h : chosen.Pairwise fun a b => overlaps b a = false) :
    (chooseBlocks chosen bs).Pairwise fun a b => overlaps b a = false := by
  induction bs generalizing chosen with
  | nil => exact h
  | cons b bs ih =>
    rw [chooseBlocks]
    split
    · exact h
    split
    · exact ih h
    · next hnone =>
      refine ih (List.pairwise_append.mpr ⟨h, List.pairwise_singleton _ b, ?_⟩)
      intro a ha b' hb'
      rw [List.mem_singleton.mp hb', Bool.eq_false_iff]
      intro hoverlap
      exact hnone (List.any_eq_true.mpr ⟨a, ha, hoverlap⟩)

/-- Two lists of lines in a row, with a line feed between their texts. -/
theorem unlines_append {ls ls' : List Text} (h : ls ≠ []) (h' : ls' ≠ []) :
    unlines (ls ++ ls') = unlines ls ++ '\n' :: unlines ls' := by
  induction ls with
  | nil => exact absurd rfl h
  | cons l ls ih =>
    cases ls with
    | nil => rw [List.singleton_append, unlines_cons l h', unlines_singleton]
    | cons l' ls =>
      rw [List.cons_append, unlines_cons l (by simp), ih (List.cons_ne_nil l' ls),
        unlines_cons l (List.cons_ne_nil l' ls), List.append_assoc, List.cons_append]

/-- A part of the lines is a part of the text. -/
theorem unlines_infix {ls ls' : List Text} (hne : ls ≠ []) (h : ls <:+: ls') :
    unlines ls <:+: unlines ls' := by
  obtain ⟨front, back, rfl⟩ := h
  have hback : unlines ls <+: unlines (ls ++ back) := by
    cases back with
    | nil => rw [List.append_nil]
    | cons l back =>
      rw [unlines_append hne (List.cons_ne_nil l back)]
      exact List.prefix_append _ _
  have hfront : unlines (ls ++ back) <:+ unlines (front ++ (ls ++ back)) := by
    cases front with
    | nil => exact List.suffix_rfl
    | cons l front =>
      rw [unlines_append (List.cons_ne_nil l front) (List.append_ne_nil_of_left_ne_nil hne back)]
      exact (List.suffix_cons _ _).trans (List.suffix_append _ _)
  rw [List.append_assoc]
  exact hback.isInfix.trans hfront.isInfix

/-- Lines in a row make a stretch of the text. -/
theorem infix_of_lines {a b : Text} (h : lines a <:+: lines b) : a <:+: b := by
  have hinfix := unlines_infix (lines_ne_nil a) h
  rwa [unlines_lines, unlines_lines] at hinfix

/-- Texts of which neither holds the other have no lines in common as a whole. -/
theorem not_infix_of_overlaps {a b : Text} (h : overlaps b a = false) :
    ¬lines a <:+: lines b ∧ ¬lines b <:+: lines a := by
  rw [overlaps, Bool.or_eq_false_iff] at h
  constructor
  · intro hab
    rw [holds_iff.mpr (infix_of_lines hab)] at h
    cases h.1
  · intro hba
    rw [holds_iff.mpr (infix_of_lines hba)] at h
    cases h.2

/-- Blocks that move into functions are apart, unless they dovetail. -/
theorem apart_of_findDuplicates {sources before after : List Text} {b : Text}
    (h : findDuplicates sources = before ++ b :: after)
    (hends : ∀ a ∈ before, ¬Dovetail (lines a) (lines b)) :
    ∀ a ∈ before, Apart (lines a) (lines b) := by
  intro a ha
  have hpairwise : (before ++ b :: after).Pairwise fun a b => overlaps b a = false :=
    h ▸ pairwise_chooseBlocks _ List.Pairwise.nil
  have hoverlap := (List.pairwise_append.mp hpairwise).2.2 a ha b List.mem_cons_self
  exact ⟨not_infix_of_overlaps hoverlap, hends a ha⟩

/-! ### Calls and what is left of a block -/

/-- A block occurs as often as before if blocks are replaced that are apart from it. -/
theorem occurrencesFrom_replaceBlocks {b : Text} (hcall : ∀ k, helperCall k ∉ lines b)
    {before : List Text} (h : ∀ a ∈ before, Apart (lines a) (lines b)) (n : Nat) (ls : List Text) :
    occurrencesFrom (lines b) 0 (replaceBlocks n before ls) = occurrencesFrom (lines b) 0 ls := by
  induction before generalizing n ls with
  | nil => rfl
  | cons a before ih =>
    rw [List.forall_mem_cons] at h
    rw [replaceBlocks, ih h.2,
      occurrencesFrom_replaceFrom (lines_ne_nil a) (lines_ne_nil b) h.1 (hcall n)]

/-- A function is called as often as its block occurs in what the blocks before it have left. -/
theorem count_call_replaceBlocks {before after : List Text} {b : Text}
    (hbefore : ∀ a ∈ before, ∀ k, helperCall k ∉ lines a)
    (hafter : ∀ a ∈ after, ∀ k, helperCall k ∉ lines a)
    {ls : List Text} (hls : ∀ k, helperCall k ∉ ls) :
    (replaceBlocks 1 (before ++ b :: after) ls).count (helperCall (before.length + 1)) =
      occurrencesFrom (lines b) 0 (replaceBlocks 1 before ls) := by
  have hother : ∀ k, k ≠ before.length + 1 → helperCall (before.length + 1) ≠ helperCall k :=
    fun k hk heq => hk (helperCall_injective heq).symm
  -- The call is not there before its turn, and no later block takes it away.
  have hnew : helperCall (before.length + 1) ∉ replaceBlocks 1 before ls := by
    rw [← List.count_eq_zero, count_replaceBlocks (fun k _ hk => hother k (by omega))
      fun a ha => hbefore a ha _]
    exact List.count_eq_zero_of_not_mem (hls _)
  rw [replaceBlocks_append, replaceBlocks,
    count_replaceBlocks (fun k hk _ => hother k (by omega)) fun a ha => hafter a ha _,
    Nat.add_comm 1, count_call_replaceFrom (lines_ne_nil b) hnew]

/-- How often the code cells call a function. A call is a line of its own. -/
def callsOf (n : Nat) (cells : List Cell) : Nat := (sourcesOf cells).flatten.count (helperCall n)

/-- Counting source by source. -/
theorem count_flatten_map {sources : List (List Text)} {f g : List Text → List Text} {x : Text}
    {block : List Text} (h : ∀ ls ∈ sources, (f ls).count x = occurrencesFrom block 0 (g ls)) :
    (sources.map f).flatten.count x = occurrences (sources.map g) block := by
  induction sources with
  | nil => rfl
  | cons ls sources ih =>
    rw [List.forall_mem_cons] at h
    rw [List.map_cons, List.flatten_cons, List.count_append, h.1, ih h.2, List.map_cons,
      occurrences_cons]

/-- What does not change the occurrences in each source does not change them in all. -/
theorem occurrences_map {sources : List (List Text)} {g : List Text → List Text}
    {block : List Text}
    (h : ∀ ls ∈ sources, occurrencesFrom block 0 (g ls) = occurrencesFrom block 0 ls) :
    occurrences (sources.map g) block = occurrences sources block := by
  induction sources with
  | nil => rfl
  | cons ls sources ih =>
    rw [List.forall_mem_cons] at h
    rw [List.map_cons, occurrences_cons, h.1, ih h.2, occurrences_cons]

/-- A function is called as often as its block occurs in the cells that the blocks before it have
left. If none of them dovetails with it, these are all its occurrences, which are two at least. -/
theorem callsOf_extractDuplicates {cells : List Cell} (h : MentionsNoHelper cells) :
    ∃ before after,
      before ++ after = callHelpers cells 1 (findDuplicates (NameMaker.codeOf cells)) ∧
      extractDuplicates cells = before ++
        (if findDuplicates (NameMaker.codeOf cells) = [] then []
          else helperCells (findDuplicates (NameMaker.codeOf cells))) ++ after ∧
      ∀ earlier b later, findDuplicates (NameMaker.codeOf cells) = earlier ++ b :: later →
        callsOf (earlier.length + 1) (before ++ after) =
          occurrences (sourcesOf (callHelpers cells 1 earlier)) (lines b) ∧
        ((∀ a ∈ earlier, ¬Dovetail (lines a) (lines b)) →
          callsOf (earlier.length + 1) (before ++ after) =
            occurrences (sourcesOf cells) (lines b) ∧
          2 ≤ callsOf (earlier.length + 1) (before ++ after)) := by
  obtain ⟨before, after, hold, hnew⟩ := extractDuplicates_eq cells
  refine ⟨before, after, hold, hnew, fun earlier b later hblocks => ?_⟩
  have hcalls : ∀ a ∈ earlier ++ b :: later, ∀ k, helperCall k ∉ lines a := fun a ha k =>
    h.not_mem_block (hblocks ▸ ha) k
  rw [List.forall_mem_append, List.forall_mem_cons] at hcalls
  obtain ⟨hearlier, hb, hlater⟩ := hcalls
  -- Each call of the function takes the place of an occurrence that was left when its turn came.
  have hcount : callsOf (earlier.length + 1) (before ++ after) =
      occurrences (sourcesOf (callHelpers cells 1 earlier)) (lines b) := by
    rw [callsOf, hold, hblocks, sourcesOf_callHelpers, sourcesOf_callHelpers]
    exact count_flatten_map fun ls hls =>
      count_call_replaceBlocks hearlier hlater fun k => h.not_mem hls k
  refine ⟨hcount, fun hends => ?_⟩
  -- The blocks before it share no line with an occurrence, so all are left.
  have hall : occurrences (sourcesOf (callHelpers cells 1 earlier)) (lines b) =
      occurrences (sourcesOf cells) (lines b) := by
    rw [sourcesOf_callHelpers]
    exact occurrences_map fun ls _ =>
      occurrencesFrom_replaceBlocks hb (apart_of_findDuplicates hblocks hends) 1 ls
  have htwice := (exists_source_of_mem_findDuplicates
    (hblocks ▸ List.mem_append_right earlier List.mem_cons_self)).2
  exact ⟨hcount.trans hall, by rwa [hcount, hall]⟩

/-- The theorem at cells with two repeated blocks: both functions are called twice. -/
theorem callsOf_extractDuplicates_loading :
    MentionsNoHelper loadingCells ∧ ¬Dovetail (lines loadBlock) (lines sumBlock) ∧
      ∃ before after,
        extractDuplicates loadingCells = before ++ helperCells [loadBlock, sumBlock] ++ after ∧
        2 ≤ callsOf 1 (before ++ after) ∧ 2 ≤ callsOf 2 (before ++ after) := by
  have hnone := mentionsNoHelper_loadingCells
  have hends : ¬Dovetail (lines loadBlock) (lines sumBlock) := by
    refine (apart_of_disjoint (lines_ne_nil _) (lines_ne_nil _) ?_).not_dovetail
    decide +kernel
  obtain ⟨before, after, -, hnew, hcalls⟩ := callsOf_extractDuplicates hnone
  rw [findDuplicates_loadingCells, if_neg (List.cons_ne_nil _ _)] at hnew
  have hfirst := hcalls [] loadBlock [sumBlock] findDuplicates_loadingCells
  have hsecond := hcalls [loadBlock] sumBlock [] findDuplicates_loadingCells
  refine ⟨hnone, hends, before, after, hnew, ?_, ?_⟩
  · exact (hfirst.2 fun a ha => nomatch ha).2
  · refine (hsecond.2 fun a ha => ?_).2
    rwa [List.mem_singleton.mp ha]

/-- The first of three blocks. -/
def openBlock : Text := "a = open(name)\nrows = load(a)\nkeep(rows, a)"

/-- The second one. -/
def closeBlock : Text := "drop(rows, a)\nclose(rows, a)\na = open(file)"

/-- The third one, which begins with the last line of the first block and ends with the first line
of the second one. -/
def middleBlock : Text := "keep(rows, a)\nshow(rows, a)\ndrop(rows, a)"

/-- Cells that hold each of them twice. Both times the last one shares a line with another one. -/
def dovetailedCells : List Cell :=
  [Cell.newCode openBlock, Cell.newCode closeBlock,
    Cell.newCode (openBlock ++ "\nshow(rows, a)\ndrop(rows, a)"),
    Cell.newCode ("keep(rows, a)\nshow(rows, a)\n" ++ closeBlock)]

/-- A function may be defined that is never called. -/
theorem extractDuplicates_leaves_uncalled :
    MentionsNoHelper dovetailedCells ∧
      findDuplicates (NameMaker.codeOf dovetailedCells) = [openBlock, closeBlock, middleBlock] ∧
      helpersCell [openBlock, closeBlock, middleBlock] ∈ extractDuplicates dovetailedCells ∧
      "def helper_function_3():".toList ∈
        lines (helpersCell [openBlock, closeBlock, middleBlock]).source ∧
      callsOf 3 (extractDuplicates dovetailedCells) = 0 := by
  have hnone : MentionsNoHelper dovetailedCells := by
    unfold MentionsNoHelper
    decide +kernel
  have hfound : repeatedBlocks ((NameMaker.codeOf dovetailedCells).map lines) =
      [lines openBlock, lines closeBlock, lines middleBlock] := by
    decide +kernel
  -- The three blocks are as long as they are listed, so sorting leaves them.
  have hsorted : [openBlock, closeBlock, middleBlock].mergeSort
      (fun a b => decide (b.length ≤ a.length)) = [openBlock, closeBlock, middleBlock] := by
    refine List.mergeSort_of_pairwise ?_
    decide +kernel
  have hblocks : findDuplicates (NameMaker.codeOf dovetailedCells) =
      [openBlock, closeBlock, middleBlock] := by
    simp only [findDuplicates, hfound, List.map_cons, List.map_nil, unlines_lines, hsorted]
    decide +kernel
  have hnew : extractDuplicates dovetailedCells =
      beforeCalls (helperCells [openBlock, closeBlock, middleBlock])
        (callHelpers dovetailedCells 1 [openBlock, closeBlock, middleBlock]) := by
    rw [extractDuplicates, ← NameMaker.codeOf, hblocks]
    rfl
  -- All three get a function, and the calls of the first two leave no block for the third.
  have hdefined : helpersCell [openBlock, closeBlock, middleBlock] ∈
      helperCells [openBlock, closeBlock, middleBlock] :=
    List.mem_cons_of_mem _ List.mem_cons_self
  rw [hnew]
  refine ⟨hnone, hblocks, ?_, by decide +kernel, by decide +kernel⟩
  exact List.mem_append_left _ (List.mem_append_right _ hdefined)

end Notebook

end CodeTidy
