import CodeTidy.Proofs.Notebook.Calls

/-!
# `CodeTidy.Proofs.Notebook.Windows`: which blocks move into functions

Every stretch of three to ten lines of a source is a window. `IsEligible` says
which windows may move into a function, without mention of how they are found:
it looks at the first line, at the line behind, at the number of characters,
and asks for two occurrences that share no line. The theorems:

* `two_le_occurrences_iff`: counting from left to right misses no second
  occurrence.
* `mem_repeatedBlocks_iff`: the repeated blocks are the eligible windows.
* `chooseBlocks_spec`: a run of the choice keeps what it has, takes no block from
  elsewhere, and covers every block that it passes.
* `findDuplicates_maximal`: the chosen blocks are eligible, and no eligible window is
  passed over without a reason.
-/

set_option autoImplicit false

namespace CodeTidy

open Text

namespace Notebook

/-! ### Two occurrences -/

/-- A block occurs twice, and the two occurrences share no line: they stand one behind the other
in a source, or in two sources. -/
inductive OccursTwice (sources : List (List Text)) (block : Block) : Prop
  | within {a b c : List Text} (h : a ++ (block ++ (b ++ (block ++ c))) ∈ sources)
  | across {ls ls' : List Text} (h : [ls, ls'].Sublist sources) (hfirst : block <:+: ls)
    (hsecond : block <:+: ls')

section

variable {block ls : List Text}

/-- A block occurs exactly if its lines stand somewhere in a row. -/
theorem occurrencesFrom_pos_iff (hne : block ≠ []) :
    0 < occurrencesFrom block 0 ls ↔ block <:+: ls := by
  refine ⟨infix_of_occurrencesFrom_pos hne, fun h => ?_⟩
  induction ls using blocks_induction hne with
  | stop => exact absurd (List.infix_nil.mp h) hne
  | hit r _ =>
    rw [occurrencesFrom_append hne]
    omega
  | pass l r hnot ih =>
    rw [occurrencesFrom_cons hnot]
    exact ih ((List.infix_cons_iff.mp h).resolve_left hnot)

/-- An occurrence with another one behind it. The walk meets an occurrence no later than the first
of them, so it still has the second one before it. -/
theorem two_le_occurrencesFrom (hne : block ≠ []) {a r : List Text} (hr : block <:+: r)
    (h : ls = a ++ (block ++ r)) : 2 ≤ occurrencesFrom block 0 ls := by
  induction ls using blocks_induction hne generalizing a with
  | stop =>
    have hnil := (List.append_eq_nil_iff.mp (List.append_eq_nil_iff.mp h.symm).2).1
    exact absurd hnil hne
  | hit r' _ =>
    -- Both lists end in `r`, and the shorter end is part of the longer one.
    have hlength := congrArg List.length h
    rw [List.length_append, List.length_append, List.length_append] at hlength
    have hsuffix : r <:+ r' := by
      have hend : r <:+ block ++ r' := by
        rw [h, ← List.append_assoc]
        exact List.suffix_append _ _
      exact List.suffix_of_suffix_length_le hend (List.suffix_append _ _) (by omega)
    have hpos := (occurrencesFrom_pos_iff hne).mpr (hr.trans hsuffix.isInfix)
    rw [occurrencesFrom_append hne]
    omega
  | pass l r' hnot ih =>
    rw [occurrencesFrom_cons hnot]
    cases a with
    | nil => exact absurd (h ▸ List.prefix_append block r) hnot
    | cons x a => exact ih (List.cons.inj h).2

/-- A block occurs twice exactly if its lines stand in two places that have none in common. -/
theorem two_le_occurrencesFrom_iff (hne : block ≠ []) :
    2 ≤ occurrencesFrom block 0 ls ↔ ∃ a b c, ls = a ++ (block ++ (b ++ (block ++ c))) := by
  constructor
  · intro h
    induction ls using blocks_induction hne with
    | stop =>
      rw [occurrencesFrom] at h
      omega
    | hit r _ =>
      rw [occurrencesFrom_append hne] at h
      have hone : 0 < occurrencesFrom block 0 r := by omega
      obtain ⟨b, c, rfl⟩ := (occurrencesFrom_pos_iff hne).mp hone
      exact ⟨[], b, c, by simp⟩
    | pass l r hnot ih =>
      rw [occurrencesFrom_cons hnot] at h
      obtain ⟨a, b, c, rfl⟩ := ih h
      exact ⟨l :: a, b, c, rfl⟩
  · rintro ⟨a, b, c, h⟩
    exact two_le_occurrencesFrom hne ⟨b, c, List.append_assoc b block c⟩ h

/-- A block occurs if some source has it as a part. -/
theorem occurrences_pos_iff (hne : block ≠ []) {sources : List (List Text)} :
    0 < occurrences sources block ↔ ∃ ls ∈ sources, block <:+: ls := by
  constructor
  · intro h
    obtain ⟨ls, hls, hpos⟩ := exists_of_occurrences_pos h
    exact ⟨ls, hls, (occurrencesFrom_pos_iff hne).mp hpos⟩
  · rintro ⟨ls, hls, hinfix⟩
    have hpos := (occurrencesFrom_pos_iff hne).mpr hinfix
    induction sources with
    | nil => cases hls
    | cons ls' sources ih =>
      rw [occurrences_cons]
      rcases List.mem_cons.mp hls with rfl | hls
      · omega
      · have hrest := ih hls
        omega

/-- Counting from left to right finds two occurrences wherever there are two that share no line. -/
theorem two_le_occurrences_iff (hne : block ≠ []) {sources : List (List Text)} :
    2 ≤ occurrences sources block ↔ OccursTwice sources block := by
  induction sources with
  | nil =>
    constructor
    · intro h
      exact absurd (show 2 ≤ 0 from h) (by decide)
    · rintro (hwithin | ⟨hsub, -, -⟩)
      · cases hwithin
      · cases hsub
  | cons ls sources ih =>
    rw [occurrences_cons]
    constructor
    · intro h
      -- Both are in the first source, or one is, or none is.
      by_cases htwo : 2 ≤ occurrencesFrom block 0 ls
      · obtain ⟨a, b, c, rfl⟩ := (two_le_occurrencesFrom_iff hne).mp htwo
        exact .within List.mem_cons_self
      · by_cases hone : 0 < occurrencesFrom block 0 ls
        · have hrest : 0 < occurrences sources block := by omega
          obtain ⟨ls', hls', hsecond⟩ := (occurrences_pos_iff hne).mp hrest
          exact .across (List.cons_sublist_cons.mpr (List.singleton_sublist.mpr hls'))
            ((occurrencesFrom_pos_iff hne).mp hone) hsecond
        · have hrest : 2 ≤ occurrences sources block := by omega
          cases ih.mp hrest with
          | within hmem => exact .within (List.mem_cons_of_mem ls hmem)
          | across hsub hfirst hsecond => exact .across (hsub.cons ls) hfirst hsecond
    · rintro (hmem | ⟨hsub, hfirst, hsecond⟩)
      · rcases List.mem_cons.mp hmem with heq | hmem
        · have htwo := (two_le_occurrencesFrom_iff hne).mpr ⟨_, _, _, heq.symm⟩
          omega
        · have htwo := ih.mpr (.within hmem)
          omega
      · cases hsub with
        | cons _ hsub =>
          have htwo := ih.mpr (.across hsub hfirst hsecond)
          omega
        | cons_cons _ hsub =>
          have hone := (occurrencesFrom_pos_iff hne).mpr hfirst
          have hrest := (occurrences_pos_iff hne).mpr
            ⟨_, List.singleton_sublist.mp hsub, hsecond⟩
          omega

end

/-! ### Eligible windows -/

/-- A line that a block may begin with: it holds something, and begins with neither white space
nor a comment or decorator. -/
structure BeginsBlock (l : Text) : Prop where
  visible : ∃ c ∈ l, isBlank c = false
  start : ∀ c ∈ l.head?, c ∉ " \t#@".toList

/-- The test for the first line of a block. -/
theorem mayBegin_iff {l : Text} : mayBegin l = true ↔ BeginsBlock l := by
  have hvisible : allBlank l = false ↔ ∃ c ∈ l, isBlank c = false := by
    simp [allBlank, List.all_eq_false]
  have hstart : l.head?.any (CharSet.of " \t#@") = false ↔ ∀ c ∈ l.head?, c ∉ " \t#@".toList := by
    simp [Option.any_eq_false, CharSet.of]
  rw [mayBegin, Bool.and_eq_true, Bool.not_eq_true', Bool.not_eq_true', hvisible, hstart]
  exact ⟨fun h => ⟨h.1, h.2⟩, fun h => ⟨h.visible, h.start⟩⟩

/-- A window of the sources that may move into a function: three to ten lines one behind the other,
of which the first may begin a block, with no indented line behind them, and with forty characters
at least between the white space at their ends. The block occurs twice. -/
structure IsEligible (sources : List (List Text)) (block : Block) : Prop where
  window : ∃ ls ∈ sources, ∃ before after, ls = before ++ (block ++ after) ∧
    ∀ l ∈ after.head?, ∀ c ∈ l.head?, c ≠ ' ' ∧ c ≠ '\t'
  length : 3 ≤ block.length ∧ block.length ≤ 10
  begins : ∀ l ∈ block.head?, BeginsBlock l
  chars : 40 ≤ (trim (unlines block)).length
  twice : OccursTwice sources block

/-- The test for a block: its first line may begin one, the next line is not indented, and there is
enough of it. -/
theorem isMovable_iff {block after : List Text} (hne : block ≠ []) :
    isMovable block after = true ↔
      (∀ l ∈ block.head?, BeginsBlock l) ∧
        (∀ l ∈ after.head?, ∀ c ∈ l.head?, c ≠ ' ' ∧ c ≠ '\t') ∧
        40 ≤ (trim (unlines block)).length := by
  have hindent : ∀ l : Text, isIndented l = false ↔ ∀ c ∈ l.head?, c ≠ ' ' ∧ c ≠ '\t' := by
    intro l
    simp [isIndented, isIndent, Option.any_eq_false]
  have hafter : after.head?.any isIndented = false ↔
      ∀ l ∈ after.head?, ∀ c ∈ l.head?, c ≠ ' ' ∧ c ≠ '\t' := by
    simp only [Option.any_eq_false, hindent, Option.mem_def]
  obtain ⟨first, others, rfl⟩ := List.exists_cons_of_ne_nil hne
  have hbegin : (first :: others).head?.any mayBegin = true ↔
      ∀ l ∈ (first :: others).head?, BeginsBlock l := by
    simp [mayBegin_iff]
  rw [isMovable, Bool.and_eq_true, Bool.and_eq_true, Bool.not_eq_true', hbegin, hafter,
    decide_eq_true_eq, and_assoc]
  rfl

/-- The blocks of one size that may be moved, and where they stand. -/
theorem mem_movableBlocks_iff {size : Nat} {ls : List Text} {block : Block} :
    block ∈ movableBlocks size ls ↔ block.length = size ∧ ∃ before after,
      ls = before ++ (block ++ after) ∧ isMovable block after = true := by
  induction ls with
  | nil =>
    rw [movableBlocks]
    constructor
    · intro h
      cases h
    · -- Nothing is in no lines, and nothing is not movable.
      rintro ⟨-, before, after, heq, hmovable⟩
      have hnil := (List.append_eq_nil_iff.mp (List.append_eq_nil_iff.mp heq.symm).2).1
      rw [hnil] at hmovable
      cases hmovable
  | cons l ls ih =>
    rw [movableBlocks]
    constructor
    · intro h
      have hlater : block ∈ movableBlocks size ls → block.length = size ∧ ∃ before after,
          l :: ls = before ++ (block ++ after) ∧ isMovable block after = true := by
        intro hmem
        obtain ⟨hsize, before, after, rfl, hmovable⟩ := ih.mp hmem
        exact ⟨hsize, l :: before, after, rfl, hmovable⟩
      split at h
      · cases h
      · next hlong =>
        split at h
        · next hmovable =>
          rcases List.mem_cons.mp h with rfl | h
          · have hsize : ((l :: ls).take size).length = size := by
              have hle := List.length_take_le size (l :: ls)
              omega
            exact ⟨hsize, [], _, (List.take_append_drop size (l :: ls)).symm, hmovable⟩
          · exact hlater h
        · exact hlater h
    · rintro ⟨rfl, before, after, heq, hmovable⟩
      -- There are as many lines as the block has.
      have hlong : ¬((l :: ls).take block.length).length < block.length := by
        have hlength := congrArg List.length heq
        rw [List.length_append, List.length_append] at hlength
        rw [List.length_take]
        omega
      rw [if_neg hlong]
      cases before with
      | nil =>
        have hblock : (l :: ls).take block.length = block := by rw [heq]; exact List.take_left
        have hafter : (l :: ls).drop block.length = after := by rw [heq]; exact List.drop_left
        rw [hblock, hafter, if_pos hmovable]
        exact List.mem_cons_self
      | cons x before =>
        have hmem := ih.mpr ⟨rfl, before, after, (List.cons.inj heq).2, hmovable⟩
        split
        · exact List.mem_cons_of_mem _ hmem
        · exact hmem

/-- A block has from three to ten lines. -/
theorem mem_blockSizes_iff {n : Nat} : n ∈ blockSizes ↔ 3 ≤ n ∧ n ≤ 10 := by
  simp only [blockSizes, List.mem_cons, List.not_mem_nil, or_false]
  omega

/-- The repeated blocks are the eligible windows. -/
theorem mem_repeatedBlocks_iff {sources : List (List Text)} {block : Block} :
    block ∈ repeatedBlocks sources ↔ IsEligible sources block := by
  rw [repeatedBlocks, List.mem_eraseDups, List.mem_filter, decide_eq_true_eq]
  constructor
  · rintro ⟨hcandidate, htwice⟩
    obtain ⟨ls, hls, hsizes⟩ := List.mem_flatMap.mp hcandidate
    obtain ⟨size, hsize, hmem⟩ := List.mem_flatMap.mp hsizes
    obtain ⟨rfl, before, after, heq, hmovable⟩ := mem_movableBlocks_iff.mp hmem
    -- A window of such a length is not empty.
    have hlength := mem_blockSizes_iff.mp hsize
    have hne : block ≠ [] := List.ne_nil_of_length_pos (by omega)
    obtain ⟨hbegins, hafter, hchars⟩ := (isMovable_iff hne).mp hmovable
    exact ⟨⟨ls, hls, before, after, heq, hafter⟩, hlength, hbegins, hchars,
      (two_le_occurrences_iff hne).mp htwice⟩
  · intro h
    obtain ⟨ls, hls, before, after, heq, hafter⟩ := h.window
    have hlength := h.length
    have hne : block ≠ [] := List.ne_nil_of_length_pos (by omega)
    have hmovable := (isMovable_iff hne).mpr ⟨h.begins, hafter, h.chars⟩
    refine ⟨?_, (two_le_occurrences_iff hne).mpr h.twice⟩
    refine List.mem_flatMap.mpr ⟨ls, hls, List.mem_flatMap.mpr ⟨block.length, ?_, ?_⟩⟩
    · exact mem_blockSizes_iff.mpr hlength
    · exact mem_movableBlocks_iff.mpr ⟨rfl, before, after, heq, hmovable⟩

/-! ### The choice -/

/-- There is a reason to pass a block over: one of the chosen ones overlaps it, or there are as many
as are made, and all are at least as long. -/
def IsCovered (chosen : List Text) (b : Text) : Prop :=
  (∃ c ∈ chosen, overlaps b c = true) ∨
    chosen.length = maxHelpers ∧ ∀ c ∈ chosen, b.length ≤ c.length

/-- Two texts overlap if one holds the other. -/
theorem overlaps_iff {a b : Text} : overlaps a b = true ↔ a <:+: b ∨ b <:+: a := by
  rw [overlaps, Bool.or_eq_true, holds_iff, holds_iff, or_comm]

/-- The blocks are looked at with the longest first. -/
theorem pairwise_longest_first (bs : List Text) :
    (bs.mergeSort fun a b => decide (b.length ≤ a.length)).Pairwise
      fun a b => b.length ≤ a.length := by
  have htrans : ∀ a b c : Text, decide (b.length ≤ a.length) = true →
      decide (c.length ≤ b.length) = true → decide (c.length ≤ a.length) = true := by
    intro a b c hab hbc
    rw [decide_eq_true_eq] at *
    omega
  have htotal : ∀ a b : Text,
      (decide (b.length ≤ a.length) || decide (a.length ≤ b.length)) = true := by
    intro a b
    rw [Bool.or_eq_true, decide_eq_true_eq, decide_eq_true_eq]
    omega
  exact (List.pairwise_mergeSort htrans htotal bs).imp fun hab => of_decide_eq_true hab

/-- A run of the choice through blocks, the longest first: the blocks chosen so far stay, those that
are added come from the others in their order, no more than are made, and none is passed over
without a reason. -/
theorem chooseBlocks_spec {chosen bs : List Text} (hlength : chosen.length ≤ maxHelpers)
    (hsorted : (chosen ++ bs).Pairwise fun a b => b.length ≤ a.length) :
    chosen <+: chooseBlocks chosen bs ∧
      (chooseBlocks chosen bs).Sublist (chosen ++ bs) ∧
      (chooseBlocks chosen bs).length ≤ maxHelpers ∧
      ∀ b ∈ bs, IsCovered (chooseBlocks chosen bs) b := by
  induction bs generalizing chosen with
  | nil =>
    rw [chooseBlocks, List.append_nil]
    exact ⟨List.prefix_rfl, List.Sublist.refl _, hlength, List.forall_mem_nil _⟩
  | cons b bs ih =>
    have hlonger : ∀ b' ∈ b :: bs, ∀ c ∈ chosen, b'.length ≤ c.length := fun b' hb' c hc =>
      (List.pairwise_append.mp hsorted).2.2 c hc b' hb'
    rw [chooseBlocks]
    split
    · next hfull =>
      refine ⟨List.prefix_rfl, List.sublist_append_left _ _, hlength, fun b' hb' => ?_⟩
      exact .inr ⟨Nat.le_antisymm hlength hfull, hlonger b' hb'⟩
    · next hroom =>
      split
      · next hoverlap =>
        have hpass : (chosen ++ bs).Sublist (chosen ++ b :: bs) :=
          (List.sublist_cons_self b bs).append_left chosen
        obtain ⟨hkeeps, hsub, hle, hcovers⟩ := ih hlength (hsorted.sublist hpass)
        refine ⟨hkeeps, hsub.trans hpass, hle, List.forall_mem_cons.mpr ⟨?_, hcovers⟩⟩
        obtain ⟨c, hc, hbc⟩ := List.any_eq_true.mp hoverlap
        exact .inl ⟨c, hkeeps.subset hc, hbc⟩
      · have hlist : chosen ++ [b] ++ bs = chosen ++ b :: bs := by simp
        have hlength' : (chosen ++ [b]).length ≤ maxHelpers := by
          rw [List.length_append, List.length_singleton]
          omega
        obtain ⟨hkeeps, hsub, hle, hcovers⟩ := ih hlength' (hlist ▸ hsorted)
        refine ⟨(List.prefix_append chosen [b]).trans hkeeps, hlist ▸ hsub, hle,
          List.forall_mem_cons.mpr ⟨?_, hcovers⟩⟩
        -- The block is chosen itself.
        refine .inl ⟨b, hkeeps.subset (List.mem_append_right _ List.mem_cons_self), ?_⟩
        exact overlaps_iff.mpr (.inl (List.infix_refl b))

/-- The chosen blocks are three at most. All are eligible, each is at least as long as the next one,
and none is part of another one. An eligible window is part of a chosen block, or has one as a part,
or there are three chosen blocks and it is longer than none of them. -/
theorem findDuplicates_maximal (sources : List Text) :
    (findDuplicates sources).length ≤ 3 ∧
    (∀ b ∈ findDuplicates sources, ∃ block, IsEligible (sources.map lines) block ∧
      b = unlines block) ∧
    ((findDuplicates sources).Pairwise fun a b => b.length ≤ a.length) ∧
    ((findDuplicates sources).Pairwise fun a b => ¬a <:+: b ∧ ¬b <:+: a) ∧
    ∀ block, IsEligible (sources.map lines) block →
      (∃ b ∈ findDuplicates sources, unlines block <:+: b ∨ b <:+: unlines block) ∨
      (findDuplicates sources).length = 3 ∧
        ∀ b ∈ findDuplicates sources, (unlines block).length ≤ b.length := by
  have hapart : (findDuplicates sources).Pairwise fun a b => overlaps b a = false :=
    pairwise_chooseBlocks _ List.Pairwise.nil
  rw [findDuplicates] at hapart ⊢
  generalize hfound : ((repeatedBlocks (sources.map lines)).map unlines).mergeSort
    (fun a b => decide (b.length ≤ a.length)) = found at hapart ⊢
  -- The candidates are the eligible windows, with the longest in front.
  have hmem : ∀ b, b ∈ found ↔ ∃ block, IsEligible (sources.map lines) block ∧
      b = unlines block := by
    intro b
    rw [← hfound, List.mem_mergeSort, List.mem_map]
    simp only [mem_repeatedBlocks_iff, eq_comm]
  have hsorted : found.Pairwise fun a b => b.length ≤ a.length := by
    rw [← hfound]
    exact pairwise_longest_first _
  -- Nothing is chosen yet, which is what the induction starts from.
  have hstart : (([] : List Text) ++ found).Pairwise fun a b => b.length ≤ a.length := by
    rwa [List.nil_append]
  obtain ⟨-, hsub, hle, hcovers⟩ := chooseBlocks_spec (Nat.zero_le _) hstart
  rw [List.nil_append] at hsub
  refine ⟨hle, fun b hb => (hmem b).mp (hsub.subset hb), hsorted.sublist hsub, ?_, ?_⟩
  · refine hapart.imp fun {a b} hoverlap => ?_
    rw [← Bool.not_eq_true, overlaps_iff, not_or] at hoverlap
    exact hoverlap.symm
  · intro block hblock
    rcases hcovers _ ((hmem _).mpr ⟨block, hblock, rfl⟩) with ⟨b, hb, hoverlap⟩ | hfull
    · exact .inl ⟨b, hb, overlaps_iff.mp hoverlap⟩
    · exact .inr hfull

/-- The theorem at cells with two repeated blocks: the first one is eligible, and as there are no
three chosen blocks, it is part of one or has one as a part. -/
theorem findDuplicates_maximal_loading :
    IsEligible (sourcesOf loadingCells) (lines loadBlock) ∧
      (findDuplicates (NameMaker.codeOf loadingCells)).length ≠ 3 ∧
      ∃ b ∈ findDuplicates (NameMaker.codeOf loadingCells),
        unlines (lines loadBlock) <:+: b ∨ b <:+: unlines (lines loadBlock) := by
  have heligible : IsEligible (sourcesOf loadingCells) (lines loadBlock) :=
    mem_repeatedBlocks_iff.mp (by decide +kernel)
  have htwo : (findDuplicates (NameMaker.codeOf loadingCells)).length ≠ 3 := by
    rw [findDuplicates_loadingCells]
    decide
  obtain ⟨-, -, -, -, hcovers⟩ := findDuplicates_maximal (NameMaker.codeOf loadingCells)
  exact ⟨heligible, htwo, (hcovers _ heligible).resolve_right fun hfull => htwo hfull.1⟩

end Notebook

end CodeTidy
