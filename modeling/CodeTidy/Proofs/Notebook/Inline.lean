import CodeTidy.Proofs.Notebook.Blocks

/-!
# `CodeTidy.Proofs.Notebook.Inline`: functions put back in place of their calls

A repeated block that has become a function can be put back: `inlineCalls` reads
each line that calls a function as the lines of its block, and any other line as
itself. Blocks call no functions, so calls are read once only, and the order in
which the blocks were replaced does not matter. The theorems:

* `flatMap_replaceBlocks`: replaced blocks are not noticed when calls are read so.
* `callBlocks_eq_update`: a cell in which blocks are replaced is the old one with
  another source.
* `extractDuplicates_undone`: all cells are restored.
-/

set_option autoImplicit false

namespace CodeTidy

open Text

namespace Notebook

/-- The lines that a line stands for: a call stands for the block, any other line for itself. The
calls are numbered from `n` on. -/
def expandLine : (n : Nat) → (blocks : List Text) → Text → List Text
  | _, [], l => [l]
  | n, b :: bs, l => if l = helperCall n then lines b else expandLine (n + 1) bs l

/-- The text with each call of a function replaced by the block. -/
def inlineCalls (blocks : List Text) (t : Text) : Text :=
  unlines ((lines t).flatMap (expandLine 1 blocks))

/-! ### What calls stand for -/

variable {blocks : List Text} {n : Nat}

/-- A line that calls no function stands for itself. -/
theorem expandLine_of_ne {l : Text} (h : ∀ k, l ≠ helperCall k) : expandLine n blocks l = [l] := by
  induction blocks generalizing n with
  | nil => rfl
  | cons b bs ih => rw [expandLine, if_neg (h n), ih]

/-- Without calls of helpers nothing is put back. -/
theorem flatMap_expandLine_of_not_mem {ls : List Text} (h : ∀ k, helperCall k ∉ ls) :
    ls.flatMap (expandLine n blocks) = ls := by
  induction ls with
  | nil => rfl
  | cons l ls ih =>
    simp only [List.mem_cons, not_or] at h
    rw [List.flatMap_cons, expandLine_of_ne fun k => Ne.symm (h k).1, ih fun k => (h k).2,
      List.singleton_append]

/-- The call for a block stands for its lines. -/
theorem expandLine_helperCall {b : Text} (before after : List Text) :
    expandLine n (before ++ b :: after) (helperCall (n + before.length)) = lines b := by
  induction before generalizing n with
  | nil => rw [List.nil_append, expandLine, List.length_nil, Nat.add_zero, if_pos rfl]
  | cons b' before ih =>
    have hother : helperCall (n + (b' :: before).length) ≠ helperCall n := by
      intro heq
      have hn := helperCall_injective heq
      rw [List.length_cons] at hn
      omega
    have hlength : n + (b' :: before).length = n + 1 + before.length := by
      rw [List.length_cons]
      omega
    rw [List.cons_append, expandLine, if_neg hother, hlength]
    exact ih

/-- Replaced blocks are not noticed by whoever reads the calls for them as their lines. -/
theorem flatMap_replaceBlocks (hblocks : ∀ b ∈ blocks, ∀ k, helperCall k ∉ lines b)
    (ls : List Text) :
    (replaceBlocks 1 blocks ls).flatMap (expandLine 1 blocks) =
      ls.flatMap (expandLine 1 blocks) := by
  -- One block after the other: `before` has been replaced, and the calls are those of all blocks.
  have hrun : ∀ before after, before ++ after = blocks → ∀ ls,
      (replaceBlocks (1 + before.length) after ls).flatMap (expandLine 1 blocks) =
        ls.flatMap (expandLine 1 blocks) := by
    intro before after
    induction after generalizing before with
    | nil => exact fun _ _ => rfl
    | cons b after ih =>
      intro hsplit ls
      have hcall : expandLine 1 blocks (helperCall (1 + before.length)) =
          (lines b).flatMap (expandLine 1 blocks) := by
        have hb : b ∈ blocks := by simp [← hsplit]
        rw [flatMap_expandLine_of_not_mem (hblocks b hb), ← hsplit, expandLine_helperCall]
      have hrest := ih (before ++ [b]) (by simp [← hsplit])
      rw [List.length_append, List.length_singleton, ← Nat.add_assoc] at hrest
      rw [replaceBlocks, hrest, flatMap_replaceFrom (lines_ne_nil b) hcall]
  exact hrun [] blocks rfl ls

/-! ### Cells -/

/-- A block that is replaced leaves a call, else the source is the old one. -/
theorem source_callHelper_cases (n : Nat) (b : Text) {cell : Cell} (h : cell.isCode = true) :
    (callHelper n b cell).source = cell.source ∨
      helperCall n ∈ lines (callHelper n b cell).source := by
  rw [lines_callHelper n b h, or_iff_not_imp_right]
  intro hnone
  rw [← unlines_lines (callHelper n b cell).source, lines_callHelper n b h,
    replaceFrom_eq_self_of_not_mem (lines_ne_nil b) hnone, unlines_lines]

/-- A call stays while other blocks are replaced. -/
theorem helperCall_mem_callBlocks {cell : Cell} (hcode : cell.isCode = true)
    (hblocks : ∀ b ∈ blocks, ∀ k, helperCall k ∉ lines b)
    (h : helperCall n ∈ lines cell.source) :
    helperCall n ∈ lines (callBlocks (n + 1) blocks cell).source := by
  have hother : ∀ k, n + 1 ≤ k → k < n + 1 + blocks.length → helperCall n ≠ helperCall k := by
    intro k hk _ heq
    have hn := helperCall_injective heq
    omega
  rw [lines_callBlocks _ _ hcode, ← List.count_pos_iff,
    count_replaceBlocks hother fun b hb => hblocks b hb n]
  exact List.count_pos_iff.mpr h

/-- No source comes back while blocks are replaced, as a call that has been written stays. So
several edits of a cell are one. -/
theorem callBlocks_eq_update {cell : Cell} (hcode : cell.isCode = true)
    (hblocks : ∀ b ∈ blocks, ∀ k, helperCall k ∉ lines b)
    (hcell : ∀ k, n ≤ k → helperCall k ∉ lines cell.source) :
    callBlocks n blocks cell = cell.update (callBlocks n blocks cell).source := by
  induction blocks generalizing n cell with
  | nil => exact (if_pos rfl).symm
  | cons b bs ih =>
    rw [List.forall_mem_cons] at hblocks
    have hcode' : (callHelper n b cell).isCode = true := by rw [isCode_callHelper, hcode]
    have hcell' : ∀ k, n + 1 ≤ k → helperCall k ∉ lines (callHelper n b cell).source := by
      intro k hk hmem
      rw [lines_callHelper n b hcode] at hmem
      rcases mem_of_mem_replaceFrom (lines_ne_nil b) hmem with heq | hold
      · have hn := helperCall_injective heq
        omega
      · exact hcell k (by omega) hold
    have hstep : callHelper n b cell = cell.update (callHelper n b cell).source := by
      rw [callHelper, if_pos hcode, Cell.source_update _ hcode]
    -- A source with a call in it stays different from the old one, which has none.
    have hback : (callHelper n b cell).source = cell.source ∨
        (callBlocks n (b :: bs) cell).source ≠ cell.source := by
      refine (source_callHelper_cases n b hcode).imp_right fun hwritten hback => ?_
      have hstays := helperCall_mem_callBlocks hcode' hblocks.2 hwritten
      rw [← callBlocks, hback] at hstays
      exact hcell n (Nat.le_refl n) hstays
    calc callBlocks n (b :: bs) cell
        = (callHelper n b cell).update (callBlocks n (b :: bs) cell).source :=
          ih hcode' hblocks.2 hcell'
      _ = (cell.update (callHelper n b cell).source).update (callBlocks n (b :: bs) cell).source :=
          congrArg (Cell.update _) hstep
      _ = cell.update (callBlocks n (b :: bs) cell).source := Cell.update_update hcode hback

/-- The cell is the old one with another source, from which the old source is restored. A cell
without code is the old one. -/
structure InlinesTo (blocks : List Text) (cell' cell : Cell) : Prop where
  isCode : cell'.isCode = cell.isCode
  other : cell.isCode = false → cell' = cell
  code : cell.isCode = true → cell' = cell.update cell'.source
  source : cell.isCode = true → inlineCalls blocks cell'.source = cell.source

/-- The blocks put back for the calls give the cell as it was. -/
theorem inlinesTo_callBlocks {cell : Cell}
    (hblocks : ∀ b ∈ blocks, ∀ k, helperCall k ∉ lines b)
    (hcell : cell.isCode = true → holds cell.source "helper_function_" = false) :
    InlinesTo blocks (callBlocks 1 blocks cell) cell where
  isCode := isCode_callBlocks 1 blocks cell
  other := callBlocks_of_other 1 blocks
  code hcode := callBlocks_eq_update hcode hblocks fun k _ =>
    helperCall_not_mem_lines (hcell hcode) k
  source hcode := by
    rw [inlineCalls, lines_callBlocks 1 blocks hcode, flatMap_replaceBlocks hblocks,
      flatMap_expandLine_of_not_mem (helperCall_not_mem_lines (hcell hcode)), unlines_lines]

/-- The cells that come out are the old ones, with a note and the cell of functions between them if
there are functions. If no cell mentions a function, each old cell is restored when the calls are
replaced by the blocks. -/
theorem extractDuplicates_undone {cells : List Cell} (h : MentionsNoHelper cells) :
    ∃ before inserted after,
      extractDuplicates cells = before ++ inserted ++ after ∧
      inserted = (if findDuplicates (NameMaker.codeOf cells) = [] then [] else
        [Cell.newMarkdown helpersNote,
          helpersCell (findDuplicates (NameMaker.codeOf cells))]) ∧
      List.Forall₂ (InlinesTo (findDuplicates (NameMaker.codeOf cells))) (before ++ after)
        cells := by
  obtain ⟨before, after, hold, hnew⟩ := extractDuplicates_eq cells
  refine ⟨before, _, after, hnew, rfl, ?_⟩
  rw [hold, callHelpers_eq_map, List.forall₂_map_left_iff, List.forall₂_same]
  exact fun c hc => inlinesTo_callBlocks (fun b hb k => h.not_mem_block hb k) (h c hc)

/-- The theorem at cells with two repeated blocks. -/
theorem extractDuplicates_undone_loading :
    MentionsNoHelper loadingCells ∧ ∃ before after,
      extractDuplicates loadingCells =
        before ++ [Cell.newMarkdown helpersNote, helpersCell [loadBlock, sumBlock]] ++ after ∧
      List.Forall₂ (InlinesTo [loadBlock, sumBlock]) (before ++ after) loadingCells := by
  have hnone := mentionsNoHelper_loadingCells
  obtain ⟨before, inserted, after, hnew, hinserted, hold⟩ := extractDuplicates_undone hnone
  rw [findDuplicates_loadingCells] at hinserted hold
  rw [if_neg (List.cons_ne_nil _ _)] at hinserted
  exact ⟨hnone, before, after, hinserted ▸ hnew, hold⟩

end Notebook

end CodeTidy
