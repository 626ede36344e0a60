import CodeTidy.Proofs.Constant.Fresh
import CodeTidy.Proofs.Constant.Substitute
import CodeTidy.Proofs.Notebook.Constants

/-!
# `CodeTidy.Proofs.Notebook.Order`: names are defined before they are used

A notebook that is restructured gets a cell of constants first and a cell of
functions last, and in between its cells are rewritten and split.
`ConstantsFirst` says that the cell of constants is the first one with code, and
that no other cell defines one of its constants. Each stage keeps that. The
functions stand behind the constants then, and in front of all their calls. The
theorems:

* `constantsFirst_hoistConstants`, `ConstantsFirst.transformed`,
  `ConstantsFirst.splitLongCells`: the stages up to the split.
* `ConstantsFirst.extractDuplicates`: the last stage leaves the cell of constants
  where it is.
* `definedFirst_constants`, `definedFirst_extractDuplicates`: constants and functions are defined
  before they are mentioned.
* `Refactor.refactorNotebook_defines_before_use`: the notebook.
-/

set_option autoImplicit false

namespace CodeTidy

open Text Constant

namespace Notebook

/-! ### Definitions before uses -/

/-- The cell `definer` is among the cells, and no cell with code in front of it mentions one of the
names. -/
def DefinedFirst (names : List Text) (definer : Cell) (cells : List Cell) : Prop :=
  ∃ before after, cells = before ++ definer :: after ∧
    ∀ c ∈ before, c.isCode = true → ∀ name ∈ names, holds c.source name = false

/-- What the names begin with that are made up, and those that constants have for themselves. -/
def reservedNames : List Text :=
  "helper_function_".toList :: namePrefix :: knownNames.map Prod.snd

/-- A text that holds none of the reserved words holds no name for a number. -/
theorem holds_name {t : Text} (h : ∀ w ∈ reservedNames, holds t w = false) (n : Text) :
    holds t (name n) = false := by
  rcases name_cases n with hn | hn
  · exact h _ (List.mem_cons_of_mem _ (List.mem_cons_of_mem _ (List.mem_map_of_mem hn)))
  · rw [Bool.eq_false_iff, Ne, holds_iff, hn]
    intro hinfix
    have hnot := h namePrefix (List.mem_cons_of_mem _ List.mem_cons_self)
    rw [holds_iff.mpr ((List.prefix_append namePrefix n).isInfix.trans hinfix)] at hnot
    cases hnot

/-! ### The constants, stage by stage -/

/-- The cell of constants is the first one with code, and no other cell defines a constant. -/
structure ConstantsFirst (ns : List Text) (before after : List Cell) : Prop where
  numbers : ∀ n ∈ ns, IsNumber n
  nodup : ns.Nodup
  others : ∀ c ∈ before, c.isCode = false
  undefined : ∀ c ∈ after, c.isCode = true → ∀ n ∈ ns, Constant.definition n ∉ lines c.source

/-- The cells with the cell of constants among them. -/
def withConstants (ns : List Text) (before after : List Cell) : List Cell :=
  before ++ constantsCell ns :: after

/-- Once constants are hoisted, their cell stands in front of all code, which does not define them
itself. -/
theorem constantsFirst_hoistConstants {cells : List Cell}
    (hfresh : ∀ c ∈ cells, c.isCode = true → ∀ w ∈ reservedNames, holds c.source w = false)
    (hne : hoistedNumbers cells ≠ []) :
    ∃ before after, hoistConstants cells = withConstants (hoistedNumbers cells) before after ∧
      ConstantsFirst (hoistedNumbers cells) before after := by
  generalize hns : hoistedNumbers cells = ns at hne
  -- The constants go in front of the first cell with code, with a note in front of them.
  refine ⟨(cells.map (nameNumbers ns)).takeWhile (fun c => !c.isCode) ++
    [Cell.newMarkdown constantsNote], (cells.map (nameNumbers ns)).dropWhile (fun c => !c.isCode),
    ?_, ?_, ?_, ?_, ?_⟩
  · rw [hoistConstants, hns]
    rw [if_neg (by simpa using hne), beforeCode, constantCells_eq, withConstants]
    simp
  · intro n hn
    exact isNumber_of_mem_hoistedNumbers (hns ▸ hn)
  · exact hns ▸ nodup_repeated _ _
  · intro c hc
    rw [List.mem_append, List.mem_singleton] at hc
    rcases hc with hc | rfl
    · simpa using List.mem_takeWhile_imp hc
    · rfl
  · intro c hc hcode n hn
    obtain ⟨c₀, hc₀, rfl⟩ := List.mem_map.mp ((List.dropWhile_suffix _).subset hc)
    rw [nameNumbers] at hcode ⊢
    split at hcode
    · next hcode₀ =>
      rw [if_pos hcode₀, Cell.source_update _ hcode₀]
      exact definition_not_mem_substitute hn (isNumber_of_mem_hoistedNumbers (hns ▸ hn))
        (holds_name (hfresh c₀ hc₀ hcode₀) n)
    · next hother => exact absurd hcode hother

end Notebook

namespace Refactor

open Notebook (ConstantsFirst withConstants constantsCell transformCell_constantsCell)

/-- Cells without code stay as they are. -/
theorem mapM_transformCell_others {cells : List Cell} (h : ∀ c ∈ cells, c.isCode = false) :
    cells.mapM transformCell = .ok cells := by
  have hsame : cells.mapM transformCell = .ok (cells.map id) := by
    refine mapM_eq_ok_map fun c hc => ?_
    rw [transformCell, h c hc, if_neg Bool.false_ne_true]
    rfl
  rw [hsame, List.map_id]

end Refactor

namespace Notebook

variable {ns : List Text} {before after : List Cell}

/-- The rules leave the cell of constants where it is. -/
theorem ConstantsFirst.transformed (h : ConstantsFirst ns before after) {cells : List Cell}
    (hok : (withConstants ns before after).mapM Refactor.transformCell = .ok cells) :
    ∃ after', cells = withConstants ns before after' ∧ ConstantsFirst ns before after' := by
  rw [withConstants, List.mapM_append, Refactor.mapM_transformCell_others h.others,
    List.mapM_cons, transformCell_constantsCell h.numbers] at hok
  obtain ⟨_, hbefore, hok⟩ := ok_of_bind hok
  obtain ⟨later, hlater, hok⟩ := ok_of_bind hok
  obtain ⟨_, hconstants, hlater⟩ := ok_of_bind hlater
  obtain ⟨after', hafter, hlater⟩ := ok_of_bind hlater
  cases hbefore
  cases hconstants
  cases hlater
  cases hok
  refine ⟨after', rfl, h.numbers, h.nodup, h.others, fun c' hc' hcode n hn hline => ?_⟩
  -- A line that defines a constant after the rules did so before them, in the same cell.
  obtain ⟨c, hc, htransform⟩ := exists_of_mem_mapM hafter hc'
  have hold := h.undefined c hc
  rw [Refactor.transformCell] at htransform
  split at htransform
  · next hcode' =>
    obtain ⟨s, hs, hupdate⟩ := ok_of_bind htransform
    cases hupdate
    rw [Cell.source_update _ hcode'] at hline
    exact hold hcode' n hn (Python.keepsDefinitions_cellRules hs _ hline
      (mayDefine_definition (h.numbers n hn)))
  · cases htransform
    exact hold hcode n hn hline

/-- The sections of a cell have no other lines than the cell. -/
theorem mem_lines_of_mem_sections {t s l : Text} {points : List Nat}
    (hs : s ∈ sections (lines t) points) (hl : l ∈ lines s) (hdefine : MayDefine l) :
    l ∈ lines t := by
  obtain ⟨p, -, rfl⟩ := List.mem_map.mp (List.mem_of_mem_filter hs)
  have hl := lines_dropAroundWhile_subset _ hl
  have hsubset : ((lines t).drop p.1).take (p.2 - p.1) ⊆ lines t :=
    List.Subset.trans (List.take_subset _ _) (List.drop_subset _ _)
  generalize ((lines t).drop p.1).take (p.2 - p.1) = ls at hl hsubset
  cases ls with
  | nil =>
    -- An empty section has one empty line, which defines nothing.
    obtain rfl : l = [] := by simpa [unlines, joinWith, lines, splitAtEach] using hl
    cases hdefine.equals
  | cons first ls =>
    rw [lines_unlines (List.cons_ne_nil first ls) fun l' hl' =>
      not_mem_of_mem_lines (hsubset hl')] at hl
    exact hsubset hl

/-- The split leaves the cell of constants where it is. -/
theorem ConstantsFirst.splitLongCells (h : ConstantsFirst ns before after) :
    ∃ after', splitLongCells (withConstants ns before after) = withConstants ns before after' ∧
      ConstantsFirst ns before after' := by
  -- The cells in front hold no code, so none of them is split.
  have hothers : before.flatMap splitCell = before := by
    have hsame : before.flatMap splitCell = before.flatMap (fun c => [c]) := by
      rw [List.flatMap_def, List.flatMap_def]
      congr 1
      refine List.map_congr_left fun c hc => ?_
      rw [splitCell, h.others c hc, if_neg Bool.false_ne_true]
    rw [hsame, List.flatMap_singleton']
  refine ⟨after.flatMap splitCell, ?_, h.numbers, h.nodup, h.others, ?_⟩
  · rw [Notebook.splitLongCells, withConstants, List.flatMap_append, List.flatMap_cons, hothers,
      splitCell_constantsCell h.numbers]
    rfl
  · intro c' hc' hcode n hn hline
    obtain ⟨c, hc, hmem⟩ := List.mem_flatMap.mp hc'
    have hold := h.undefined c hc
    rcases splitCell_cases c with hsame | ⟨hcode', -, hsplit⟩
    · rw [hsame, List.mem_singleton] at hmem
      subst hmem
      exact hold hcode n hn hline
    · -- A line of a new cell is one of the cell that was split.
      rw [hsplit, List.mem_cons, List.mem_map] at hmem
      rcases hmem with rfl | ⟨s, hs, rfl⟩
      · cases hcode
      · rw [Cell.source_newCode] at hline
        exact hold hcode' n hn (mem_lines_of_mem_sections hs hline
          (mayDefine_definition (h.numbers n hn)))

/-- No block that moves into a function begins with a line of the cell of constants. -/
theorem ConstantsFirst.not_mem_of_findDuplicates (h : ConstantsFirst ns before after) {b : Text}
    (hb : b ∈ findDuplicates
      (((withConstants ns before after).filter Cell.isCode).map Cell.source)) :
    ∃ first block, lines b = first :: block ∧ first ∉ lines (constantsSource ns) := by
  obtain ⟨first, block, hlines, hbegin, htwice⟩ := exists_of_mem_findDuplicates hb
  refine ⟨first, block, hlines, fun hmem => ?_⟩
  rw [lines_constantsSource h.numbers, List.mem_cons] at hmem
  rcases hmem with rfl | hmem
  · cases hbegin
  · obtain ⟨n, hn, rfl⟩ := List.mem_map.mp hmem
    -- The line stands once in the cell of constants, and in no other cell.
    have hcode : ((withConstants ns before after).filter Cell.isCode).map Cell.source =
        constantsSource ns :: (after.filter Cell.isCode).map Cell.source := by
      have hbefore : before.filter Cell.isCode = [] :=
        List.filter_eq_nil_iff.mpr fun c hc => by rw [h.others c hc]; exact Bool.false_ne_true
      rw [withConstants, List.filter_append, hbefore, List.nil_append,
        List.filter_cons_of_pos rfl, List.map_cons, constantsCell, Cell.source_newCode]
    have hlater : (((after.filter Cell.isCode).map Cell.source).map lines).flatten.count
        (Constant.definition n) = 0 := by
      refine List.count_eq_zero_of_not_mem fun hline => ?_
      obtain ⟨ls, hls, hline⟩ := List.mem_flatten.mp hline
      rw [List.map_map] at hls
      obtain ⟨c, hc, rfl⟩ := List.mem_map.mp hls
      obtain ⟨hc, hcode⟩ := List.mem_filter.mp hc
      exact h.undefined c hc hcode n hn hline
    have honce := List.nodup_iff_count_le_one.mp (nodup_lines_constantsSource h.numbers h.nodup)
      (Constant.definition n)
    have hle := Nat.le_trans htwice (occurrences_le_count _ block _)
    rw [hcode, List.map_cons, List.flatten_cons, List.count_append, hlater] at hle
    omega

/-- A function that is called for a block leaves the cell of constants where it is, if the block
does not begin with a line of that cell. -/
theorem callHelper_constantsCell {b first : Text} {block : List Text}
    (hb : lines b = first :: block)
    (hfirst : first ∉ lines (constantsSource ns)) (k : Nat) :
    callHelper k b (constantsCell ns) = constantsCell ns := by
  have hsource : (constantsCell ns).source = constantsSource ns := Cell.source_newCode _
  rw [callHelper, if_pos (show (constantsCell ns).isCode = true from rfl), hsource, hb,
    replaceFrom_eq_self hfirst, unlines_lines]
  exact if_pos hsource.symm

/-- Calls of helpers leave the cell with the constants and what stands in front of it. -/
theorem callHelpers_withConstants (after : List Cell)
    (hothers : ∀ c ∈ before, c.isCode = false) {blocks : List Text}
    (hblocks : ∀ b ∈ blocks, ∃ first block, lines b = first :: block ∧
      first ∉ lines (constantsSource ns)) (k : Nat) :
    ∃ after', callHelpers (withConstants ns before after) k blocks =
      withConstants ns before after' := by
  -- The invariant: the cell of constants is where it was, whatever became of the cells behind it.
  induction blocks generalizing after k with
  | nil => exact ⟨after, rfl⟩
  | cons b blocks ih =>
    rw [List.forall_mem_cons] at hblocks
    obtain ⟨⟨first, block, hb, hfirst⟩, hblocks⟩ := hblocks
    have hbefore : before.map (callHelper k b) = before := by
      have hsame : ∀ c ∈ before, callHelper k b c = id c := by
        intro c hc
        rw [callHelper, hothers c hc, if_neg Bool.false_ne_true]
        rfl
      rw [List.map_congr_left hsame, List.map_id]
    have hcalled : (withConstants ns before after).map (callHelper k b) =
        withConstants ns before (after.map (callHelper k b)) := by
      rw [withConstants, List.map_append, List.map_cons, hbefore,
        callHelper_constantsCell hb hfirst]
      rfl
    rw [callHelpers, hcalled]
    exact ih _ hblocks (k + 1)

/-- The cell of constants is neither plain code nor does it call a function. -/
theorem comesFirst_constantsCell (h : ∀ n ∈ ns, IsNumber n) :
    (callsHelper (constantsCell ns) || isPlainCode (constantsCell ns)) = false := by
  have hcalls : holds (constantsSource ns) "helper_function_" = false := by
    rw [Bool.eq_false_iff, Ne, holds_iff]
    intro hinfix
    -- The name of a function would stand on one of the lines: the first one or a definition.
    obtain ⟨l, hl, hinfix⟩ := exists_line_of_infix (by decide) hinfix
    rw [lines_constantsSource h, List.mem_cons] at hl
    rcases hl with rfl | hl
    · have hheader : holds constantsHeader "helper_function_" = false := by decide
      rw [holds_iff.mpr hinfix] at hheader
      cases hheader
    · obtain ⟨n, hn, rfl⟩ := List.mem_map.mp hl
      exact (mayDefine_definition (h n hn)).not_holds (by decide) hinfix
  have hstart : startsWith (constantsSource ns) constantsHeader = true := by
    rw [startsWith, List.isPrefixOf_iff_prefix, constantsSource]
    cases ns with
    | nil => exact List.prefix_rfl
    | cons n ns =>
      rw [List.map_cons, unlines_cons _ (List.cons_ne_nil _ _)]
      exact List.prefix_append _ _
  have hsource : (constantsCell ns).source = constantsSource ns := Cell.source_newCode _
  rw [callsHelper, isPlainCode, hsource, hcalls, hstart, Bool.not_true, Bool.and_false,
    Bool.and_false, Bool.or_false]

/-- What is put in before the calls stands behind the cell of constants. -/
theorem beforeCalls_withConstants (hnumbers : ∀ n ∈ ns, IsNumber n)
    (hothers : ∀ c ∈ before, c.isCode = false) (extra : List Cell) :
    ∃ after', beforeCalls extra (withConstants ns before after) =
      withConstants ns before after' := by
  -- Neither the cells in front nor the cell of constants is one to stop at.
  have hpass : ∀ c ∈ before ++ [constantsCell ns],
      (!(callsHelper c || isPlainCode c)) = true := by
    intro c hc
    rw [List.mem_append, List.mem_singleton] at hc
    rcases hc with hc | rfl
    · rw [callsHelper, isPlainCode, hothers c hc]
      rfl
    · rw [comesFirst_constantsCell hnumbers]
      rfl
  refine ⟨after.takeWhile (fun c => !(callsHelper c || isPlainCode c)) ++ extra ++
    after.dropWhile (fun c => !(callsHelper c || isPlainCode c)), ?_⟩
  have hsplit : withConstants ns before after = (before ++ [constantsCell ns]) ++ after :=
    List.append_cons before (constantsCell ns) after
  rw [hsplit, beforeCalls]
  dsimp only
  rw [List.takeWhile_append_of_pos hpass, List.dropWhile_append_of_pos hpass, withConstants]
  simp only [List.append_assoc, List.cons_append, List.nil_append]

/-- The last stage leaves the cell of constants where it is. -/
theorem ConstantsFirst.extractDuplicates (h : ConstantsFirst ns before after) :
    ∃ after', extractDuplicates (withConstants ns before after) =
      withConstants ns before after' := by
  rw [Notebook.extractDuplicates]
  split
  · exact ⟨after, rfl⟩
  · obtain ⟨after', hcalled⟩ := callHelpers_withConstants after h.others
      (fun b hb => h.not_mem_of_findDuplicates hb) 1
    rw [hcalled]
    exact beforeCalls_withConstants h.numbers h.others _

/-! ### The functions -/

/-- The cell that defines the functions for the given blocks. -/
def helpersCell (blocks : List Text) : Cell :=
  Cell.newCode (helpersHeader ++ "\n" ++ joinWith "\n\n\n" (helperSources 1 blocks))

/-- What is put in before the calls stands before each code cell that mentions a function. -/
theorem definedFirst_beforeCalls (blocks : List Text) (cells : List Cell) (k : Nat) :
    DefinedFirst ((List.range k).map (fun i => helperName (i + 1))) (helpersCell blocks)
      (beforeCalls (helperCells blocks) cells) := by
  refine ⟨cells.takeWhile (fun c => !(callsHelper c || isPlainCode c)) ++
    [Cell.newMarkdown helpersNote], cells.dropWhile (fun c => !(callsHelper c || isPlainCode c)),
    ?_, ?_⟩
  · rw [beforeCalls, helperCells, helpersCell]
    simp
  · intro c hc hcode name hname
    obtain ⟨i, -, rfl⟩ := List.mem_map.mp hname
    rw [List.mem_append, List.mem_singleton] at hc
    rcases hc with hc | rfl
    · -- The cells in front were passed because they hold no name of a function.
      have hnot := List.mem_takeWhile_imp hc
      rw [Bool.not_eq_true', Bool.or_eq_false_iff, callsHelper, hcode, Bool.true_and] at hnot
      rw [Bool.eq_false_iff, Ne, holds_iff]
      intro hinfix
      have hprefix : "helper_function_".toList <+: helperName (i + 1) :=
        ⟨ofNat (i + 1), rfl⟩
      have hheld := holds_iff.mpr (List.IsInfix.trans (List.IsPrefix.isInfix hprefix) hinfix)
      rw [hnot.1] at hheld
      cases hheld
    · cases hcode

/-- The functions for repeated blocks are defined before they are called. -/
theorem definedFirst_extractDuplicates {cells : List Cell}
    (h : NameMaker.made (.extractDuplicates cells) ≠ []) :
    DefinedFirst (NameMaker.made (.extractDuplicates cells))
      (helpersCell (findDuplicates (NameMaker.codeOf cells))) (extractDuplicates cells) := by
  have hblocks : (findDuplicates (NameMaker.codeOf cells)).isEmpty = false := by
    cases hfound : findDuplicates (NameMaker.codeOf cells) with
    | nil => exact absurd (by rw [NameMaker.made, hfound]; rfl) h
    | cons b blocks => rfl
  have hextract : extractDuplicates cells =
      beforeCalls (helperCells (findDuplicates (NameMaker.codeOf cells)))
        (callHelpers cells 1 (findDuplicates (NameMaker.codeOf cells))) :=
    if_neg (by rw [← NameMaker.codeOf, hblocks]; exact Bool.false_ne_true)
  rw [hextract]
  exact definedFirst_beforeCalls _ _ _

/-- No code cell stands before the cell of constants, so none mentions a constant there. -/
theorem definedFirst_withConstants (hothers : ∀ c ∈ before, c.isCode = false) (names : List Text) :
    DefinedFirst names (constantsCell ns) (withConstants ns before after) := by
  refine ⟨before, after, rfl, fun c hc hcode => ?_⟩
  rw [hothers c hc] at hcode
  cases hcode

/-- The constants are defined before they are mentioned, after all stages. -/
theorem definedFirst_constants {cells rewritten : List Cell}
    (hfresh : ∀ c ∈ cells, c.isCode = true → ∀ w ∈ reservedNames, holds c.source w = false)
    (hne : hoistedNumbers cells ≠ [])
    (hrules : (hoistConstants cells).mapM Refactor.transformCell = .ok rewritten) :
    DefinedFirst ((hoistedNumbers cells).map name) (constantsCell (hoistedNumbers cells))
      (extractDuplicates (splitLongCells rewritten)) := by
  obtain ⟨before, after, hhoist, hfirst⟩ := constantsFirst_hoistConstants hfresh hne
  rw [hhoist] at hrules
  obtain ⟨after, rfl, hfirst⟩ := hfirst.transformed hrules
  obtain ⟨after, hsplit, hfirst⟩ := hfirst.splitLongCells
  obtain ⟨after, hextract⟩ := hfirst.extractDuplicates
  rw [hsplit, hextract]
  exact definedFirst_withConstants hfirst.others _

end Notebook

namespace Refactor

open Notebook (DefinedFirst constantsCell helpersCell)

/-- The notebook that is made of a notebook with restructuring, and the cells after the rules. -/
theorem exists_of_refactorNotebook {t t' : Text} {nb : Notebook}
    (h : Notebook.parse? t = .ok (some nb)) (hok : refactorNotebook true t = .ok t') :
    ∃ nb' rewritten, Notebook.parse? t' = .ok (some nb') ∧
      (Notebook.hoistConstants nb.cells).mapM transformCell = .ok rewritten ∧
      nb'.cells = Notebook.extractDuplicates (Notebook.splitLongCells rewritten) := by
  rw [refactorNotebook, h] at hok
  obtain ⟨read, hread, hok⟩ := ok_of_bind hok
  cases hread
  obtain ⟨cells, hcells, hwrite⟩ := ok_of_bind hok
  cases hwrite
  have hrefactored := mapError_eq_ok_iff.mp hcells
  have hnb := Notebook.readable_of_parse? h
  have hkeeps := keeps_refactorCells hrefactored
  rw [refactorCells] at hrefactored
  obtain ⟨rewritten, hrules, hcells⟩ := ok_of_bind hrefactored
  cases hcells
  exact ⟨_, rewritten, hnb.parse?_write (hkeeps.fits hnb.fits) (hkeeps.hasCode hnb.hasCode),
    hrules, rfl⟩

/-- Names are defined before they are used. If no code cell of a notebook holds one of the reserved
names, then in the notebook that is made of it with restructuring no code cell in front of the cell
of constants mentions one of the constants that were made up, and none in front of the cell of
functions mentions one of the functions. -/
theorem refactorNotebook_defines_before_use {t t' : Text} {nb : Notebook}
    (h : Notebook.parse? t = .ok (some nb))
    (hfresh : ∀ c ∈ nb.cells, c.isCode = true →
      ∀ w ∈ Notebook.reservedNames, Text.holds c.source w = false)
    (hok : refactorNotebook true t = .ok t') :
    ∃ nb' rewritten, Notebook.parse? t' = .ok (some nb') ∧
      (Notebook.hoistConstants nb.cells).mapM transformCell = .ok rewritten ∧
      (NameMaker.made (.hoistConstants nb.cells) ≠ [] →
        DefinedFirst (NameMaker.made (.hoistConstants nb.cells))
          (constantsCell (Notebook.hoistedNumbers nb.cells)) nb'.cells) ∧
      (NameMaker.made (.extractDuplicates (Notebook.splitLongCells rewritten)) ≠ [] →
        DefinedFirst (NameMaker.made (.extractDuplicates (Notebook.splitLongCells rewritten)))
          (helpersCell (Notebook.findDuplicates
            (NameMaker.codeOf (Notebook.splitLongCells rewritten)))) nb'.cells) := by
  obtain ⟨nb', rewritten, hparse, hrules, hcells⟩ := exists_of_refactorNotebook h hok
  refine ⟨nb', rewritten, hparse, hrules, fun hconstants => ?_, fun hfunctions => ?_⟩
  · rw [hcells]
    refine Notebook.definedFirst_constants hfresh (fun hnone => hconstants ?_) hrules
    rw [NameMaker.made, hnone]
    rfl
  · rw [hcells]
    exact Notebook.definedFirst_extractDuplicates hfunctions

/-- A notebook in which the cells are refactored. -/
theorem refactorNotebook_eq_ok {t : Text} {nb : Notebook} (h : Notebook.parse? t = .ok (some nb))
    {restructure : Bool} {cells : List Cell}
    (hcells : refactorCells restructure nb.cells = .ok cells) :
    refactorNotebook restructure t = .ok (nb.withCells cells).write := by
  rw [refactorNotebook, h]
  show ((refactorCells restructure nb.cells).mapError TransformError.rule >>=
    fun cells => .ok (nb.withCells cells).write) = _
  rw [hcells]
  rfl

/-- A notebook with a block in two cells, and a number twice in the block. -/
def loadingNotebook : Notebook :=
  let block : Text := "first = load(404)\nsecond = load(first, 404)\nprint(first, second)"
  ⟨[], [Cell.newMarkdown "Notes", Cell.newCode block, Cell.newCode block]⟩

/-- The block with a constant for the number. -/
def namedBlock : Text :=
  "first = load(CONSTANT_404)\nsecond = load(first, CONSTANT_404)\nprint(first, second)"

/-- The theorem at a notebook with a repeated number in a repeated block: a constant is made up, and
so is a function. -/
theorem refactorNotebook_defines_loading :
    ∃ t' nb', refactorNotebook true loadingNotebook.write = .ok t' ∧
      Notebook.parse? t' = .ok (some nb') ∧
      DefinedFirst ["CONSTANT_404"] (constantsCell ["404"]) nb'.cells ∧
      DefinedFirst ["helper_function_1"] (helpersCell [namedBlock]) nb'.cells := by
  have hreadable : loadingNotebook.Readable := by
    refine ⟨rfl, ?_, List.nodup_nil, fun m hm => nomatch hm⟩
    intro c hc
    simp only [loadingNotebook, List.mem_cons, List.not_mem_nil, or_false] at hc
    rcases hc with rfl | rfl | rfl <;> exact fits_new _ _
  have hparse := hreadable.parse?_write hreadable.fits hreadable.hasCode
  have hfresh : ∀ c ∈ loadingNotebook.cells, c.isCode = true →
      ∀ w ∈ Notebook.reservedNames, Text.holds c.source w = false := by
    decide +kernel
  have hnumbers : Notebook.hoistedNumbers loadingNotebook.cells = ["404".toList] := by
    decide +kernel
  have hblocks : ((Notebook.hoistConstants loadingNotebook.cells).mapM transformCell).toOption.map
      (fun cells => Notebook.findDuplicates (NameMaker.codeOf (Notebook.splitLongCells cells))) =
        some [namedBlock] := by
    decide +kernel
  -- The rules succeed, as the blocks of what they make are known.
  cases hrules : (Notebook.hoistConstants loadingNotebook.cells).mapM transformCell with
  | error e =>
    rw [hrules] at hblocks
    cases hblocks
  | ok rewritten =>
    rw [hrules] at hblocks
    replace hblocks :
        Notebook.findDuplicates (NameMaker.codeOf (Notebook.splitLongCells rewritten)) =
        [namedBlock] := Option.some.inj hblocks
    have hcells : refactorCells true loadingNotebook.cells = .ok
        (Notebook.extractDuplicates (Notebook.splitLongCells rewritten)) := by
      rw [refactorCells, if_pos rfl, hrules]
      rfl
    obtain ⟨nb', rewritten', hparse', hrules', hconstants, hfunctions⟩ :=
      refactorNotebook_defines_before_use hparse hfresh (refactorNotebook_eq_ok hparse hcells)
    obtain rfl := Except.ok.inj (hrules.symm.trans hrules')
    simp only [NameMaker.made, hnumbers] at hconstants
    simp only [NameMaker.made, hblocks] at hfunctions
    exact ⟨_, nb', refactorNotebook_eq_ok hparse hcells, hparse',
      hconstants (List.cons_ne_nil _ _), hfunctions (List.cons_ne_nil _ _)⟩

end Refactor

end CodeTidy
