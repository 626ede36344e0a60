import CodeTidy.Proofs.Notebook.Reading
import CodeTidy.Proofs.Notebook.Split
import CodeTidy.Refactor.Engine

/-!
# `CodeTidy.Proofs.Notebook.Refactor`: a notebook stays a notebook

The cells of a notebook go through four stages that restructure them, the rules
for cells and the instructions. Each of them `Keeps` the cells. What is written
then is read again, and so is a notebook that the general formatter has worked
on because a rule has failed. The theorems:

* `keeps_refactorCells`, `keeps_instructCells`: the stages lose no cell.
* `readsAs_transformed`, `exists_instruct`: the rules and the instructions give
  a notebook with the cells that were kept.

The last theorem says what becomes of any text that looks like a notebook.
-/

set_option autoImplicit false

namespace CodeTidy

open Json

/-! ### The stages -/

/-- A new source for the cells with code edits a cell. -/
theorem edited_code (t : Text) (cell : Cell) :
    Edited cell (if cell.isCode then cell.update t else cell) := by
  split
  · rename_i hcode
    exact edited_update t hcode
  · exact .refl cell

namespace Notebook

/-- Naming repeated numbers loses no cell. -/
theorem keeps_hoistConstants (cells : List Cell) : Keeps cells (hoistConstants cells) := by
  rw [hoistConstants]
  split
  · exact .refl cells
  · have hnamed : Keeps cells (cells.map (nameNumbers (hoistedNumbers cells))) :=
      .of_map (fun c => edited_code _ c) cells
    refine hnamed.trans (Keeps.insert ?_ _ _)
    intro c hc
    rw [constantCells, List.mem_cons, List.mem_singleton] at hc
    rcases hc with rfl | rfl <;> exact fits_new _ _

/-- Calls of helpers keep the cells. -/
theorem keeps_callHelpers (cells : List Cell) (n : Nat) (blocks : List Text) :
    Keeps cells (callHelpers cells n blocks) := by
  induction blocks generalizing cells n with
  | nil => exact .refl cells
  | cons b blocks ih =>
    have hcalled : Keeps cells (cells.map (callHelper n b)) :=
      .of_map (fun c => edited_code _ c) cells
    exact hcalled.trans (ih _ _)

/-- Moving repeated blocks into functions loses no cell. -/
theorem keeps_extractDuplicates (cells : List Cell) : Keeps cells (extractDuplicates cells) := by
  rw [extractDuplicates]
  split
  · exact .refl cells
  · refine (keeps_callHelpers cells 1 _).trans (Keeps.insert ?_ _ _)
    intro c hc
    rw [helperCells, List.mem_cons, List.mem_singleton] at hc
    rcases hc with rfl | rfl <;> exact fits_new _ _

end Notebook

namespace Refactor

/-- The rules edit a cell. -/
theorem edited_transformCell {cell cell' : Cell} (h : transformCell cell = .ok cell') :
    Edited cell cell' := by
  rw [transformCell] at h
  split at h
  · rename_i hcode
    obtain ⟨s, -, h⟩ := ok_of_bind h
    cases h
    exact edited_update _ hcode
  · cases h
    exact .refl cell

/-- The rules edit each cell. -/
theorem forall₂_of_mapM {cells cells' : List Cell} (h : cells.mapM transformCell = .ok cells') :
    List.Forall₂ Edited cells cells' :=
  (mapM_eq_ok_iff.mp h).imp fun _ _ => edited_transformCell

/-- All stages together lose no cell. -/
theorem keeps_refactorCells {restructure : Bool} {cells cells' : List Cell}
    (h : refactorCells restructure cells = .ok cells') : Keeps cells cells' := by
  rw [refactorCells] at h
  obtain ⟨cells₁, htransform, h⟩ := ok_of_bind h
  have hfirst := Keeps.of_edited (forall₂_of_mapM htransform)
  cases restructure with
  | false =>
    cases h
    exact hfirst
  | true =>
    cases h
    exact ((Notebook.keeps_hoistConstants cells).trans hfirst).trans
      ((Notebook.keeps_splitLongCells cells₁).trans (Notebook.keeps_extractDuplicates _))

/-- Carrying out instructions loses no cell. -/
theorem keeps_instructCells (wishes : Text) (cells : List Cell) :
    Keeps cells (cells.map (instructCell wishes)) :=
  .of_map (fun c => edited_code _ c) cells

end Refactor

/-! ### Reading what was written -/

namespace Notebook

/-- The text reads as a notebook whose cells are kept from the given ones. -/
def ReadsAs (cells : List Cell) (t : Text) : Prop :=
  ∃ nb, parse? t = .ok (some nb) ∧ Keeps cells nb.cells

/-- A stage that keeps the cells gives a notebook again. -/
theorem readsAs_write {t : Text} {nb : Notebook} (h : parse? t = .ok (some nb))
    {cells : List Cell} (hcells : Keeps nb.cells cells) :
    ReadsAs nb.cells (nb.withCells cells).write :=
  have hnb := readable_of_parse? h
  ⟨_, hnb.parse?_write (hcells.fits hnb.fits) (hcells.hasCode hnb.hasCode), hcells⟩

/-- What may be a notebook is not blank. -/
theorem allBlank_of_isLikely {t : Text} (h : isLikely t = true) : Text.allBlank t = false := by
  rw [isLikely, Bool.and_eq_true] at h
  cases hblank : Text.allBlank t with
  | false => rfl
  | true =>
    have htrim : Text.trimStart t = [] :=
      List.dropWhile_eq_nil_iff.mpr (List.all_eq_true.mp hblank)
    rw [htrim] at h
    cases h.1

end Notebook

namespace Refactor

open Notebook (isLikely ReadsAs readsAs_write parse?_format parse?_eq_some_iff
  allBlank_of_isLikely)

/-- A text that may be a notebook but is none is left alone. -/
theorem applyRules_of_none {t : Text} (hlikely : isLikely t = true)
    (h : Notebook.parse? t = .ok none)
    (options : RefactorOptions) : applyRules options t .python = .ok t := by
  rw [applyRules, if_pos hlikely, refactorNotebook, h]
  rfl

/-- Whether the rules are applied or one of them fails, a notebook comes of a notebook. -/
theorem readsAs_transformed {t : Text} {nb : Notebook} (h : Notebook.parse? t = .ok (some nb))
    (options : RefactorOptions) :
    ReadsAs nb.cells (match applyRules options t .python with
      | .ok r => r
      | .error _ => Generic.format t) := by
  have hlikely := (parse?_eq_some_iff.mp h).1
  rw [applyRules, if_pos hlikely, refactorNotebook, h]
  show ReadsAs nb.cells (match ((refactorCells options.restructureNotebooks nb.cells).mapError
    TransformError.rule >>= fun cells => .ok (nb.withCells cells).write) with
      | .ok r => r
      | .error _ => Generic.format t)
  cases hcells : refactorCells options.restructureNotebooks nb.cells with
  | ok cells => exact readsAs_write h (keeps_refactorCells hcells)
  | error e => exact ⟨nb, parse?_format h, .refl _⟩

/-- Carrying out instructions gives a notebook again. -/
theorem exists_instruct {cells : List Cell} {t : Text} (h : ReadsAs cells t) (family : Family)
    (wishes : Text) : ∃ t', instruct family wishes t = .ok t' ∧ ReadsAs cells t' := by
  obtain ⟨nb, hparse, hkeeps⟩ := h
  have hlikely := (parse?_eq_some_iff.mp hparse).1
  obtain ⟨nb', hparse', hkeeps'⟩ := readsAs_write hparse (keeps_instructCells wishes nb.cells)
  refine ⟨_, ?_, nb', hparse', hkeeps.trans hkeeps'⟩
  rw [instruct, if_pos hlikely, hparse]
  rfl

/-- What becomes of a text that may be a notebook. If it is read and is none, it stays as it is. If
it is read as a notebook, the result is a notebook again, with no fewer cells, in which the cells
without code stand unchanged and in the same order; this does not depend on the options, nor on
whether a rule fails. Nothing is said of a text that is nested too deeply to be read, one with
`Notebook.parse? t = .error e`: see `Notebook.NestsTooDeeply` for which these are. -/
theorem refactor_keeps_notebook {t : Text} (hlikely : isLikely t = true) {language : LanguageId}
    (hfamily : language.family = .python) (options : RefactorOptions) :
    (Notebook.parse? t = .ok none → refactor t language options = .ok t) ∧
    ∀ nb, Notebook.parse? t = .ok (some nb) →
      ∃ t' nb', refactor t language options = .ok t' ∧ Notebook.parse? t' = .ok (some nb') ∧
        nb.cells.length ≤ nb'.cells.length ∧
        (otherCells nb.cells).Sublist (otherCells nb'.cells) := by
  rw [refactor, allBlank_of_isLikely hlikely, if_neg Bool.false_ne_true, hfamily]
  dsimp only
  constructor
  · intro hnone
    rw [applyRules_of_none hlikely hnone]
    split
    · rfl
    · rw [instruct, if_pos hlikely, hnone]
      rfl
  · intro nb hparse
    -- What the rules make is a notebook whether they fail or not, and so is what the instructions
    -- make of it.
    have htransformed := readsAs_transformed hparse options
    split
    · obtain ⟨nb', hparse', hkeeps⟩ := htransformed
      exact ⟨_, nb', rfl, hparse', hkeeps.length_le, hkeeps.others⟩
    · obtain ⟨t', hresult, nb', hparse', hkeeps⟩ :=
        exists_instruct htransformed .python options.instructions
      exact ⟨t', nb', hresult, hparse', hkeeps.length_le, hkeeps.others⟩

/-- A notebook with a markdown cell and a code cell. -/
def noteAndCode : Notebook := ⟨[], [Cell.newMarkdown "Notes", Cell.newCode "x = 1"]⟩

/-- The theorem at a notebook, and at a text that only looks like one. -/
theorem refactor_keeps_noteAndCode :
    (∃ t' nb', refactor noteAndCode.write (.string "python")
        { instructions := "remove comments" } = .ok t' ∧
      Notebook.parse? t' = .ok (some nb') ∧ 2 ≤ nb'.cells.length ∧
      [Cell.newMarkdown "Notes"].Sublist (otherCells nb'.cells)) ∧
    refactor "\x7b\"cells\"" (.string "python") {} = .ok "\x7b\"cells\"" := by
  have hreadable : noteAndCode.Readable := by
    refine ⟨rfl, ?_, List.nodup_nil, fun m hm => nomatch hm⟩
    intro c hc
    rw [noteAndCode, List.mem_cons, List.mem_singleton] at hc
    rcases hc with rfl | rfl <;> exact fits_new _ _
  have hparse := hreadable.parse?_write hreadable.fits hreadable.hasCode
  constructor
  · exact (refactor_keeps_notebook (parse?_eq_some_iff.mp hparse).1 (by decide)
      { instructions := "remove comments" }).2 _ hparse
  · exact (refactor_keeps_notebook (t := "\x7b\"cells\"") (by decide) (by decide) {}).1 (by rfl)

end Refactor

end CodeTidy
