import CodeTidy.Proofs.Instruction.Gauge
import CodeTidy.Proofs.Notebook.Refactor
import CodeTidy.Proofs.Notebook.Source
import CodeTidy.Proofs.Python.Tidies

/-!
# `CodeTidy.Proofs.Notebook.Frame`: what is left alone without restructuring

A notebook that is not restructured is written and read twice: after the rules
for cells, and after the instructions. A cell may be given another source both
times. What comes of it is the cell with the last source, as if there had been
no other in between, because no source comes back once the rules have left it:
they lower its gauge, and the instructions never raise it. The theorems:

* `update_update`: two edits of a cell are one.
* `becomes_instructCell`: a cell after the rules and the instructions.
* `refactor_edits_sources`: the notebook, with everything that stays.
-/

set_option autoImplicit false

namespace CodeTidy

open Json

/-! ### Sources -/

/-- A member that is put in its place twice. -/
theorem putMember_putMember (key : Text) (value value' : Json) (ms : List (Text × Json)) :
    putMember key value' (putMember key value ms) = putMember key value' ms := by
  induction ms with
  | nil => rw [putMember, putMember, putMember, if_pos rfl]
  | cons m ms ih =>
    obtain ⟨k, v⟩ := m
    by_cases hk : k = key
    · rw [putMember, if_pos hk, putMember, if_pos hk, putMember, if_pos hk]
    · rw [putMember, if_neg hk, putMember, if_neg hk, putMember, if_neg hk, ih]

namespace Cell

/-- Two edits of a cell are one, unless the second brings the source back that it had at first. -/
theorem update_update {cell : Cell} (h : cell.isCode = true) {t t' : Text}
    (hback : t = cell.source ∨ t' ≠ cell.source) : (cell.update t).update t' = cell.update t' := by
  by_cases hsame : t = cell.source
  · have hstays : cell.update t = cell := if_pos hsame
    rw [hstays]
  · have hback := hback.resolve_left hsame
    have hfirst : cell.update t = cell.withSource t := if_neg hsame
    have hsource := source_update t h
    have hsecond : cell.update t' = cell.withSource t' := if_neg hback
    rw [hfirst] at hsource ⊢
    rw [hsecond, update, hsource]
    split
    · next heq => rw [heq]
    · obtain ⟨ms, rfl⟩ := exists_members_of_isCode h
      rw [withSource, withSource, withSource, putMember_putMember]

end Cell

namespace Refactor

/-- What becomes of a cell: if it holds code, the rules and then the wishes are applied to its
source. Nothing else in it changes, and a cell of which the source does not change is the same,
however its source is written. -/
structure Becomes (wishes : Text) (cell cell' : Cell) : Prop where
  other : cell.isCode = false → cell' = cell
  source : cell.isCode = true → ∃ s, Python.cellRules.apply cell.source = .ok s ∧
    cell'.source = Instruction.apply .python wishes s
  same : cell'.source = cell.source → cell' = cell
  members : cell'.source ≠ cell.source → ∃ ms, cell = .object ms ∧
    cell' = .object (putMember "source" (Cell.sourceLines cell'.source) ms)

/-- A cell without code stays as it is. -/
theorem becomes_other (wishes : Text) {cell : Cell} (h : cell.isCode = false) :
    Becomes wishes cell cell where
  other _ := rfl
  source hcode := by
    rw [h] at hcode
    cases hcode
  same _ := rfl
  members hne := absurd rfl hne

/-- A cell with code that is given the source that the rules and the wishes make of its own. -/
theorem becomes_update {wishes s : Text} {cell : Cell} (h : cell.isCode = true)
    (hs : Python.cellRules.apply cell.source = .ok s) :
    Becomes wishes cell (cell.update (Instruction.apply .python wishes s)) where
  other hother := by
    rw [h] at hother
    cases hother
  source _ := ⟨s, hs, Cell.source_update _ h⟩
  same hsame := by
    rw [Cell.source_update _ h] at hsame
    exact if_pos hsame
  members hne := by
    rw [Cell.source_update _ h] at hne ⊢
    obtain ⟨ms, rfl⟩ := Cell.exists_members_of_isCode h
    exact ⟨ms, rfl, if_neg hne⟩

/-- The rules and then the wishes, carried out one after the other, are one edit: a source that the
rules have left does not come back. -/
theorem instructCell_update {wishes s : Text} {cell : Cell} (h : cell.isCode = true)
    (hs : Python.cellRules.apply cell.source = .ok s) :
    instructCell wishes (cell.update s) = cell.update (Instruction.apply .python wishes s) := by
  rw [instructCell, isCode_update, h, if_pos rfl, Cell.source_update s h]
  refine Cell.update_update h ?_
  rcases Python.gauge_cellRules hs with hsame | hlower
  · exact .inl hsame
  · refine .inr fun hback => ?_
    have hwishes := Instruction.gauge_apply wishes s
    rw [hback] at hwishes
    exact absurd (lt_of_lt_of_le hlower hwishes) (lt_irrefl _)

/-- A cell becomes what the rules and then the instructions make of it. -/
theorem becomes_instructCell (wishes : Text) {cell cell' : Cell}
    (h : transformCell cell = .ok cell') : Becomes wishes cell (instructCell wishes cell') := by
  rw [transformCell] at h
  split at h
  · next hcode =>
    obtain ⟨s, hs, h⟩ := ok_of_bind h
    cases h
    rw [instructCell_update hcode hs]
    exact becomes_update hcode hs
  · next hother =>
    cases h
    rw [instructCell, if_neg hother]
    exact becomes_other wishes (by simpa using hother)

/-- Without instructions a cell becomes what the rules make of it. -/
theorem becomes_transformCell {cell cell' : Cell} (h : transformCell cell = .ok cell') :
    Becomes [] cell cell' := by
  rw [transformCell] at h
  split at h
  · next hcode =>
    obtain ⟨s, hs, h⟩ := ok_of_bind h
    cases h
    exact becomes_update hcode hs
  · next hother =>
    cases h
    exact becomes_other [] (by simpa using hother)

/-- The rules give a result for all cells if they give one for each. -/
theorem exists_transformed {cells : List Cell}
    (h : ∀ c ∈ cells, c.isCode = true → ∃ s, Python.cellRules.apply c.source = .ok s) :
    ∃ cells', cells.mapM transformCell = .ok cells' ∧
      List.Forall₂ (fun c c' => transformCell c = .ok c') cells cells' := by
  have heach : ∀ c ∈ cells, ∃ c', transformCell c = .ok c' := by
    intro c hc
    rw [transformCell]
    split
    · next hcode =>
      obtain ⟨s, hs⟩ := h c hc hcode
      exact ⟨c.update s, by rw [hs]; rfl⟩
    · exact ⟨c, rfl⟩
  obtain ⟨cells', hcells⟩ := (exists_mapM_eq_ok_iff transformCell cells).mpr heach
  exact ⟨cells', hcells, mapM_eq_ok_iff.mp hcells⟩

/-- What becomes of a notebook that is not restructured. It is a notebook again with the same
members, of which only the cells change. Their number and order stay, and each of them becomes
what the rules and the wishes make of it. -/
theorem refactor_edits_sources {t : Text} {nb : Notebook} (h : Notebook.parse? t = .ok (some nb))
    {language : LanguageId} (hfamily : language.family = .python) {options : RefactorOptions}
    (hkeep : options.restructureNotebooks = false)
    (hrules : ∀ c ∈ nb.cells, c.isCode = true → ∃ s, Python.cellRules.apply c.source = .ok s) :
    ∃ t' nb', refactor t language options = .ok t' ∧ Notebook.parse? t' = .ok (some nb') ∧
      nb'.members = putMember "cells" (.array nb'.cells) nb.members ∧
      List.Forall₂ (Becomes options.instructions) nb.cells nb'.cells := by
  have hlikely := (Notebook.parse?_eq_some_iff.mp h).1
  have hnb := Notebook.readable_of_parse? h
  obtain ⟨cells, hcells, hall⟩ := exists_transformed hrules
  have hkeeps := Keeps.of_edited (forall₂_of_mapM hcells)
  -- The notebook after the rules is written and read.
  have hfirst := hnb.parse?_write (hkeeps.fits hnb.fits) (hkeeps.hasCode hnb.hasCode)
  have happlied : applyRules options t .python = .ok (nb.withCells cells).write := by
    rw [applyRules, if_pos hlikely, refactorNotebook, h, hkeep]
    show ((refactorCells false nb.cells).mapError TransformError.rule >>=
      fun cells => .ok (nb.withCells cells).write) = _
    have hrefactored : refactorCells false nb.cells = .ok cells := by
      rw [refactorCells, if_neg Bool.false_ne_true, hcells]
      rfl
    rw [hrefactored]
    rfl
  rw [refactor, Notebook.allBlank_of_isLikely hlikely, if_neg Bool.false_ne_true, hfamily]
  dsimp only
  rw [happlied]
  dsimp only
  cases hwishes : options.instructions with
  | nil =>
    refine ⟨_, _, rfl, hfirst, rfl, ?_⟩
    exact hall.imp fun c c' hc => becomes_transformCell hc
  | cons a wishes =>
    -- The notebook after the instructions is written and read again.
    have hkeeps' := hkeeps.trans (keeps_instructCells (a :: wishes) cells)
    have hnb' := Notebook.readable_of_parse? hfirst
    have hsecond := hnb'.parse?_write (hkeeps'.fits hnb.fits) (hkeeps'.hasCode hnb.hasCode)
    refine ⟨_, _, ?_, hsecond, ?_, ?_⟩
    · rw [List.isEmpty_cons, if_neg Bool.false_ne_true, instruct,
        if_pos (Notebook.parse?_eq_some_iff.mp hfirst).1, hfirst]
      rfl
    · exact putMember_putMember _ _ _ _
    · rw [List.forall₂_map_right_iff]
      exact hall.imp fun c c' hc => becomes_instructCell (a :: wishes) hc

/-- A cell with a comparison, whose source is a string, and one without anything to tidy. -/
def checkedNotebook : Notebook :=
  ⟨[], [Cell.newMarkdown "Notes",
    .object [("source", .string "# check\nif ok == True:\n    pass"), ("cell_type", .string "code"),
      ("tag", .bool true)],
    .object [("cell_type", .string "code"), ("source", .string "x = 1")]]⟩

/-- The theorem at a notebook: the source of one cell changes, in its place, and nothing else. -/
theorem refactor_edits_checkedNotebook :
    ∃ t' nb', refactor checkedNotebook.write (.string "python")
        { restructureNotebooks := false, instructions := "remove comments" } = .ok t' ∧
      Notebook.parse? t' = .ok (some nb') ∧
      nb'.cells = [Cell.newMarkdown "Notes",
        .object [("source", Cell.sourceLines "if ok:\n    pass"), ("cell_type", .string "code"),
          ("tag", .bool true)],
        .object [("cell_type", .string "code"), ("source", .string "x = 1")]] := by
  have hok : ∀ {x : Except RuleError Text} {s : Text}, x.toOption = some s → x = .ok s := by
    intro x s hx
    cases x with
    | error e => cases hx
    | ok s' =>
      cases hx
      rfl
  have hcheck : Python.cellRules.apply "# check\nif ok == True:\n    pass" =
      .ok "# check\nif ok:\n    pass" := hok (by decide +kernel)
  have hplain : Python.cellRules.apply "x = 1" = .ok "x = 1" := hok (by decide +kernel)
  have hreadable : checkedNotebook.Readable := by
    refine ⟨rfl, ?_, List.nodup_nil, fun m hm => nomatch hm⟩
    intro c hc
    simp only [checkedNotebook, List.mem_cons, List.not_mem_nil, or_false] at hc
    rcases hc with rfl | rfl | rfl
    · exact fits_new _ _
    · exact ⟨by decide, by decide, trivial, trivial, trivial, trivial⟩
    · exact ⟨by decide, by decide, trivial, trivial, trivial⟩
  have hparse := hreadable.parse?_write hreadable.fits hreadable.hasCode
  -- The rules succeed on both code cells, which is all that the theorem asks for.
  have hrules : ∀ c ∈ checkedNotebook.cells, c.isCode = true →
      ∃ s, Python.cellRules.apply c.source = .ok s := by
    intro c hc hcode
    simp only [checkedNotebook, List.mem_cons, List.not_mem_nil, or_false] at hc
    rcases hc with rfl | rfl | rfl
    · cases hcode
    · exact ⟨_, hcheck⟩
    · exact ⟨_, hplain⟩
  obtain ⟨t', nb', hresult, hparse', -, hall⟩ :=
    @refactor_edits_sources _ _ hparse (.string "python") (by decide)
      { restructureNotebooks := false, instructions := "remove comments" } rfl hrules
  refine ⟨t', nb', hresult, hparse', ?_⟩
  generalize nb'.cells = cells' at hall
  -- The cells of the result are those of the notebook, one by one.
  rcases hall with _ | ⟨hnote, _ | ⟨hchecked, _ | ⟨hplain', _ | _⟩⟩⟩
  rename_i note checked plain
  obtain rfl := hnote.other rfl
  have hsource : Cell.source checked = "if ok:\n    pass" := by
    obtain ⟨s, hs, hsource⟩ := hchecked.source rfl
    obtain rfl := Except.ok.inj (hcheck.symm.trans hs)
    rw [hsource]
    decide +kernel
  obtain ⟨ms, hms, hchecked⟩ := hchecked.members (by rw [hsource]; decide +kernel)
  have hplain : plain = .object [("cell_type", .string "code"), ("source", .string "x = 1")] := by
    obtain ⟨s, hs, hsource⟩ := hplain'.source rfl
    obtain rfl := Except.ok.inj (hplain.symm.trans hs)
    exact hplain'.same (by rw [hsource]; decide +kernel)
  cases hms
  rw [hchecked, hsource, hplain]
  rfl

end Refactor

end CodeTidy
