import CodeTidy.Notebook.Basic
import CodeTidy.Proofs.Json.Fits

/-!
# `CodeTidy.Proofs.Notebook.Cells`: what happens to cells

A cell is edited by giving it another source, and only cells with code are. A
stage that works on a list of cells may edit them and add new ones. `Edited`
and `Keeps` say what is left alone then. The theorems:

* `edited_update`: a code cell with another source.
* `Keeps.trans`, `Keeps.append`: stages one after the other and side by side.
* `Keeps.of_edited`, `Keeps.insert`, `Keeps.flatMap`: the three shapes of a
  stage.
-/

set_option autoImplicit false

namespace CodeTidy

open Json

/-- Whether the cell can be written in the list of cells of a notebook and read again. The
notebook and the list are two containers around it. -/
def Cell.Fits (cell : Cell) : Prop := Json.Fits (maxNesting - 2) cell

/-! ### Members of a cell -/

/-- The member that was put in is found, and all others as before. -/
theorem lookup_putMember (key : Text) (value : Json) (k : Text) (ms : List (Text × Json)) :
    (putMember key value ms).lookup k = if k = key then some value else ms.lookup k := by
  induction ms with
  | nil =>
    rw [putMember, List.lookup_cons]
    by_cases hk : k = key
    · rw [if_pos hk, beq_iff_eq.mpr hk]
    · rw [if_neg hk, beq_false_of_ne hk]
  | cons m ms ih =>
    obtain ⟨k', v⟩ := m
    rw [putMember]
    -- The member is replaced here, or it is put behind this one.
    by_cases hput : k' = key
    · subst hput
      rw [if_pos rfl, List.lookup_cons, List.lookup_cons]
      by_cases hk : k = k'
      · rw [if_pos hk, beq_iff_eq.mpr hk]
      · rw [if_neg hk, beq_false_of_ne hk]
    · rw [if_neg hput, List.lookup_cons, List.lookup_cons, ih]
      by_cases hk : k = k'
      · subst hk
        simp [hput]
      · rw [beq_false_of_ne hk]

/-- A member that has the value already stays in its place with it. -/
theorem putMember_eq_self {key : Text} {value : Json} {ms : List (Text × Json)}
    (h : ms.lookup key = some value) : putMember key value ms = ms := by
  induction ms with
  | nil => cases h
  | cons m ms ih =>
    obtain ⟨k, v⟩ := m
    rw [List.lookup_cons] at h
    rw [putMember]
    by_cases hk : k = key
    · subst hk
      rw [beq_self_eq_true, Option.some.injEq] at h
      rw [if_pos rfl, h]
    · rw [beq_false_of_ne (Ne.symm hk)] at h
      rw [if_neg hk, ih h]

/-- A new source changes no kind of cell. -/
theorem isCode_update (t : Text) (cell : Cell) : (cell.update t).isCode = cell.isCode := by
  rw [Cell.update]
  split
  · rfl
  · cases cell with
    | object ms =>
      have hkind : (Cell.withSource t (.object ms)).get? "cell_type" =
          (Json.object ms).get? "cell_type" := by
        show (putMember "source" (Cell.sourceLines t) ms).lookup "cell_type".toList = _
        rw [lookup_putMember, if_neg (by decide)]
        rfl
      rw [Cell.isCode, Cell.isOfKind, hkind]
      rfl
    | _ => rfl

/-- A list of texts fits where a list does. -/
theorem fits_sourceLines {room : Nat} (h : 0 < room) (t : Text) :
    Json.Fits room (Cell.sourceLines t) := by
  refine ⟨h, allFit_iff.mpr fun v hv => ?_⟩
  obtain ⟨l, -, rfl⟩ := List.mem_map.mp hv
  trivial

/-- A cell with a new source can be written and read again. -/
theorem fits_update (t : Text) {cell : Cell} (h : cell.Fits) : (cell.update t).Fits := by
  rw [Cell.update]
  split
  · exact h
  · cases cell with
    | object ms =>
      obtain ⟨hroom, hnodup, hms⟩ := h
      refine ⟨hroom, nodup_putMember _ _ hnodup, membersFit_iff.mpr fun m hm => ?_⟩
      rcases mem_putMember hm with rfl | hm
      · exact fits_sourceLines (by decide) t
      · exact membersFit_iff.mp hms m hm
    | _ => exact h

/-- A new cell can be written and read again. -/
theorem fits_new (kind source : Text) : (Cell.new kind source).Fits := by
  have hlines : Json.Fits (maxNesting - 3) (Cell.sourceLines source) :=
    fits_sourceLines (by decide) source
  have hempty : Json.Fits (maxNesting - 3) (.object []) := ⟨by decide, List.nodup_nil, trivial⟩
  have hkeys : (["cell_type".toList, "metadata".toList, "source".toList, "execution_count".toList,
      "outputs".toList] : List Text).Nodup := by decide
  have hkeys' : (["cell_type".toList, "metadata".toList, "source".toList] : List Text).Nodup := by
    decide
  rw [Cell.new]
  split
  · exact ⟨by decide, hkeys, trivial, hempty, hlines, trivial, ⟨by decide, trivial⟩, trivial⟩
  · exact ⟨by decide, hkeys', trivial, hempty, hlines, trivial⟩

/-- A new cell with code is one. -/
theorem isCode_newCode (source : Text) : (Cell.newCode source).isCode = true := rfl

/-! ### Edited cells -/

/-- The second cell is the first one with other code. -/
structure Edited (cell cell' : Cell) : Prop where
  isCode : cell'.isCode = cell.isCode
  eq_of_other : cell.isCode = false → cell' = cell
  fits : cell.Fits → cell'.Fits

/-- A cell is edited by leaving it as it is. -/
theorem Edited.refl (cell : Cell) : Edited cell cell := ⟨rfl, fun _ => rfl, id⟩

/-- A code cell with another source. -/
theorem edited_update (t : Text) {cell : Cell} (h : cell.isCode = true) :
    Edited cell (cell.update t) where
  isCode := isCode_update t cell
  eq_of_other hother := by
    rw [h] at hother
    cases hother
  fits := fits_update t

/-! ### Stages -/

/-- The cells that hold no code. -/
def otherCells (cells : List Cell) : List Cell := cells.filter (fun c => !c.isCode)

/-- What a stage leaves of the cells: there are no fewer, those without code stand in the same
order, some hold code if some did, and they can be written if they could. -/
structure Keeps (cells cells' : List Cell) : Prop where
  length_le : cells.length ≤ cells'.length
  others : (otherCells cells).Sublist (otherCells cells')
  hasCode : cells.any Cell.isCode = true → cells'.any Cell.isCode = true
  fits : (∀ c ∈ cells, c.Fits) → ∀ c ∈ cells', c.Fits

namespace Keeps

variable {cells cells' cells'' : List Cell}

/-- Cells that stay are kept. -/
theorem refl (cells : List Cell) : Keeps cells cells := ⟨Nat.le_refl _, .refl _, id, id⟩

/-- Stages one after the other. -/
theorem trans (h : Keeps cells cells') (h' : Keeps cells' cells'') : Keeps cells cells'' where
  length_le := h.length_le.trans h'.length_le
  others := h.others.trans h'.others
  hasCode := h'.hasCode ∘ h.hasCode
  fits := h'.fits ∘ h.fits

/-- Stages side by side. -/
theorem append {more more' : List Cell} (h : Keeps cells cells') (h' : Keeps more more') :
    Keeps (cells ++ more) (cells' ++ more') where
  length_le := by
    have hle := h.length_le
    have hle' := h'.length_le
    rw [List.length_append, List.length_append]
    omega
  others := by
    rw [otherCells, otherCells, List.filter_append, List.filter_append]
    exact h.others.append h'.others
  hasCode hcode := by
    rw [List.any_append, Bool.or_eq_true] at hcode ⊢
    exact hcode.imp h.hasCode h'.hasCode
  fits hfits c hc := by
    rcases List.mem_append.mp hc with hc | hc
    · exact h.fits (fun c hc => hfits c (List.mem_append_left _ hc)) c hc
    · exact h'.fits (fun c hc => hfits c (List.mem_append_right _ hc)) c hc

/-- A stage that edits cells. -/
theorem of_edited (h : List.Forall₂ Edited cells cells') : Keeps cells cells' := by
  induction h with
  | nil => exact refl []
  | @cons c c' _ _ hc _ ih =>
    have hone : Keeps [c] [c'] := by
      refine ⟨Nat.le_refl _, ?_, ?_, ?_⟩
      · cases hkind : c.isCode with
        | true => simp [otherCells, hkind]
        | false =>
          rw [hc.eq_of_other hkind]
      · intro hcode
        simpa [hc.isCode] using hcode
      · intro hfits d hd
        rw [List.mem_singleton] at hd
        rw [hd]
        exact hc.fits (hfits c List.mem_cons_self)
    exact hone.append ih

/-- Cells that are edited one by one are kept. -/
theorem of_map {f : Cell → Cell} (h : ∀ c, Edited c (f c)) (cells : List Cell) :
    Keeps cells (cells.map f) :=
  of_edited (List.forall₂_map_right_iff.mpr (List.forall₂_same.mpr fun c _ => h c))

/-- A stage that adds cells in front of the first one that is asked for. -/
theorem insert {extra : List Cell} (hextra : ∀ c ∈ extra, c.Fits) (p : Cell → Bool)
    (cells : List Cell) : Keeps cells (cells.takeWhile p ++ extra ++ cells.dropWhile p) := by
  have hnew : Keeps [] extra :=
    ⟨Nat.zero_le _, List.nil_sublist _, (fun h => by cases h), fun _ => hextra⟩
  have h := ((refl (cells.takeWhile p)).append hnew).append (refl (cells.dropWhile p))
  rwa [List.append_nil, List.takeWhile_append_dropWhile] at h

/-- A stage that puts cells in the place of each one. -/
theorem flatMap {f : Cell → List Cell} (h : ∀ c, Keeps [c] (f c)) (cells : List Cell) :
    Keeps cells (cells.flatMap f) := by
  induction cells with
  | nil => exact refl []
  | cons c cells ih =>
    rw [List.flatMap_cons]
    exact (h c).append ih

end Keeps

end CodeTidy
