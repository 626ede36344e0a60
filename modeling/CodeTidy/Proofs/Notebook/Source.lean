import CodeTidy.Proofs.Notebook.Cells

/-!
# `CodeTidy.Proofs.Notebook.Source`: the source of a cell and the lines it is kept in

A cell keeps its source as a list of lines, cut at every kind of line end. A dozen
characters end a line, and a carriage return with the line feed behind it is one
line end. The rules look at line feeds only, so all that they may rely on is that
the text comes back when the list is put together.

`AreWholeLines` says when texts are the lines of the text that they make up, without
saying how they are found. `linesWithEnds` works from the last character to the
first, so each step puts one character in front of the lines that are there: it
joins the first of them, or closes a line of its own. The theorems:

* `areWholeLines_linesWithEnds`: what the steps keep.
* `linesWithEnds_closed_append`: a closed line comes first, if no pair is torn.
* `linesWithEnds_eq_iff`: the lines of a text are the only ones.
* `source_update_object`: a cell has the source that it is given.
* `source_kept_in_lines`: the round trip, for each text and each cell.
-/

set_option autoImplicit false

namespace CodeTidy.Text

/-! ### Lines and line ends -/

/-- A line end: a character that ends a line, or a carriage return with its line feed. -/
inductive IsEnding : Text → Prop
  | one {c : Char} (h : isLineEnd c = true) : IsEnding [c]
  | pair : IsEnding ['\r', '\n']

/-- No character of the text ends a line. -/
def IsUnbroken (u : Text) : Prop := ∀ c ∈ u, isLineEnd c = false

/-- The text ends with a line end, and has no other one in front of it. -/
def IsClosed (l : Text) : Prop := ∃ u e, l = u ++ e ∧ IsUnbroken u ∧ IsEnding e

/-- A carriage return at the end of one line has its line feed on the next one. -/
def Tears (l next : Text) : Prop := l.getLast? = some '\r' ∧ next.head? = some '\n'

/-- The texts are lines: there is something on each, a line end stands at the end of a line only,
all of them but the last have one, and no pair is torn. -/
structure AreWholeLines (ls : List Text) : Prop where
  ne_nil : ∀ l ∈ ls, l ≠ []
  endsLast : ∀ l ∈ ls, IsUnbroken l ∨ IsClosed l
  closed : ∀ l ∈ ls.dropLast, IsClosed l
  untorn : ls.IsChain (fun l next => ¬Tears l next)

section

variable {c : Char} {e l next r u : Text} {ls : List Text}

/-- A text is unbroken if no character of it ends a line. -/
theorem isUnbroken_cons : IsUnbroken (c :: u) ↔ isLineEnd c = false ∧ IsUnbroken u :=
  List.forall_mem_cons

/-- No lines are whole lines. -/
theorem areWholeLines_nil : AreWholeLines [] :=
  ⟨List.forall_mem_nil _, List.forall_mem_nil _, List.forall_mem_nil _, .nil⟩

/-- One line is whole if it is not empty, and unbroken or closed. -/
theorem areWholeLines_singleton_iff : AreWholeLines [l] ↔ l ≠ [] ∧ (IsUnbroken l ∨ IsClosed l) := by
  constructor
  · intro h
    exact ⟨h.ne_nil l List.mem_cons_self, h.endsLast l List.mem_cons_self⟩
  · rintro ⟨hne, hends⟩
    exact ⟨by simpa using hne, by simpa using hends, by simp, .singleton l⟩

/-- A line end by itself is a closed line. -/
theorem IsEnding.isClosed (h : IsEnding e) : IsClosed e := ⟨[], e, rfl, List.forall_mem_nil _, h⟩

/-- A character in front that ends no line leaves a line closed. -/
theorem IsClosed.cons (hc : isLineEnd c = false) (h : IsClosed l) : IsClosed (c :: l) := by
  obtain ⟨u, e, rfl, hu, he⟩ := h
  exact ⟨c :: u, e, rfl, isUnbroken_cons.mpr ⟨hc, hu⟩, he⟩

/-- A closed line is not empty. -/
theorem IsClosed.ne_nil (h : IsClosed l) : l ≠ [] := by
  obtain ⟨u, e, rfl, -, he⟩ := h
  cases he <;> simp

/-- A line in front of others has to be closed. -/
theorem areWholeLines_cons_cons_iff :
    AreWholeLines (l :: next :: ls) ↔ IsClosed l ∧ ¬Tears l next ∧ AreWholeLines (next :: ls) := by
  constructor
  · intro h
    obtain ⟨htears, huntorn⟩ := List.isChain_cons_cons.mp h.untorn
    refine ⟨h.closed l (by simp), htears, ?_, ?_, ?_, huntorn⟩
    · intro l' hl'
      exact h.ne_nil l' (List.mem_cons_of_mem l hl')
    · intro l' hl'
      exact h.endsLast l' (List.mem_cons_of_mem l hl')
    · intro l' hl'
      exact h.closed l' (by simp [hl'])
  · rintro ⟨hclosed, htears, h⟩
    refine ⟨?_, ?_, ?_, List.isChain_cons_cons.mpr ⟨htears, h.untorn⟩⟩
    · exact List.forall_mem_cons.mpr ⟨hclosed.ne_nil, h.ne_nil⟩
    · exact List.forall_mem_cons.mpr ⟨.inr hclosed, h.endsLast⟩
    · rw [List.dropLast_cons_cons]
      exact List.forall_mem_cons.mpr ⟨hclosed, h.closed⟩

/-- A character in front of a line changes nothing about its end. -/
theorem AreWholeLines.cons_head (h : AreWholeLines (l :: ls))
    (hunbroken : IsUnbroken l → IsUnbroken (c :: l)) (hclosed : IsClosed l → IsClosed (c :: l)) :
    AreWholeLines ((c :: l) :: ls) := by
  cases ls with
  | nil =>
    rw [areWholeLines_singleton_iff] at h ⊢
    exact ⟨by simp, h.2.imp hunbroken hclosed⟩
  | cons next ls =>
    rw [areWholeLines_cons_cons_iff] at h ⊢
    obtain ⟨hl, htears, hls⟩ := h
    refine ⟨hclosed hl, ?_, hls⟩
    rw [Tears, List.getLast?_cons_of_ne_nil hl.ne_nil]
    exact htears

/-! ### One character more -/

/-- A closed line that begins with a line feed is nothing else. -/
theorem IsClosed.eq_feed (h : IsClosed ('\n' :: l)) : l = [] := by
  obtain ⟨u, e, heq, hu, he⟩ := h
  cases u with
  | nil =>
    cases he with
    | one _ => exact (List.cons.inj heq).2
    | pair => cases heq
  | cons a u =>
    obtain ⟨rfl, -⟩ := List.cons.inj heq
    cases (isUnbroken_cons.mp hu).1

/-- The lines that are found are lines: each character keeps what holds of those behind it. -/
theorem areWholeLines_linesWithEnds (t : Text) : AreWholeLines (linesWithEnds t) := by
  induction t with
  | nil => exact areWholeLines_nil
  | cons c r ih =>
    rw [linesWithEnds_cons]
    cases hr : linesWithEnds r with
    | nil =>
      -- The last character of the text is a line of its own, closed or not.
      refine areWholeLines_singleton_iff.mpr ⟨by simp, ?_⟩
      cases hc : isLineEnd c with
      | true => exact .inr (IsEnding.one hc).isClosed
      | false => exact .inl (isUnbroken_cons.mpr ⟨hc, List.forall_mem_nil _⟩)
    | cons l ls =>
      rw [hr] at ih
      dsimp only
      split
      · next hpair =>
        -- A pair: the line feed has come to stand alone, and gets its carriage return back.
        rw [Bool.and_eq_true, beq_iff_eq, beq_iff_eq] at hpair
        obtain ⟨rfl, hfeed⟩ := hpair
        obtain ⟨l, rfl⟩ := List.head?_eq_some_iff.mp hfeed
        refine ih.cons_head (fun h => ?_) (fun h => ?_)
        · cases (isUnbroken_cons.mp h).1
        · rw [h.eq_feed]
          exact IsEnding.pair.isClosed
      · next hpair =>
        split
        · next hc =>
          refine areWholeLines_cons_cons_iff.mpr ⟨(IsEnding.one hc).isClosed, ?_, ih⟩
          rintro ⟨hreturn, hfeed⟩
          rw [List.getLast?_singleton, Option.some.injEq] at hreturn
          exact hpair (by simp [hreturn, hfeed])
        · next hc =>
          rw [Bool.not_eq_true] at hc
          exact ih.cons_head (fun h => isUnbroken_cons.mpr ⟨hc, h⟩) (fun h => h.cons hc)

/-! ### One line more -/

/-- The first line begins as the text does. -/
theorem head?_of_linesWithEnds (h : linesWithEnds r = l :: ls) : l.head? = r.head? := by
  have hflat := flatten_linesWithEnds r
  have hne := (areWholeLines_linesWithEnds r).ne_nil
  rw [h] at hflat hne
  rw [← hflat, List.flatten_cons, List.head?_append_of_ne_nil _ (hne l List.mem_cons_self)]

/-- A line end closes a line, if it is not torn from the one behind it. -/
theorem linesWithEnds_cons_of_isLineEnd (hc : isLineEnd c = true) (htears : ¬Tears [c] r) :
    linesWithEnds (c :: r) = [c] :: linesWithEnds r := by
  rw [linesWithEnds_cons]
  cases hr : linesWithEnds r with
  | nil => rfl
  | cons l ls =>
    have hpair : ¬((c == '\r' && l.head? == some '\n') = true) := by
      rw [head?_of_linesWithEnds hr]
      simpa [Tears] using htears
    dsimp only
    rw [if_neg hpair, if_pos hc]

/-- A line end closes a line, and the lines of the rest follow. -/
theorem linesWithEnds_ending_append (he : IsEnding e) (htears : ¬Tears e r) :
    linesWithEnds (e ++ r) = e :: linesWithEnds r := by
  cases he with
  | one hc => exact linesWithEnds_cons_of_isLineEnd hc htears
  | pair =>
    have hfeed : linesWithEnds ('\n' :: r) = ['\n'] :: linesWithEnds r :=
      linesWithEnds_cons_of_isLineEnd rfl (by simp [Tears])
    show linesWithEnds ('\r' :: '\n' :: r) = _
    rw [linesWithEnds_cons, hfeed]
    rfl

/-- Text in front of a line end belongs to the line. -/
theorem linesWithEnds_unbroken_append (hu : IsUnbroken u) (h : linesWithEnds r = l :: ls) :
    linesWithEnds (u ++ r) = (u ++ l) :: ls := by
  induction u with
  | nil => exact h
  | cons c u ih =>
    obtain ⟨hc, hu⟩ := isUnbroken_cons.mp hu
    have hreturn : c ≠ '\r' := by
      rintro rfl
      cases hc
    rw [List.cons_append, linesWithEnds_cons, ih hu]
    simp [hc, hreturn]

/-- A text without line ends is one line. -/
theorem linesWithEnds_of_isUnbroken (hne : u ≠ []) (hu : IsUnbroken u) : linesWithEnds u = [u] := by
  have hfront : IsUnbroken u.dropLast := fun c hc => hu c (List.dropLast_subset u hc)
  have hlines := linesWithEnds_unbroken_append (r := [u.getLast hne]) hfront rfl
  rwa [List.dropLast_append_getLast] at hlines

/-- A closed line comes before the lines of the rest, if no pair is torn. -/
theorem linesWithEnds_closed_append (h : IsClosed l) (htears : ¬Tears l r) :
    linesWithEnds (l ++ r) = l :: linesWithEnds r := by
  obtain ⟨u, e, rfl, hu, he⟩ := h
  have hne : e ≠ [] := by cases he <;> simp
  rw [Tears, List.getLast?_append_of_ne_nil _ hne] at htears
  rw [List.append_assoc, linesWithEnds_unbroken_append hu (linesWithEnds_ending_append he htears)]

/-- Texts that are lines are the lines of the text that they make up. -/
theorem linesWithEnds_flatten (h : AreWholeLines ls) : linesWithEnds ls.flatten = ls := by
  induction ls with
  | nil => rfl
  | cons l ls ih =>
    cases ls with
    | nil =>
      obtain ⟨hne, hends⟩ := areWholeLines_singleton_iff.mp h
      rw [List.flatten_singleton]
      rcases hends with hunbroken | hclosed
      · exact linesWithEnds_of_isUnbroken hne hunbroken
      · have hlines := linesWithEnds_closed_append (r := []) hclosed (by simp [Tears])
        rwa [List.append_nil] at hlines
    | cons next ls =>
      obtain ⟨hclosed, htears, hls⟩ := areWholeLines_cons_cons_iff.mp h
      have hnext : next ≠ [] := hls.ne_nil next List.mem_cons_self
      rw [List.flatten_cons, linesWithEnds_closed_append hclosed, ih hls]
      rw [Tears, List.flatten_cons, List.head?_append_of_ne_nil _ hnext]
      exact htears

/-- The lines of a text are the only texts that are lines and make it up. -/
theorem linesWithEnds_eq_iff {t : Text} :
    linesWithEnds t = ls ↔ AreWholeLines ls ∧ ls.flatten = t := by
  constructor
  · rintro rfl
    exact ⟨areWholeLines_linesWithEnds t, flatten_linesWithEnds t⟩
  · rintro ⟨h, rfl⟩
    exact linesWithEnds_flatten h

end

end CodeTidy.Text

/-! ### Sources of cells -/

namespace CodeTidy.Cell

open Json Text

/-- A cell with code is an object. -/
theorem exists_members_of_isCode {cell : Cell} (h : cell.isCode = true) :
    ∃ ms, cell = .object ms := by
  cases cell with
  | object ms => exact ⟨ms, rfl⟩
  | _ => cases h

/-- A source that is kept as a list of lines is read as it was. -/
theorem source_of_get? {cell : Cell} {t : Text}
    (h : Json.get? cell "source" = some (sourceLines t)) : cell.source = t := by
  rw [source, h, sourceLines]
  dsimp only
  rw [List.flatMap_map]
  have hshown : (fun l => Json.shown (Json.string l)) = id := rfl
  rw [hshown, List.flatMap_id, Text.flatten_linesWithEnds]

/-- A new cell has the source that it was made with. -/
theorem source_newCode (t : Text) : (newCode t).source = t := source_of_get? rfl

/-- An object has the source that was put into it. -/
theorem source_withSource (t : Text) (ms : List (Text × Json)) :
    Cell.source (withSource t (.object ms)) = t := by
  refine source_of_get? ?_
  show (putMember "source" (sourceLines t) ms).lookup "source".toList = _
  rw [lookup_putMember, if_pos rfl]

/-- A cell has the source that it is given, also if it had that one before. -/
theorem source_update_object (t : Text) (ms : List (Text × Json)) :
    Cell.source (update t (.object ms)) = t := by
  rw [update]
  split
  · next heq => exact heq.symm
  · exact source_withSource t ms

/-- A cell with code has the source that it was given. -/
theorem source_update (t : Text) {cell : Cell} (h : cell.isCode = true) :
    (cell.update t).source = t := by
  obtain ⟨ms, rfl⟩ := exists_members_of_isCode h
  exact source_update_object t ms

/-- A text is kept as the source of a cell in lines, the only ones that make it up, and is read
from them as it was. A cell that is given a text has it as its source afterwards, whatever its
source was and however it was kept. -/
theorem source_kept_in_lines (t : Text) :
    (∃ ls, sourceLines t = .array (ls.map Json.string) ∧ AreWholeLines ls ∧
      ∀ ls', AreWholeLines ls' ∧ ls'.flatten = t ↔ ls' = ls) ∧
    (∀ cell : Cell, cell.get? "source" = some (sourceLines t) → cell.source = t) ∧
    ∀ members, Cell.source (update t (.object members)) = t := by
  refine ⟨⟨linesWithEnds t, rfl, areWholeLines_linesWithEnds t, ?_⟩, ?_, ?_⟩
  · intro ls'
    rw [← linesWithEnds_eq_iff]
    exact eq_comm
  · intro cell h
    exact source_of_get? h
  · intro members
    exact source_update_object t members

/-- The theorem at a text with several kinds of line ends, of which a pair is one and the same two
characters the other way round are two. -/
theorem source_kept_in_lines_mixed :
    let t := "a\r\nb\x0b\n\rc\u2028d".toList
    let ls := ["a\r\n".toList, "b\x0b".toList, "\n".toList, "\r".toList, "c\u2028".toList,
      "d".toList]
    let cell : Cell := .object [("source", .array (ls.map Json.string))]
    AreWholeLines ls ∧ cell.get? "source" = some (sourceLines t) ∧ cell.source = t ∧
      Cell.source (update t (.object [("source", .array [.int 1, .null])])) = t := by
  intro t ls cell
  obtain ⟨⟨ls', hls, hlines, -⟩, hread, hupdate⟩ := source_kept_in_lines t
  have hkept : sourceLines t = .array (ls.map Json.string) := rfl
  have hsame : ls' = ls := by
    rw [hkept, Json.array.injEq] at hls
    exact (List.map_injective_iff.mpr (fun _ _ => Json.string.inj) hls).symm
  exact ⟨hsame ▸ hlines, rfl, hread cell rfl, hupdate _⟩

end CodeTidy.Cell
