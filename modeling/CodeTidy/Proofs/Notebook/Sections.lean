import CodeTidy.Proofs.Notebook.Blocks
import CodeTidy.Proofs.Notebook.Split

/-!
# `CodeTidy.Proofs.Notebook.Sections`: a split loses no line

The sections of a cell are cut out of its lines by number, trimmed, dropped if
nothing is left, and read as lines again. `visibleLines` are the lines of a text
that are not empty, and what a split keeps is told in them: cutting by numbers that
increase loses nothing (`flatten_slices`), and a line feed at the end of a text is
on an empty line (`visibleLines_dropAroundWhile`). The theorems:

* `flatMap_visibleLines_sections`: the sections hold the lines of the cell.
* `splitsInto_splitCell`, `codeLines_splitCell`: what comes of one cell.
* `splitLongCells_loses_nothing`: what comes of all cells, and the numbers at
  which a cell is split.
-/

set_option autoImplicit false

namespace CodeTidy

open Text

/-! ### Lines that are not empty -/

namespace Text

/-- The lines of a text that are not empty. -/
def visibleLines (t : Text) : List Text := (lines t).filter (fun l => !l.isEmpty)

/-- Two texts with a line feed between them have the lines of both. -/
theorem visibleLines_append_feed (t u : Text) :
    visibleLines (t ++ '\n' :: u) = visibleLines t ++ visibleLines u := by
  rw [visibleLines, lines_append_feed, List.filter_append, visibleLines, visibleLines]

/-- Line feeds alone have no lines to see. -/
theorem visibleLines_feeds {s : Text} (h : s.all (· == '\n') = true) : visibleLines s = [] := by
  induction s with
  | nil => rfl
  | cons c s ih =>
    rw [List.all_cons, Bool.and_eq_true, beq_iff_eq] at h
    obtain ⟨rfl, h⟩ := h
    rw [show '\n' :: s = [] ++ '\n' :: s from rfl, visibleLines_append_feed, ih h]
    rfl

/-- Line feeds in front add no line to see. -/
theorem visibleLines_feeds_append {s : Text} (h : s.all (· == '\n') = true) (t : Text) :
    visibleLines (s ++ t) = visibleLines t := by
  induction s with
  | nil => rfl
  | cons c s ih =>
    rw [List.all_cons, Bool.and_eq_true, beq_iff_eq] at h
    obtain ⟨rfl, h⟩ := h
    rw [show '\n' :: s ++ t = [] ++ '\n' :: (s ++ t) from rfl, visibleLines_append_feed, ih h]
    rfl

/-- The line feeds around a text are on empty lines. -/
theorem visibleLines_dropAroundWhile (t : Text) :
    visibleLines (dropAroundWhile (· == '\n') t) = visibleLines t := by
  obtain ⟨s, s', ht, hs, hs'⟩ := exists_dropAroundWhile (· == '\n') t
  generalize dropAroundWhile (· == '\n') t = u at ht
  rw [ht, visibleLines_feeds_append hs]
  cases s' with
  | nil => rw [List.append_nil]
  | cons c s' =>
    rw [List.all_cons, Bool.and_eq_true, beq_iff_eq] at hs'
    obtain ⟨rfl, hs'⟩ := hs'
    rw [visibleLines_append_feed, visibleLines_feeds hs', List.append_nil]

/-- The lines to see are those that are not empty. -/
theorem visibleLines_unlines {ls : List Text} (h : ∀ l ∈ ls, '\n' ∉ l) :
    visibleLines (unlines ls) = ls.filter (fun l => !l.isEmpty) := by
  cases ls with
  | nil => rfl
  | cons l ls => rw [visibleLines, lines_unlines (List.cons_ne_nil l ls) h]

end Text

namespace Notebook

/-! ### Sections -/

/-- The lines between the given numbers. -/
def slices (ls : List Text) (points : List Nat) : List (List Text) :=
  (points.zip points.tail).map fun (start, stop) => (ls.drop start).take (stop - start)

/-- Cut at numbers that do not decrease, up to the number of lines, the lines stay together. -/
theorem flatten_slices {ls : List Text} {p : Nat} {points : List Nat}
    (hchain : (p :: points).IsChain (· ≤ ·)) (hlast : (p :: points).getLast? = some ls.length) :
    (slices ls (p :: points)).flatten = ls.drop p := by
  induction points generalizing p with
  | nil =>
    obtain rfl := Option.some.inj hlast
    rw [List.drop_length]
    rfl
  | cons q points ih =>
    obtain ⟨hle, hrest⟩ := List.isChain_cons_cons.mp hchain
    rw [List.getLast?_cons_cons] at hlast
    show (ls.drop p).take (q - p) ++ (slices ls (q :: points)).flatten = ls.drop p
    have hdrop : ls.drop q = (ls.drop p).drop (q - p) := by
      rw [List.drop_drop, Nat.add_sub_cancel' hle]
    rw [ih hrest hlast, hdrop, List.take_append_drop]

/-- A section is dropped only if no line of it shows. -/
theorem flatMap_visibleLines_filter (texts : List Text) :
    (texts.filter (fun t => !t.isEmpty)).flatMap visibleLines = texts.flatMap visibleLines := by
  induction texts with
  | nil => rfl
  | cons t texts ih =>
    cases t with
    | nil =>
      rw [List.filter_cons_of_neg (by decide), ih, List.flatMap_cons]
      rfl
    | cons c t =>
      rw [List.filter_cons_of_pos (by rfl), List.flatMap_cons, ih, List.flatMap_cons]

/-- The sections hold the lines between the numbers. -/
theorem flatMap_visibleLines_sections {ls : List Text} (points : List Nat)
    (h : ∀ l ∈ ls, '\n' ∉ l) :
    (sections ls points).flatMap visibleLines =
      (slices ls points).flatten.filter (fun l => !l.isEmpty) := by
  rw [sections, flatMap_visibleLines_filter, List.flatMap_map, slices, List.filter_flatten,
    List.map_map, ← List.flatMap_def]
  refine congrArg List.flatten (List.map_congr_left fun ⟨start, stop⟩ _ => ?_)
  have hsection : ∀ l ∈ (ls.drop start).take (stop - start), '\n' ∉ l := fun l hl =>
    h l (List.mem_of_mem_drop (List.mem_of_mem_take hl))
  show visibleLines (dropAroundWhile _ (unlines _)) = _
  rw [visibleLines_dropAroundWhile, visibleLines_unlines hsection]
  rfl

/-- The sections of a text have its lines. -/
theorem flatMap_visibleLines_breakPoints (t : Text) :
    (sections (lines t) (breakPoints (lines t))).flatMap visibleLines = visibleLines t := by
  have hchain : (breakPoints (lines t)).IsChain (· ≤ ·) :=
    (List.isChain_iff_pairwise.mpr (pairwise_breakPoints (lines_ne_nil t))).imp
      fun _ _ hlt => Nat.le_of_lt hlt
  have hslices : (slices (lines t) (breakPoints (lines t))).flatten = lines t :=
    flatten_slices hchain (getLast?_breakPoints (lines t))
  rw [flatMap_visibleLines_sections _ fun l hl => not_mem_of_mem_lines hl, hslices, visibleLines]

/-! ### Cells -/

/-- What may take the place of a cell: the cell itself, or if it holds code, a note and one new
code cell at least. -/
def SplitsInto (cell : Cell) (cells : List Cell) : Prop :=
  cells = [cell] ∨ cell.isCode = true ∧
    ∃ texts, texts ≠ [] ∧ cells = Cell.newMarkdown splitNote :: texts.map Cell.newCode

/-- A cell is split into cells that have its lines. -/
theorem splitsInto_splitCell (cell : Cell) : SplitsInto cell (splitCell cell) := by
  rcases splitCell_cases cell with hsame | ⟨hcode, hpoints, hsplit⟩
  · exact .inl hsame
  · exact .inr ⟨hcode, _, sections_ne_nil hpoints, hsplit⟩

/-- The lines of the code cells that are not empty, cell by cell. -/
def codeLines (cells : List Cell) : List Text := (NameMaker.codeOf cells).flatMap visibleLines

/-- The code of two lists of cells in a row. -/
theorem codeLines_append (cells cells' : List Cell) :
    codeLines (cells ++ cells') = codeLines cells ++ codeLines cells' := by
  simp only [codeLines, NameMaker.codeOf, List.filter_append, List.map_append, List.flatMap_append]

/-- The code of new cells is that of their texts. -/
theorem codeLines_newCode (texts : List Text) :
    codeLines (texts.map Cell.newCode) = texts.flatMap visibleLines := by
  induction texts with
  | nil => rfl
  | cons t texts ih =>
    rw [List.map_cons, List.flatMap_cons, ← ih]
    show visibleLines (Cell.newCode t).source ++ codeLines (texts.map Cell.newCode) = _
    rw [Cell.source_newCode]

/-- One cell holds the same lines as what comes of it. -/
theorem codeLines_splitCell (cell : Cell) : codeLines (splitCell cell) = codeLines [cell] := by
  rcases splitCell_cases cell with hsame | ⟨hcode, -, hsplit⟩
  · rw [hsame]
  · have hone : codeLines [cell] = visibleLines cell.source := by
      simp [codeLines, NameMaker.codeOf, hcode]
    rw [hsplit, hone, ← flatMap_visibleLines_breakPoints cell.source]
    show codeLines ((sections _ _).map Cell.newCode) = _
    rw [codeLines_newCode]

/-- To split long cells keeps the code. -/
theorem codeLines_splitLongCells (cells : List Cell) :
    codeLines (splitLongCells cells) = codeLines cells := by
  rw [splitLongCells]
  induction cells with
  | nil => rfl
  | cons cell cells ih =>
    rw [List.flatMap_cons, codeLines_append, codeLines_splitCell, ih, ← codeLines_append,
      List.singleton_append]

/-- Splitting loses no code. The lines of the code cells that are not empty are the same before and
after, in order. Each cell is kept, or a note and one or more new code cells take the place of a
code cell. A cell is split at numbers of lines that increase from zero to the number of its lines,
and those before the last are more than five apart. -/
theorem splitLongCells_loses_nothing (cells : List Cell) :
    codeLines (splitLongCells cells) = codeLines cells ∧
    (∃ parts, splitLongCells cells = parts.flatten ∧ List.Forall₂ SplitsInto cells parts) ∧
    ∀ ls : List Text, ls ≠ [] →
      (breakPoints ls).Pairwise (· < ·) ∧
      (breakPoints ls).head? = some 0 ∧ (breakPoints ls).getLast? = some ls.length ∧
      (breakPoints ls).dropLast.IsChain fun p q => p + 5 < q := by
  refine ⟨codeLines_splitLongCells cells, ⟨cells.map splitCell, ?_, ?_⟩, fun ls hne => ?_⟩
  · rw [splitLongCells, List.flatMap_def]
  · rw [List.forall₂_map_right_iff, List.forall₂_same]
    exact fun cell _ => splitsInto_splitCell cell
  · exact ⟨pairwise_breakPoints hne, rfl, getLast?_breakPoints ls, isChain_breakPoints ls⟩

/-- Lines with a function behind them. -/
def loadingLines : List Text :=
  List.replicate 30 "rows = load(name)".toList ++
    "def keep(rows):".toList :: List.replicate 12 "    save(rows)".toList

/-- The theorem at a cell of that many lines that it is split. -/
theorem splitLongCells_loses_nothing_loading :
    loadingLines ≠ [] ∧ breakPoints loadingLines = [0, 30, 43] ∧
      (breakPoints loadingLines).Pairwise (· < ·) ∧
      codeLines (splitLongCells [Cell.newCode (unlines loadingLines)]) =
        codeLines [Cell.newCode (unlines loadingLines)] := by
  have hne : loadingLines ≠ [] := by decide
  obtain ⟨hlines, -, hbreaks⟩ := splitLongCells_loses_nothing [Cell.newCode (unlines loadingLines)]
  exact ⟨hne, by decide +kernel, (hbreaks loadingLines hne).1, hlines⟩

end Notebook

end CodeTidy
