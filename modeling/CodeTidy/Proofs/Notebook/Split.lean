import CodeTidy.Notebook.Split
import CodeTidy.Proofs.Notebook.Cells
import CodeTidy.Proofs.Text.Lines
import Mathlib.Data.List.TakeWhile

/-!
# `CodeTidy.Proofs.Notebook.Split`: a cell that is split still holds code

A cell is split in front of a line that holds something, or behind lines that
do. So at least one section holds something, and a new cell with code comes of
it.

A walk over the lines of a cell decides before each line whether to split there. It looks
at the line, at the lines since the last split, and at those that follow. The theorems:

* `exists_section`: wherever lines are split, a section around the split holds
  something.
* `sections_ne_nil`: a cell that is split has a section.
* `splitCell_cases`: what becomes of a cell.
* `keeps_splitLongCells`: the stage loses no cell.
* `SplitReason.of_splitsBefore`: the three reasons to split, with what each asks for. All of them
  ask for a distance from the last split.
* `isChain_breakPoints`: the numbers before the last are more than five lines apart.
* `pairwise_breakPoints`, `getLast?_breakPoints`: the numbers increase, up to the number of lines.
-/

set_option autoImplicit false

namespace CodeTidy.Notebook

open Text

/-! ### Lines that hold something -/

/-- Nothing is left exactly if all characters are dropped. -/
theorem dropAroundWhile_eq_nil_iff {p : Char → Bool} {t : Text} :
    dropAroundWhile p t = [] ↔ ∀ c ∈ t, p c = true := by
  rw [dropAroundWhile, dropEndWhile, List.reverse_eq_nil_iff, List.dropWhile_eq_nil_iff]
  constructor
  · intro h c hc
    rw [← List.takeWhile_append_dropWhile (p := p) (l := t), List.mem_append] at hc
    rcases hc with hc | hc
    · exact List.mem_takeWhile_imp hc
    · exact h c (List.mem_reverse.mpr hc)
  · intro h c hc
    exact h c ((List.dropWhile_suffix p).subset (List.mem_reverse.mp hc))

/-- A character of a line is one of the text. -/
theorem mem_unlines {ls : List Text} {l : Text} {c : Char} (hl : l ∈ ls) (hc : c ∈ l) :
    c ∈ unlines ls := by
  induction ls with
  | nil => cases hl
  | cons l' ls ih =>
    cases ls with
    | nil =>
      rw [List.mem_singleton] at hl
      rwa [unlines_singleton, ← hl]
    | cons l'' ls =>
      rw [unlines_cons _ (List.cons_ne_nil _ _), List.mem_append, List.mem_cons]
      rcases List.mem_cons.mp hl with rfl | hl
      · exact .inl hc
      · exact .inr (.inr (ih hl))

/-- A line that holds something makes a section with it hold something. -/
theorem section_ne_nil {ls : List Text} {l : Text} (hl : l ∈ ls) (hblank : allBlank l = false) :
    dropAroundWhile (· == '\n') (unlines ls) ≠ [] := by
  intro h
  rw [allBlank, List.all_eq_false] at hblank
  obtain ⟨c, hc, hvisible⟩ := hblank
  have hline := dropAroundWhile_eq_nil_iff.mp h c (mem_unlines hl hc)
  rw [beq_iff_eq] at hline
  rw [hline] at hvisible
  exact hvisible rfl

/-- In front of which lines a cell is split: the line holds something, or one behind the last
split does. -/
theorem visible_of_splitsBefore {since : List Text} {l : Text} {following : List Text}
    (h : splitsBefore since l following = true) :
    allBlank l = false ∨ ∃ l' ∈ since, allBlank l' = false := by
  cases hblank : allBlank l with
  | false => exact .inl rfl
  | true =>
    have htrim : trim l = [] :=
      dropAroundWhile_eq_nil_iff.mpr (List.all_eq_true.mp hblank)
    rw [splitsBefore, htrim] at h
    dsimp only at h
    split at h
    · cases h
    · rw [if_neg (by decide), if_neg (by simp [startsWith])] at h
      split at h
      · rw [Bool.and_eq_true, List.any_eq_true] at h
        obtain ⟨⟨l', hl', hvisible⟩, -⟩ := h
        rw [Bool.and_eq_true, Bool.not_eq_true'] at hvisible
        exact .inr ⟨l', hl', hvisible.1⟩
      · cases h

/-! ### Sections -/

/-- The section between two line numbers. -/
def sectionAt (ls : List Text) (start stop : Nat) : Text :=
  dropAroundWhile (· == '\n') (unlines ((ls.drop start).take (stop - start)))

/-- The next number at which lines are split. -/
theorem breaksFrom_eq_cons (n : Nat) (since ls : List Text) :
    ∃ m rest, breaksFrom n since ls = m :: rest ∧ n ≤ m := by
  induction ls generalizing n since with
  | nil => exact ⟨n, [], rfl, Nat.le_refl n⟩
  | cons l ls ih =>
    rw [breaksFrom]
    split
    · exact ⟨n, _, rfl, Nat.le_refl n⟩
    · obtain ⟨m, rest, heq, hle⟩ := ih (n + 1) (l :: since)
      exact ⟨m, rest, heq, by omega⟩

/-- Wherever lines are split, a section around the split holds something. The lines since the
last split are those behind `before`. -/
theorem exists_section {all before since ls : List Text}
    (hall : all = before ++ (since.reverse ++ ls))
    (h : 1 < (breaksFrom (before.length + since.length) since ls).length) :
    ∃ p ∈ (before.length :: breaksFrom (before.length + since.length) since ls).zip
        (breaksFrom (before.length + since.length) since ls),
      sectionAt all p.1 p.2 ≠ [] := by
  induction ls generalizing since with
  | nil =>
    rw [breaksFrom] at h
    exact absurd h (by simp)
  | cons l ls ih =>
    rw [breaksFrom] at h ⊢
    by_cases hsplit : splitsBefore since l ls = true
    · rw [if_pos hsplit]
      obtain ⟨m, rest, heq, hle⟩ := breaksFrom_eq_cons (before.length + since.length + 1) [l] ls
      rw [heq]
      rcases visible_of_splitsBefore hsplit with hvisible | ⟨l', hl', hvisible⟩
      · -- The section behind the split begins with the line.
        refine ⟨(before.length + since.length, m), ?_, ?_⟩
        · simp
        · refine section_ne_nil (l := l) ?_ hvisible
          obtain ⟨k, hk⟩ := Nat.exists_eq_add_of_lt hle
          have hdrop : all.drop (before.length + since.length) = l :: ls := by
            rw [hall, ← List.append_assoc]
            exact List.drop_left' (by simp)
          rw [hdrop, show m - (before.length + since.length) = k + 1 by omega]
          exact List.mem_cons_self
      · -- The section in front of the split ends there.
        refine ⟨(before.length, before.length + since.length), ?_, ?_⟩
        · simp
        · refine section_ne_nil (l := l') ?_ hvisible
          rw [hall, List.drop_left, Nat.add_sub_cancel_left,
            List.take_left' (List.length_reverse), List.mem_reverse]
          exact hl'
    · rw [if_neg hsplit] at h ⊢
      have hall' : all = before ++ ((l :: since).reverse ++ ls) := by
        rw [hall]
        simp
      exact ih hall' h

/-- A cell that is split has a section. -/
theorem sections_ne_nil {ls : List Text} (h : ¬(breakPoints ls).length < 3) :
    sections ls (breakPoints ls) ≠ [] := by
  rw [breakPoints, List.length_cons] at h
  have hstart : ls = [] ++ ([].reverse ++ ls) := rfl
  obtain ⟨p, hp, hsection⟩ := exists_section hstart (by
    simp only [List.length_nil, Nat.add_zero]
    omega)
  refine List.ne_nil_of_mem (a := sectionAt ls p.1 p.2) (List.mem_filter.mpr ⟨?_, ?_⟩)
  · exact List.mem_map.mpr ⟨p, hp, rfl⟩
  · simpa using hsection

/-! ### The stage -/

/-- The cells in place of a cell that is split. -/
theorem keeps_sections {cell : Cell} (hcode : cell.isCode = true) {texts : List Text}
    (htexts : texts ≠ []) (note : Text) :
    Keeps [cell] (Cell.newMarkdown note :: texts.map Cell.newCode) where
  length_le := by simp
  others := by simp [otherCells, hcode]
  hasCode _ := by
    obtain ⟨s, texts, rfl⟩ := List.exists_cons_of_ne_nil htexts
    rw [List.any_cons, List.map_cons, List.any_cons, isCode_newCode]
    simp
  fits _ c hc := by
    rcases List.mem_cons.mp hc with rfl | hc
    · exact fits_new _ _
    · obtain ⟨s, -, rfl⟩ := List.mem_map.mp hc
      exact fits_new _ _

/-- A cell is left alone, or sections with code take its place. -/
theorem splitCell_cases (cell : Cell) : splitCell cell = [cell] ∨
    cell.isCode = true ∧ ¬(breakPoints (lines cell.source)).length < 3 ∧
      splitCell cell = Cell.newMarkdown splitNote ::
        (sections (lines cell.source) (breakPoints (lines cell.source))).map Cell.newCode := by
  rw [splitCell]
  split
  · next hcode =>
    dsimp only
    by_cases hlong : maxCellLines < (lines cell.source).length
    · rw [if_pos hlong]
      split
      · exact .inl rfl
      · next hpoints => exact .inr ⟨hcode, hpoints, rfl⟩
    · rw [if_neg hlong, if_pos (by decide)]
      exact .inl rfl
  · exact .inl rfl

/-- To split a cell gives one cell or more, and leaves a cell without code as it is. -/
theorem keeps_splitCell (cell : Cell) : Keeps [cell] (splitCell cell) := by
  rcases splitCell_cases cell with hsame | ⟨hcode, hpoints, hsplit⟩
  · rw [hsame]
    exact .refl [cell]
  · rw [hsplit]
    exact keeps_sections hcode (sections_ne_nil hpoints) splitNote

/-- Splitting long cells loses no cell. -/
theorem keeps_splitLongCells (cells : List Cell) : Keeps cells (splitLongCells cells) :=
  Keeps.flatMap keeps_splitCell cells

/-! ### The reasons to split -/

/-- Why a cell is split before a line: a definition or an import begins there, or a comment, or the
line is blank and code that is not indented comes behind it. The lines in `since` are those since
the last split. -/
inductive SplitReason (since : List Text) (raw : Text) (following : List Text) : Prop
  | definition (hword : startsWithAny (trim raw) definitionWords = true) (hfar : 5 < since.length)
  | comment (hmark : startsWith (trim raw) "# " = true) (hfar : 10 < since.length)
  | blank (hblank : allBlank raw = true) (hfar : 15 < since.length)
    (hcode : ∃ l ∈ since, allBlank l = false ∧ isComment l = false)
    (hnext : ∀ l, following.find? (fun l => !allBlank l) = some l → isIndented l = false)

/-- A text of which trimming leaves nothing is blank. -/
theorem allBlank_of_trim_eq_nil {t : Text} (h : trim t = []) : allBlank t = true :=
  List.all_eq_true.mpr (dropAroundWhile_eq_nil_iff.mp h)

/-- A split has one of the reasons, and the line is not indented. -/
theorem SplitReason.of_splitsBefore {since : List Text} {raw : Text} {following : List Text}
    (h : splitsBefore since raw following = true) :
    isIndented raw = false ∧ SplitReason since raw following := by
  rw [splitsBefore] at h
  dsimp only at h
  split at h
  · cases h
  -- The tests of the function are the reasons, in its order.
  next hleft =>
  refine ⟨Bool.eq_false_iff.mpr hleft, ?_⟩
  split at h
  · next hword => exact .definition hword (of_decide_eq_true h)
  split at h
  · next hcomment =>
    rw [Bool.and_eq_true, Bool.and_eq_true] at hcomment
    exact .comment hcomment.1.1 (of_decide_eq_true h)
  split at h
  · next hblank =>
    rw [Bool.and_eq_true, List.isEmpty_iff, decide_eq_true_eq] at hblank
    rw [Bool.and_eq_true, List.any_eq_true, Bool.not_eq_true'] at h
    obtain ⟨⟨l, hl, hcode⟩, hnext⟩ := h
    rw [Bool.and_eq_true, Bool.not_eq_true', Bool.not_eq_true'] at hcode
    refine .blank (allBlank_of_trim_eq_nil hblank.1) hblank.2 ⟨l, hl, hcode⟩ fun l' hl' => ?_
    rwa [hl', Option.getD_some] at hnext
  · cases h

/-- Whatever the reason, more than five lines have passed since the last split. -/
theorem SplitReason.distance {since : List Text} {raw : Text} {following : List Text}
    (h : SplitReason since raw following) : 5 < since.length := by
  cases h <;> omega

/-! ### Distances -/

section

variable {p n : Nat} {since ls : List Text}

/-- There is always a break, if only at the end. -/
theorem breaksFrom_ne_nil (n : Nat) (since ls : List Text) : breaksFrom n since ls ≠ [] := by
  obtain ⟨m, rest, heq, -⟩ := breaksFrom_eq_cons n since ls
  rw [heq]
  exact List.cons_ne_nil m rest

/-- The last break is at the end. -/
theorem getLast?_breaksFrom (n : Nat) (since ls : List Text) :
    (breaksFrom n since ls).getLast? = some (n + ls.length) := by
  induction ls generalizing n since with
  | nil => rfl
  | cons l ls ih =>
    have hlength : n + 1 + ls.length = n + (l :: ls).length := by
      rw [List.length_cons]
      omega
    rw [breaksFrom]
    split
    · rw [List.getLast?_cons, ih, Option.getD_some, hlength]
    · rw [ih, hlength]

/-- The invariant of the walk is that `since` reaches back to the last number `p`. -/
theorem isChain_breaksFrom (h : p + since.length = n) :
    (p :: breaksFrom n since ls).dropLast.IsChain fun p q => p + 5 < q := by
  induction ls generalizing p n since with
  | nil => exact List.isChain_singleton p
  | cons l ls ih =>
    rw [breaksFrom]
    split
    · next hsplit =>
      have hfar := (SplitReason.of_splitsBefore hsplit).2.distance
      have hrest := ih (show n + [l].length = n + 1 from rfl)
      rw [List.dropLast_cons_of_ne_nil (breaksFrom_ne_nil _ _ _)] at hrest
      rw [List.dropLast_cons_of_ne_nil (List.cons_ne_nil _ _),
        List.dropLast_cons_of_ne_nil (breaksFrom_ne_nil _ _ _)]
      exact List.IsChain.cons_cons (by omega) hrest
    · refine ih ?_
      rw [List.length_cons]
      omega

/-- No number is reached twice, as a line has passed at least since the last one. -/
theorem isChain_lt_breaksFrom (h : p + since.length = n) (hpos : 0 < since.length + ls.length) :
    (p :: breaksFrom n since ls).IsChain (· < ·) := by
  induction ls generalizing p n since with
  | nil =>
    rw [List.length_nil] at hpos
    exact List.IsChain.cons_cons (by omega) (List.isChain_singleton n)
  | cons l ls ih =>
    rw [breaksFrom]
    split
    · next hsplit =>
      have hfar := (SplitReason.of_splitsBefore hsplit).2.distance
      have hone : 0 < [l].length + ls.length := by
        rw [List.length_singleton]
        omega
      exact List.IsChain.cons_cons (by omega) (ih rfl hone)
    · refine ih ?_ ?_
      · rw [List.length_cons]
        omega
      · rw [List.length_cons]
        omega

end

/-- The last break is at the end of the lines. -/
theorem getLast?_breakPoints (ls : List Text) :
    (breakPoints ls).getLast? = some ls.length := by
  rw [breakPoints, List.getLast?_cons, getLast?_breaksFrom, Option.getD_some, Nat.zero_add]

/-- Two breaks are more than five lines apart, the last one aside. -/
theorem isChain_breakPoints (ls : List Text) :
    (breakPoints ls).dropLast.IsChain fun p q => p + 5 < q :=
  isChain_breaksFrom rfl

/-- The breaks are in order. -/
theorem pairwise_breakPoints {ls : List Text} (h : ls ≠ []) :
    (breakPoints ls).Pairwise (· < ·) := by
  have hpos : 0 < ([] : List Text).length + ls.length := by
    have hlength := List.length_pos_iff.mpr h
    omega
  exact List.isChain_iff_pairwise.mp (isChain_lt_breaksFrom rfl hpos)

end CodeTidy.Notebook
