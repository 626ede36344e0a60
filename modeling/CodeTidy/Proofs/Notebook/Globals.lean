import CodeTidy.Proofs.Notebook.Bindings

/-!
# `CodeTidy.Proofs.Notebook.Globals`: the names that a function declares

The function for a block binds what the block binds, if it declares the names as
global. The declaration lists what is read from the lines of the block one by
one, so a name that one line binds is missed if it is read neither from that
line nor from another one. The theorems:

* `lines_helperSource`: the lines of a function, with the declaration among them.
* `helperSource_mem_cell`: the function is in the cell of functions, which is put in.
* `helper_declares_iff`: which of the names that a line binds are declared.
* `helper_misses_targets`: a block of which no name is declared.
-/

set_option autoImplicit false

namespace CodeTidy

open Pattern Text

namespace Notebook

/-! ### The lines of a function -/

/-- The bound names are those that the lines bind. -/
theorem mem_boundNames_iff {ls : List Text} {n : Text} :
    n ∈ boundNames ls ↔ ∃ line ∈ ls, boundName? line = some n := by
  rw [boundNames, List.mem_eraseDups, List.mem_filterMap]

/-- The lines of a function in front of its body. -/
def heading (k : Nat) : List Text :=
  ["def " ++ helperName k ++ "():",
    "    \"\"\"Run a block that was repeated in this notebook.\"\"\""]

/-- The line that declares names as global, if there are any. -/
def declaration (names : List Text) : List Text :=
  if names.isEmpty then [] else ["    global " ++ joinWith ", " names]

/-- The heading of a helper is made of lines. -/
theorem not_mem_heading {k : Nat} {l : Text} (h : l ∈ heading k) : '\n' ∉ l := by
  have hdef : '\n' ∉ "def ".toList := by decide
  have hname : '\n' ∉ helperName k := fun hmem =>
    not_mem_helperCall k (List.mem_append_left _ hmem)
  have hcolon : '\n' ∉ "():".toList := by decide
  have hdocstring :
      '\n' ∉ "    \"\"\"Run a block that was repeated in this notebook.\"\"\"".toList := by
    decide
  rcases List.mem_cons.mp h with rfl | h
  · intro hmem
    rcases List.mem_append.mp hmem with hmem | hmem
    · exact (List.mem_append.mp hmem).elim hdef hname
    · exact hcolon hmem
  · rw [List.mem_singleton.mp h]
    exact hdocstring

/-- The declaration of the bound names is one line. -/
theorem not_mem_declaration {names : List Text} (hnames : ∀ n ∈ names, '\n' ∉ n) {l : Text}
    (h : l ∈ declaration names) : '\n' ∉ l := by
  have hglobal : '\n' ∉ "    global ".toList := by decide
  have hjoined : '\n' ∉ joinWith ", " names := not_mem_joinWith (by decide) hnames
  rw [declaration] at h
  split at h
  · cases h
  · rw [List.mem_singleton.mp h]
    exact fun hmem => (List.mem_append.mp hmem).elim hglobal hjoined

/-- An indented line is one line. -/
theorem not_mem_bodyLine {line : Text} (h : '\n' ∉ line) : '\n' ∉ bodyLine line := by
  have hindent : '\n' ∉ "    ".toList := by decide
  rw [bodyLine]
  split
  · exact List.not_mem_nil
  · exact fun hmem => (List.mem_append.mp hmem).elim hindent h

/-- The lines of a function: the names that its block binds are declared, and the block follows. -/
theorem lines_helperSource (k : Nat) (b : Text) :
    lines (helperSource k b) =
      heading k ++ declaration (boundNames (lines b)) ++ (lines b).map bodyLine := by
  have hnames : ∀ n ∈ boundNames (lines b), '\n' ∉ n := by
    intro n hn
    obtain ⟨line, -, hread⟩ := mem_boundNames_iff.mp hn
    exact not_mem_of_all (isWord_boundName? hread) (by decide)
  refine lines_unlines (List.cons_ne_nil _ _) fun l hl => ?_
  rcases List.mem_append.mp hl with hl | hl
  · rcases List.mem_append.mp hl with hl | hl
    · exact not_mem_heading hl
    · exact not_mem_declaration hnames hl
  · obtain ⟨line, hline, rfl⟩ := List.mem_map.mp hl
    exact not_mem_bodyLine (not_mem_of_mem_lines hline)

/-! ### The functions -/

/-- Each block has its helper, by its number. -/
theorem mem_helperSources (n : Nat) (earlier later : List Text) (b : Text) :
    helperSource (n + earlier.length) b ∈ helperSources n (earlier ++ b :: later) := by
  induction earlier generalizing n with
  | nil => exact List.mem_cons_self
  | cons a earlier ih =>
    have hmem := ih (n + 1)
    rw [Nat.add_assoc, Nat.add_comm 1, ← List.length_cons (a := a)] at hmem
    exact List.mem_cons_of_mem _ hmem

/-- The function for a block is in the cell of functions, which is put in. -/
theorem helperSource_mem_cell {cells : List Cell} {earlier later : List Text} {b : Text}
    (h : findDuplicates (NameMaker.codeOf cells) = earlier ++ b :: later) :
    helpersCell (earlier ++ b :: later) ∈ extractDuplicates cells ∧
      helperSource (earlier.length + 1) b <:+: (helpersCell (earlier ++ b :: later)).source := by
  obtain ⟨before, after, -, hnew⟩ := extractDuplicates_eq cells
  rw [h, if_neg (by simp)] at hnew
  constructor
  · rw [hnew]
    exact List.mem_append_left _
      (List.mem_append_right _ (List.mem_cons_of_mem _ List.mem_cons_self))
  · have hmem := mem_helperSources 1 earlier later b
    rw [Nat.add_comm 1] at hmem
    rw [helpersCell, Cell.source_newCode]
    exact (infix_joinWith hmem).trans (List.suffix_append _ _).isInfix

/-- Each function declares the names that are read from the lines of its block. A name that a line
of one of the forms binds is declared exactly if it is read from that line or from another one. -/
theorem helper_declares_iff {cells : List Cell} {earlier later : List Text} {b : Text}
    (h : findDuplicates (NameMaker.codeOf cells) = earlier ++ b :: later) :
    helpersCell (earlier ++ b :: later) ∈ extractDuplicates cells ∧
      helperSource (earlier.length + 1) b <:+: (helpersCell (earlier ++ b :: later)).source ∧
      lines (helperSource (earlier.length + 1) b) = heading (earlier.length + 1) ++
        declaration (boundNames (lines b)) ++ (lines b).map bodyLine ∧
      ∀ line ∈ lines b, ∀ binding : Binding, binding.Spelled line → ∀ n ∈ binding.names,
        (n ∈ boundNames (lines b) ↔ binding.read? = some n ∨
          ∃ line' ∈ lines b, line' ≠ line ∧ boundName? line' = some n) := by
  obtain ⟨hmem, hinfix⟩ := helperSource_mem_cell h
  refine ⟨hmem, hinfix, lines_helperSource _ b, ?_⟩
  intro line hline binding hspelled n _
  -- A name is declared if some line has it read, this one or another.
  rw [mem_boundNames_iff, ← boundName?_of_spelled hspelled]
  constructor
  · rintro ⟨line', hline', hread⟩
    by_cases hsame : line' = line
    · exact .inl (hsame ▸ hread)
    · exact .inr ⟨line', hline', hsame, hread⟩
  · rintro (hread | ⟨line', hline', -, hread⟩)
    · exact ⟨line, hline, hread⟩
    · exact ⟨line', hline', hread⟩

/-- The theorem at cells with two repeated blocks: the first line of the first one assigns to one
name, which is declared. -/
theorem helper_declares_loading :
    findDuplicates (NameMaker.codeOf loadingCells) = [] ++ loadBlock :: [sumBlock] ∧
      (Binding.assignment ["first"]).Spelled "first = load(name)" ∧
      helpersCell [loadBlock, sumBlock] ∈ extractDuplicates loadingCells ∧
      "first".toList ∈ boundNames (lines loadBlock) ∧
      lines (helperSource 1 loadBlock) =
        heading 1 ++ ["    global first, second".toList] ++ (lines loadBlock).map bodyLine := by
  have hblocks : findDuplicates (NameMaker.codeOf loadingCells) = [] ++ loadBlock :: [sumBlock] :=
    findDuplicates_loadingCells
  have hname : IsName "first" := ⟨by decide, by decide, by decide⟩
  have hspelled : (Binding.assignment ["first"]).Spelled "first = load(name)" :=
    @Binding.Spelled.assignment _ _ [' '] " load(name)" (.one hname) (by decide) (by decide)
  have hline : "first = load(name)".toList ∈ lines loadBlock := by decide +kernel
  have hbound : declaration (boundNames (lines loadBlock)) =
      ["    global first, second".toList] := by
    decide +kernel
  obtain ⟨hmem, -, hlines, hdeclared⟩ := helper_declares_iff hblocks
  rw [hbound] at hlines
  refine ⟨hblocks, hspelled, hmem, ?_, hlines⟩
  exact (hdeclared _ hline _ hspelled "first" List.mem_cons_self).mpr (.inl rfl)

/-- A block of which the first line assigns to two names. -/
def pairBlock : Text := "first, second = load(), load()\nprint(first)\nprint(second, first)"

/-- Two cells that hold it. -/
def pairCells : List Cell := [Cell.newCode pairBlock, Cell.newCode pairBlock]

/-- A function may bind names that it does not declare. -/
theorem helper_misses_targets :
    findDuplicates (NameMaker.codeOf pairCells) = [] ++ pairBlock :: [] ∧
      helpersCell [pairBlock] ∈ extractDuplicates pairCells ∧
      "first, second = load(), load()".toList ∈ lines pairBlock ∧
      (Binding.assignment ["first", "second"]).Spelled "first, second = load(), load()" ∧
      boundNames (lines pairBlock) = [] ∧
      lines (helperSource 1 pairBlock) = heading 1 ++ (lines pairBlock).map bodyLine := by
  have hblocks : findDuplicates (NameMaker.codeOf pairCells) = [] ++ pairBlock :: [] := by
    decide +kernel
  have hsecond : Listed ["second"] "second" := .one ⟨by decide, by decide, by decide⟩
  have htargets : Listed ["first", "second"] "first, second" :=
    @Listed.more _ [] [' '] _ _ ⟨by decide, by decide, by decide⟩ (by decide) (by decide) hsecond
  have hspelled :
    (Binding.assignment ["first", "second"]).Spelled "first, second = load(), load()" :=
    @Binding.Spelled.assignment _ "first, second" [' '] " load(), load()" htargets (by decide)
      (by decide)
  have hnone : boundNames (lines pairBlock) = [] := by decide +kernel
  have hlines := lines_helperSource 1 pairBlock
  rw [hnone] at hlines
  exact ⟨hblocks, (helperSource_mem_cell hblocks).1, by decide +kernel, hspelled, hnone, hlines⟩

end Notebook

end CodeTidy
