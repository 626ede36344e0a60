import CodeTidy.Instruction
import CodeTidy.Proofs.Constant.Restore
import CodeTidy.Proofs.Notebook.Hoisted

/-!
# `CodeTidy.Proofs.Constant.Extraction`: constants are extracted, and taken back

Constants are extracted from a text and from the cells of a notebook. Either way
the numbers that are repeated outside strings and comments get their names, and
the definitions are put in at one place: a block of lines, or two cells. What
stands around that place is the old text, or the old cells, with the names in it,
so it is restored when the numbers are put back. The theorems:

* `lines_extractConstants`: the lines of the new text around the block.
* `hoistConstants_eq`: the cells of the new notebook around the two new ones.
* `extraction_exact_and_undone`: which numbers are extracted, and that it can be undone.
-/

set_option autoImplicit false

namespace CodeTidy

open Text Constant

namespace Constant

/-- The numbers `ns` are those that occur at least `least` times, other than the common ones. -/
structure AreRepeated (least : Nat) (occurrences ns : List Text) : Prop where
  nodup : ns.Nodup
  mem_iff : ∀ n, n ∈ ns ↔ n ≠ "100".toList ∧ n ≠ "1000".toList ∧ least ≤ occurrences.count n

/-- The repeated numbers are those that occur often enough and are not common. -/
theorem areRepeated_repeated {least : Nat} (hleast : 0 < least) (occurrences : List Text) :
    AreRepeated least occurrences (repeated least occurrences) where
  nodup := nodup_repeated least occurrences
  mem_iff n := by
    have hcommon : n ∉ commonNumbers ↔ n ≠ "100".toList ∧ n ≠ "1000".toList := by
      show n ∉ ["100".toList, "1000".toList] ↔ _
      rw [List.mem_cons, List.mem_singleton, not_or]
    rw [mem_repeated_iff hleast, hcommon, and_assoc]

/-- The text holds none of the names of the numbers as a word. -/
def LacksNames (ns : List Text) (t : Text) : Prop :=
  ∀ n ∈ ns, name n ∉ (Pattern.word.hits t).map Match.text

/-- Without numbers nothing is named. -/
theorem substitute_nil (g : LiteralGrammar) (t : Text) : substitute g [] t = t := by
  refine Pattern.replace_eq_self isSolid_number fun _ m _ => ?_
  split
  · rfl
  · exact if_neg Bool.false_ne_true

end Constant

/-! ### Texts -/

namespace Instruction

/-- The numbers that are extracted from a text. -/
def extractedNumbers (family : Family) (t : Text) : List Text :=
  repeated minRepeats (numbersIn (literals family) t)

/-- No line, or one blank line. -/
def IsMargin (ls : List Text) : Prop := ls = [] ∨ ls = [[]]

/-- The lines that are put in for numbers: their definitions between blank lines, and nothing if
there are no numbers. -/
inductive IsBlock (family : Family) (ns : List Text) : List Text → Prop
  | none (hnone : ns = []) : IsBlock family ns []
  | some {above below : List Text} (hsome : ns ≠ []) (habove : IsMargin above)
      (hbelow : IsMargin below) :
      IsBlock family ns (above ++ ns.map (definition family) ++ below)

/-- The definitions are put in at one place, between blank lines. -/
theorem exists_insertDefinitions (family : Family) (definitions ls : List Text) :
    ∃ n above below, insertDefinitions family definitions ls =
        ls.take n ++ (above ++ definitions ++ below) ++ ls.drop n ∧
      IsMargin above ∧ IsMargin below := by
  refine ⟨headLength family ls, _, _, rfl, ?_, ?_⟩
  · split
    · exact .inr rfl
    · exact .inl rfl
  · split
    · split
      · exact .inl rfl
      · exact .inr rfl
    · exact .inr rfl

/-- A definition is one line. -/
theorem not_mem_definition (family : Family) {n : Text} (h : IsNumber n) :
    '\n' ∉ definition family n := by
  have hplain : '\n' ∉ Constant.definition n := fun hmem =>
    List.any_eq_false.mp (mayDefine_definition h).plain _ hmem (by decide)
  rw [definition]
  split
  · have hdefinition : "const " ++ name n ++ " = " ++ n ++ ";" =
        "const ".toList ++ (Constant.definition n ++ ";".toList) := by
      rw [Constant.definition]
      simp only [List.append_assoc]
    rw [hdefinition, List.mem_append, List.mem_append, not_or, not_or]
    exact ⟨by decide, hplain, by decide⟩
  · exact hplain

/-- The lines that are put in hold no line feed. -/
theorem IsBlock.not_mem {family : Family} {ns block : List Text} (h : IsBlock family ns block)
    (hns : ∀ n ∈ ns, IsNumber n) {l : Text} (hl : l ∈ block) : '\n' ∉ l := by
  have hmargin : ∀ {ls : List Text}, IsMargin ls → l ∈ ls → '\n' ∉ l := by
    rintro ls (rfl | rfl) hmem
    · cases hmem
    · rw [List.mem_singleton.mp hmem]
      exact List.not_mem_nil
  cases h with
  | none => cases hl
  | some _ habove hbelow =>
    rw [List.mem_append, List.mem_append] at hl
    rcases hl with (hl | hl) | hl
    · exact hmargin habove hl
    · obtain ⟨n, hn, rfl⟩ := List.mem_map.mp hl
      exact not_mem_definition family (hns n hn)
    · exact hmargin hbelow hl

/-- The lines of the new text: those of the text with names, and the block between them. -/
theorem lines_extractConstants (family : Family) (t : Text) :
    ∃ before block after, lines (extractConstants family t) = before ++ block ++ after ∧
      IsBlock family (extractedNumbers family t) block ∧
      before ++ after = lines (substitute (literals family) (extractedNumbers family t) t) := by
  by_cases hnone : extractedNumbers family t = []
  · have hsame : extractConstants family t = t := if_pos (List.isEmpty_iff.mpr hnone)
    refine ⟨lines t, [], [], ?_, .none hnone, ?_⟩
    · rw [hsame, List.append_nil, List.append_nil]
    · rw [hnone, substitute_nil, List.append_nil]
  · generalize hls : lines (substitute (literals family) (extractedNumbers family t) t) = ls
    obtain ⟨n, above, below, hinsert, habove, hbelow⟩ := exists_insertDefinitions family
      ((extractedNumbers family t).map (definition family)) ls
    have hblock : IsBlock family (extractedNumbers family t) _ := .some hnone habove hbelow
    have hnumbers : ∀ n ∈ extractedNumbers family t, IsNumber n := fun n hn =>
      spec_of_mem_numbersIn (mem_of_mem_repeated hn)
    have hnew : extractConstants family t = unlines (insertDefinitions family
        ((extractedNumbers family t).map (definition family)) ls) := by
      rw [← hls]
      exact if_neg (mt List.isEmpty_iff.mp hnone)
    refine ⟨ls.take n, _, ls.drop n, ?_, hblock, List.take_append_drop n ls⟩
    have hold : ∀ l ∈ ls, '\n' ∉ l := fun l hl => not_mem_of_mem_lines (hls ▸ hl)
    rw [hnew, hinsert]
    refine lines_unlines (fun hempty => ?_) (fun l hl => ?_)
    · -- There is a definition in it.
      rw [List.append_eq_nil_iff, List.append_eq_nil_iff, List.append_eq_nil_iff,
        List.append_eq_nil_iff, List.map_eq_nil_iff] at hempty
      exact hnone hempty.1.2.1.2
    · rw [List.mem_append, List.mem_append] at hl
      rcases hl with (hl | hl) | hl
      · exact hold l (List.mem_of_mem_take hl)
      · exact hblock.not_mem hnumbers hl
      · exact hold l (List.mem_of_mem_drop hl)

end Instruction

/-! ### Notebooks -/

namespace Notebook

/-- The cell is the old one with another source, from which the old source is restored. A cell
without code is the old one. -/
structure RestoresTo (ns : List Text) (cell' cell : Cell) : Prop where
  isCode : cell'.isCode = cell.isCode
  other : cell.isCode = false → cell' = cell
  code : cell.isCode = true → cell' = cell.update cell'.source
  source : cell.isCode = true → restore ns cell'.source = cell.source

/-- A cell whose source has none of the names yet is restored from the one with names. -/
theorem restoresTo_nameNumbers {ns : List Text} {cell : Cell}
    (h : cell.isCode = true → LacksNames ns cell.source) :
    RestoresTo ns (nameNumbers ns cell) cell where
  isCode := isCode_nameNumbers ns cell
  other hother := if_neg (by rw [hother]; exact Bool.false_ne_true)
  code hcode := by
    rw [nameNumbers, if_pos hcode, Cell.source_update _ hcode]
  source hcode := by
    rw [nameNumbers, if_pos hcode, Cell.source_update _ hcode]
    exact restore_substitute .python (h hcode)

/-- Without numbers to name a cell stays as it is. -/
theorem nameNumbers_nil (cell : Cell) : nameNumbers [] cell = cell := by
  rw [nameNumbers]
  split
  · rw [substitute_nil]
    exact if_pos rfl
  · rfl

/-- The cells of the new notebook: the old ones with names, and the new ones between them. -/
theorem hoistConstants_eq (cells : List Cell) :
    ∃ before after, before ++ after = cells.map (nameNumbers (hoistedNumbers cells)) ∧
      hoistConstants cells = before ++
        (if hoistedNumbers cells = [] then [] else constantCells (hoistedNumbers cells)) ++
          after := by
  by_cases hnone : hoistedNumbers cells = []
  · have hsame : hoistConstants cells = cells := if_pos (List.isEmpty_iff.mpr hnone)
    refine ⟨cells, [], ?_, ?_⟩
    · rw [hnone, List.append_nil, funext nameNumbers_nil, List.map_id']
    · rw [hsame, if_pos hnone, List.append_nil, List.append_nil]
  · have hnew : hoistConstants cells = beforeCode (constantCells (hoistedNumbers cells))
        (cells.map (nameNumbers (hoistedNumbers cells))) :=
      if_neg (mt List.isEmpty_iff.mp hnone)
    refine ⟨_, _, List.takeWhile_append_dropWhile (p := fun c => !c.isCode), ?_⟩
    rw [hnew, if_neg hnone, beforeCode]

end Notebook

/-! ### Both -/

open Instruction Notebook in
/-- The numbers that are extracted are those that occur often enough outside strings and comments.
If the text has none of their names, it is restored when the block of lines is taken out and each
name is replaced by its number. If no code cell has one, each cell is restored when the new cells
are taken out. -/
theorem extraction_exact_and_undone :
    (∀ (family : Family) (t : Text),
      AreRepeated 3 (((literals family).hitsOutside number t).map Match.text)
        (extractedNumbers family t) ∧
      (LacksNames (extractedNumbers family t) t → ∃ before block after,
        lines (extractConstants family t) = before ++ block ++ after ∧
        IsBlock family (extractedNumbers family t) block ∧
        restore (extractedNumbers family t) (unlines (before ++ after)) = t)) ∧
    (∀ cells : List Cell,
      AreRepeated 2 ((cells.filter Cell.isCode).flatMap fun c =>
        (LiteralGrammar.python.hitsOutside number c.source).map Match.text) (hoistedNumbers cells) ∧
      ((∀ c ∈ cells, c.isCode = true → LacksNames (hoistedNumbers cells) c.source) →
        ∃ before inserted after, hoistConstants cells = before ++ inserted ++ after ∧
        inserted =
          (if hoistedNumbers cells = [] then [] else constantCells (hoistedNumbers cells)) ∧
        List.Forall₂ (RestoresTo (hoistedNumbers cells)) (before ++ after) cells)) := by
  refine ⟨fun family t => ⟨?_, fun hlacks => ?_⟩, fun cells => ⟨?_, fun hlacks => ?_⟩⟩
  · rw [map_text_hitsOutside]
    exact areRepeated_repeated (by decide) _
  · obtain ⟨before, block, after, hlines, hblock, hold⟩ := lines_extractConstants family t
    refine ⟨before, block, after, hlines, hblock, ?_⟩
    rw [hold, unlines_lines]
    exact restore_substitute _ hlacks
  · simp only [map_text_hitsOutside]
    exact areRepeated_repeated (by decide) _
  · obtain ⟨before, after, hold, hnew⟩ := hoistConstants_eq cells
    refine ⟨before, _, after, hnew, rfl, ?_⟩
    rw [hold, List.forall₂_map_left_iff, List.forall₂_same]
    exact fun c hc => restoresTo_nameNumbers (hlacks c hc)

open Instruction Notebook in
/-- The theorem at a text and a notebook in which a number is repeated. -/
theorem extraction_undone_calls :
    extractedNumbers .javascript "f(404, 404, 404);" = ["404".toList] ∧
      (∃ before block after,
        lines (extractConstants .javascript "f(404, 404, 404);") = before ++ block ++ after ∧
        IsBlock .javascript (extractedNumbers .javascript "f(404, 404, 404);") block ∧
        restore (extractedNumbers .javascript "f(404, 404, 404);") (unlines (before ++ after)) =
          "f(404, 404, 404);".toList) ∧
      hoistedNumbers [Cell.newMarkdown "404", Cell.newCode "f(404, 404)"] = ["404".toList] ∧
      ∃ before inserted after,
        hoistConstants [Cell.newMarkdown "404", Cell.newCode "f(404, 404)"] =
          before ++ inserted ++ after ∧
        inserted = constantCells ["404".toList] ∧
        List.Forall₂ (RestoresTo ["404".toList]) (before ++ after)
          [Cell.newMarkdown "404", Cell.newCode "f(404, 404)"] := by
  have hcells : hoistedNumbers [Cell.newMarkdown "404", Cell.newCode "f(404, 404)"] =
      ["404".toList] := by decide +kernel
  -- Neither text speaks of a constant yet.
  have hlacks : LacksNames (extractedNumbers .javascript "f(404, 404, 404);")
      "f(404, 404, 404);" := by
    unfold LacksNames
    decide +kernel
  have hlacks' : ∀ c ∈ [Cell.newMarkdown "404", Cell.newCode "f(404, 404)"], c.isCode = true →
      LacksNames (hoistedNumbers [Cell.newMarkdown "404", Cell.newCode "f(404, 404)"])
        c.source := by
    unfold LacksNames
    decide +kernel
  refine ⟨by decide +kernel, (extraction_exact_and_undone.1 _ _).2 hlacks, hcells, ?_⟩
  have hundone := (extraction_exact_and_undone.2 _).2 hlacks'
  rwa [hcells] at hundone

end CodeTidy
