import CodeTidy.Proofs.Generic.BlankLines
import CodeTidy.Proofs.Generic.Even
import CodeTidy.Proofs.Generic.Indent

/-!
# `CodeTidy.Proofs.Generic.Idempotent`: formatting what was formatted

The formatted text is tidy, spaced evenly and indented, so three of the four
passes find nothing to do in it. The pass for blank lines may: it runs before
the one that empties lines of white space, and knows spaces and tabs only. The
theorems:

* `outline_format`: the visible characters of the lines that are formatted.
* `format_format_eq_iff_gaps`: a second run changes nothing if and only if no
  two neighbouring lines are empty after the first one.
* `format_format_eq_iff`: the same of the text before the first run.
-/

set_option autoImplicit false

namespace CodeTidy.Generic

open Pattern Text

/-! ### The lines after the first two passes -/

/-- The text after the first two passes. -/
def squeezed (t : Text) : Text := unlines (squeeze (lines (dropTrailing t)))

/-- The four passes, the first two of them as `squeezed`. -/
theorem format_eq (t : Text) : format t = reindent (spaceOperators (squeezed t)) := by
  rw [format, replace_trailingBlanks, replace_blankLines (isTidy_dropTrailing t)]
  rfl

/-- The lines after the first two passes. -/
theorem lines_squeezed (t : Text) : lines (squeezed t) = squeeze (lines (dropTrailing t)) := by
  refine lines_unlines ?_ ?_
  · obtain ⟨l, ls, hl⟩ := List.exists_cons_of_ne_nil (lines_ne_nil (dropTrailing t))
    rw [hl, squeeze]
    exact List.cons_ne_nil _ _
  · intro l hl
    exact not_mem_of_mem_lines ((squeeze_sublist _).subset hl)

/-- After the first two passes no line ends with a space or a tab. -/
theorem isTidy_squeezed (t : Text) : IsTidy (squeezed t) := by
  intro l hl
  rw [lines_squeezed] at hl
  exact isTidy_dropTrailing t l ((squeeze_sublist _).subset hl)

/-- Whether both lines are empty. -/
def areEmpty (l l' : Text) : Bool := l.isEmpty && l'.isEmpty

/-- Nothing is squeezed exactly if no two empty lines stand in a row behind the first line. -/
theorem squeeze_eq_self_iff {ls : List Text} :
    squeeze ls = ls ↔ gaps areEmpty ls.tail = false := by
  cases ls with
  | nil => exact ⟨fun _ => rfl, fun _ => rfl⟩
  | cons l ls =>
    rw [squeeze, List.cons.injEq, List.tail_cons]
    constructor
    · rintro ⟨-, heq⟩
      rw [← Bool.not_eq_true]
      intro hgap
      have hlt := length_squeezeTail_lt hgap
      rw [heq] at hlt
      exact Nat.lt_irrefl _ hlt
    · intro hgap
      exact ⟨rfl, squeezeTail_eq_self hgap⟩

/-- Nothing is left to do for the first two passes. -/
theorem squeezed_eq_self_iff {t : Text} (h : IsTidy t) :
    squeezed t = t ↔ gaps areEmpty (lines t).tail = false := by
  rw [← squeeze_eq_self_iff, squeezed, h.dropTrailing_eq]
  constructor
  · intro heq
    have hlines := lines_squeezed t
    rw [squeezed, h.dropTrailing_eq, heq] at hlines
    exact hlines.symm
  · intro heq
    rw [heq, unlines_lines]

/-- Behind the first line, `squeeze` is `squeezeTail`. -/
theorem tail_squeeze (ls : List Text) : (squeeze ls).tail = squeezeTail ls.tail := by
  cases ls <;> rfl

/-- After the first two passes no two empty lines stand in a row behind the first line. -/
theorem gaps_squeezed (t : Text) : gaps areEmpty (lines (squeezed t)).tail = false := by
  have hnone : (fun l l' => areEmpty l l' && !(l.isEmpty && l'.isEmpty)) = fun _ _ => false :=
    funext fun l => funext fun l' => Bool.and_not_self _
  rw [lines_squeezed, tail_squeeze, gaps_squeezeTail, hnone, ← Bool.not_eq_true, gaps_iff]
  rintro ⟨l, l', -, h⟩
  cases h

/-! ### The visible characters of the lines -/

/-- A text without white space but line feeds has the lines of the outline. -/
theorem lines_filter (t : Text) :
    lines (t.filter (fun c => !isBlank c || c == '\n')) = outline t := by
  have hline {l : Text} (hl : '\n' ∉ l) :
      l.filter (fun c => !isBlank c || c == '\n') = nonBlank l := by
    refine List.filter_congr fun c hc => ?_
    rw [beq_false_of_ne (ne_of_mem_of_not_mem hc hl), Bool.or_false]
  have hfeed {l : Text} (hl : '\n' ∉ l) : '\n' ∉ nonBlank l :=
    fun hmem => hl (List.mem_of_mem_filter hmem)
  induction t using lines_induction with
  | one l hl => rw [outline, lines_eq_singleton hl, hline hl, lines_eq_singleton (hfeed hl)]; rfl
  | more l r hl ih =>
    rw [outline, lines_append hl, List.filter_append, hline hl,
      List.filter_cons_of_pos (by decide), lines_append (hfeed hl), ih]
    rfl

/-- The spaces around operators change no visible character of any line. -/
theorem outline_spaceOperators (t : Text) : outline (spaceOperators t) = outline t := by
  have hkeep : ∀ c, isIndent c = true → (!isBlank c || c == '\n') = false := by
    intro c hc
    rw [isIndent, Bool.or_eq_true, beq_iff_eq, beq_iff_eq] at hc
    rcases hc with rfl | rfl <;> rfl
  rw [← lines_filter, ← lines_filter, filter_spaceOperators hkeep]

/-- To indent changes no visible character of any line. -/
theorem outline_reindent (t : Text) : outline (reindent t) = outline t := by
  rw [reindent]
  split
  · rw [outline, lines_indentLines, map_nonBlank_indentLines, outline]
  · rfl

/-- The last two passes change no visible character of any line. -/
theorem outline_format (t : Text) : outline (format t) = outline (squeezed t) := by
  rw [format_eq, outline_reindent, outline_spaceOperators]

/-- The last two passes change the number of lines neither. -/
theorem length_lines_format (t : Text) :
    (lines (format t)).length = (squeeze (lines (dropTrailing t))).length := by
  have hlength := congrArg List.length (outline_format t)
  rwa [outline, outline, List.length_map, List.length_map, lines_squeezed] at hlength

/-- The end of a line that is dropped shows nothing. -/
theorem nonBlank_dropEndWhile (l : Text) : nonBlank (dropEndWhile isIndent l) = nonBlank l := by
  obtain ⟨s, hs, heq⟩ := exists_dropEndWhile isIndent l
  have hnone := nonBlank_eq_nil (all_isBlank_of_isIndent hs)
  rw [heq, nonBlank_append, hnone, List.append_nil, ← heq]

/-- Brackets at the ends of lines stay there. -/
theorem isBracketStructured_squeezed (t : Text) :
    isBracketStructured (squeezed t) = isBracketStructured t := by
  have hdrop : outline (dropTrailing t) = outline t := by
    rw [outline, lines_dropTrailing, List.map_map, outline]
    exact List.map_congr_left fun l _ => nonBlank_dropEndWhile l
  rw [← isBracketStructured_congr hdrop, isBracketStructured, lines_squeezed, isBracketStructured]
  exact any_squeeze rfl _

/-! ### Backslashes -/

/-- Behind a backslash a line ends with spaces and tabs at most, as no other white space does. -/
def EndsPlainly (l : Text) : Prop :=
  ∀ v s, l = v ++ '\\' :: s → s.all isBlank = true → s.all isIndent = true

/-- If the lines end plainly, then after the first two passes nothing is left behind a backslash at
the end of a line. -/
theorem endsStrictly_squeezed {t : Text} (h : ∀ l ∈ lines t, EndsPlainly l) :
    ∀ l ∈ lines (squeezed t), EndsStrictly l := by
  intro l hl v s heq hs
  have htidy := isTidy_squeezed t l hl
  rw [lines_squeezed] at hl
  have hmem := (squeeze_sublist _).subset hl
  rw [lines_dropTrailing, List.mem_map] at hmem
  obtain ⟨l₀, hl₀, rfl⟩ := hmem
  obtain ⟨z, hz, hsplit⟩ := exists_dropEndWhile isIndent l₀
  have hindent : (s ++ z).all isIndent = true := by
    refine h l₀ hl₀ v (s ++ z) ?_ ?_
    · rw [hsplit, heq]
      simp
    · rw [List.all_append, hs, all_isBlank_of_isIndent hz]
      rfl
  rw [List.all_append, Bool.and_eq_true] at hindent
  rw [heq] at htidy
  -- Spaces and tabs have gone from the ends of lines.
  rw [dropEndWhile_eq, List.rdropWhile_eq_self_iff] at htidy
  by_contra hne
  refine htidy (by simp) ?_
  have hlast : (v ++ '\\' :: s).getLast (by simp) ∈ s := by
    rw [List.getLast_append_of_ne_nil _ (List.cons_ne_nil _ _), List.getLast_cons hne]
    exact List.getLast_mem hne
  exact List.all_eq_true.mp hindent.1 _ hlast

/-- The spaces around operators are put behind no backslash at the end of a line. -/
theorem endsStrictly_spaceOperators {t : Text} (h : ∀ l ∈ lines t, EndsStrictly l) :
    ∀ l ∈ lines (spaceOperators t), EndsStrictly l := by
  by_cases hstructured : isBracketStructured t = true
  · rintro l hl v s rfl hs
    obtain ⟨u, r, ht, hfeed, hr⟩ := exists_suffix_iff.mp ⟨_, hl, List.suffix_append v ('\\' :: s)⟩
    rw [spaceOperators_eq hstructured] at ht
    obtain ⟨u', c, segments, hreads, hcuts, hrest, -⟩ :=
      exists_cuts_behind_kept (cuts_segments (isSolid_spec rfl) t) ⟨rfl, rfl⟩ ht
    have hfollows : c.follows endsOperand = false := hreads.follows _
    -- White space behind the backslash ends no operand, so no operator is spaced there.
    have hnone : ∀ a ∈ s, endsOperand a = false := by
      intro a ha
      rw [← Bool.not_eq_true]
      intro hoperand
      have hblank := (spec_of_endsOperand hoperand).1
      rw [List.all_eq_true.mp hs a ha] at hblank
      cases hblank
    obtain ⟨c', hreads', hhead⟩ := exists_cuts_of_no_operand hcuts hfollows hnone hrest
    have hafter : t = u' ++ ('\\' :: s ++ c'.after) := by
      have happ := (hreads.trans hreads').after_eq
      simpa [Cursor.start] using happ
    obtain ⟨l₀, hl₀, v₀, rfl⟩ := exists_suffix_iff.mpr ⟨u', c'.after, hafter, hfeed, hhead ▸ hr⟩
    exact h _ hl₀ v₀ s rfl hs
  · rw [spaceOperators, if_neg hstructured]
    exact h

/-! ### The last two passes -/

/-- Lines that are indented anew are spaced evenly if they were before. -/
theorem IsEven.reindent {t : Text} (h : IsEven t) (hstrict : ∀ l ∈ lines t, EndsStrictly l) :
    IsEven (reindent t) := by
  rw [Generic.reindent]
  split
  · intro v x s sign s' r ht hx hop hout
    obtain ⟨y, r, rfl⟩ : ∃ y r', r = y :: r' := by
      have hbehind := hop.behind
      cases r with
      | nil => cases hbehind
      | cons y r => exact ⟨y, r, rfl⟩
    have hblank := (spec_of_endsOperand hx).1
    -- The operator with its operands, which stands on one line.
    let w := x :: (s ++ (sign ++ (s' ++ [y])))
    have hsplit : unlines (indentLines 0 (lines t)) = v ++ (w ++ r) := by
      rw [ht]
      simp [w]
    have hfeed : '\n' ∉ w := by
      intro hmem
      have hcases : '\n' = x ∨ '\n' ∈ s ++ (sign ++ s') ∨ '\n' = y := by
        simpa [w, or_assoc] using hmem
      rcases hcases with rfl | hmem | rfl
      · cases hblank
      · rcases hop.isIndent_or_isSign _ hmem with hindent | hsign
        · cases hindent
        · cases hsign
      · cases isBlank_of_beginsOperand hop.behind
    obtain ⟨v', r', ht', hv⟩ := exists_stretch hsplit (by simp [w, hblank]) hfeed
    have ht'' : t = v' ++ x :: (s ++ (sign ++ (s' ++ y :: r'))) := by
      rw [ht']
      simp [w]
    refine h v' x s sign s' (y :: r') ht'' hx (hop.congr rfl) ?_
    rw [(respaced_indentLines hstrict 0).isCovered_eq hblank ht'' ht hv, hout]
  · exact h

/-- To indent twice is to indent once. -/
theorem reindent_reindent (t : Text) : reindent (reindent t) = reindent t := by
  by_cases h : isBracketStructured t = true
  · have heq : reindent t = unlines (indentLines 0 (lines t)) := if_pos h
    rw [reindent, if_pos ((isBracketStructured_congr (outline_reindent t)).trans h), heq,
      lines_indentLines, indentLines_indentLines]
  · have heq : reindent t = t := if_neg h
    rw [heq, heq]

/-! ### Two runs -/

section

variable {t : Text}

/-- Where no lines are indented, the first two passes are all that changes the text. -/
theorem format_eq_squeezed (h : isBracketStructured t = false) : format t = squeezed t := by
  have hsqueezed := (isBracketStructured_squeezed t).trans h
  rw [format_eq, reindent, spaceOperators, hsqueezed, if_neg Bool.false_ne_true, hsqueezed,
    if_neg Bool.false_ne_true]

/-- Then a second run changes nothing. -/
theorem format_format_of_not_structured (h : isBracketStructured t = false) :
    format (format t) = format t := by
  have htwice : squeezed (squeezed t) = squeezed t :=
    (squeezed_eq_self_iff (isTidy_squeezed t)).mpr (gaps_squeezed t)
  rw [format_eq_squeezed h, format_eq_squeezed ((isBracketStructured_squeezed t).trans h), htwice]

variable (hstructured : isBracketStructured t = true)
include hstructured

/-- The lines of the formatted text are those that the last pass indents. -/
theorem exists_format_eq : ∃ u, outline u = outline (squeezed t) ∧
    format t = unlines (indentLines 0 (lines u)) := by
  refine ⟨spaceOperators (squeezed t), outline_spaceOperators _, ?_⟩
  rw [format_eq, reindent, if_pos]
  rw [isBracketStructured_congr (outline_spaceOperators _), isBracketStructured_squeezed,
    hstructured]

/-- A second run changes nothing if and only if the first one leaves no empty lines side by
side. -/
theorem format_format_eq_iff_gaps (hplain : ∀ l ∈ lines t, EndsPlainly l) :
    format (format t) = format t ↔ gaps areEmpty (lines (format t)).tail = false := by
  have htidy : IsTidy (format t) := by
    obtain ⟨u, -, hu⟩ := exists_format_eq hstructured
    rw [hu]
    exact isTidy_indentLines 0 u
  have hstrict := endsStrictly_squeezed hplain
  have heven : IsEven (format t) := by
    have hsqueezed := (isBracketStructured_squeezed t).trans hstructured
    rw [format_eq]
    exact (isEven_spaceOperators hsqueezed).reindent (endsStrictly_spaceOperators hstrict)
  have hindented : reindent (format t) = format t := by
    rw [format_eq, reindent_reindent]
  rw [← squeezed_eq_self_iff htidy]
  constructor
  · intro heq
    rw [squeezed_eq_self_iff htidy, ← squeeze_eq_self_iff]
    -- A second run that drops an empty line leaves fewer lines.
    have hlength := length_lines_format (format t)
    rw [heq, htidy.dropTrailing_eq] at hlength
    exact (squeeze_sublist _).eq_of_length hlength.symm
  · intro heq
    rw [format_eq (format t), heq, heven.spaceOperators_eq, hindented]

/-- The lines that are empty side by side after the first run are blank before it, and not of
spaces and tabs alone. -/
theorem gaps_format : gaps areEmpty (lines (format t)).tail =
    gaps (fun l l' => l.all isBlank && l'.all isBlank && !(l.all isIndent && l'.all isIndent))
      (lines t).tail := by
  obtain ⟨u, hu, hformat⟩ := exists_format_eq hstructured
  -- A line of the new text is empty if nothing visible is on it.
  have hempty : ∀ l ∈ lines (format t), l.isEmpty = (nonBlank l).isEmpty := by
    intro l hl
    rw [hformat, lines_indentLines] at hl
    rw [Bool.eq_iff_iff, List.isEmpty_iff, List.isEmpty_iff]
    exact ⟨fun h => by rw [h]; rfl, eq_nil_of_mem_indentLines hl⟩
  have hdrop (l : Text) : (dropEndWhile isIndent l).isEmpty = l.all isIndent := by
    rw [Bool.eq_iff_iff, List.isEmpty_iff, dropEndWhile_eq_nil_iff]
  -- The outline of the new text is that of the squeezed one, whose gaps are those of the old text
  -- less the ones that squeezing takes away.
  calc gaps areEmpty (lines (format t)).tail
      = gaps (fun l l' => areEmpty (nonBlank l) (nonBlank l')) (lines (format t)).tail := by
        refine gaps_congr fun l hl l' hl' => ?_
        rw [areEmpty, hempty l (List.mem_of_mem_tail hl), hempty l' (List.mem_of_mem_tail hl'),
          areEmpty]
    _ = gaps areEmpty (outline (format t)).tail := by
        rw [outline, ← List.map_tail, gaps_map]
    _ = gaps areEmpty ((squeezeTail (lines (dropTrailing t)).tail).map nonBlank) := by
        rw [outline_format, outline, lines_squeezed, ← List.map_tail, tail_squeeze]
    _ = gaps (fun l l' => areEmpty (nonBlank l) (nonBlank l') && !(l.isEmpty && l'.isEmpty))
          (lines (dropTrailing t)).tail := by
        rw [gaps_map, gaps_squeezeTail]
    _ = _ := by
        rw [lines_dropTrailing, ← List.map_tail, gaps_map]
        simp only [areEmpty, nonBlank_dropEndWhile, isEmpty_nonBlank, hdrop]

end

/-- A second run changes nothing if and only if the text is not indented, or has no two blank lines
side by side, from its second line on and up to its last but one, of which one holds other white
space than spaces and tabs. No such white space may stand behind a backslash at the end of a line
that is indented, where it would be escaped. -/
theorem format_format_eq_iff {t : Text} (h : isBracketStructured t = true →
      ∀ l ∈ lines t, ∀ v s, l = v ++ '\\' :: s → s.all isBlank = true → s.all isIndent = true) :
    format (format t) = format t ↔ (isBracketStructured t = true →
      ¬∃ l l', [l, l'] <:+: (lines t).tail.dropLast ∧ l.all isBlank = true ∧
        l'.all isBlank = true ∧ ¬(l.all isIndent = true ∧ l'.all isIndent = true)) := by
  by_cases hstructured : isBracketStructured t = true
  · rw [format_format_eq_iff_gaps hstructured (h hstructured), gaps_format hstructured,
      ← Bool.not_eq_true, gaps_iff]
    simp [hstructured, and_assoc]
  · rw [Bool.not_eq_true] at hstructured
    exact ⟨fun _ htrue => (Bool.false_ne_true (hstructured.symm.trans htrue)).elim,
      fun _ => format_format_of_not_structured hstructured⟩

/-- Blank lines that end with carriage returns are emptied side by side, and one of them goes in the
second run. -/
theorem format_format_carriage_returns :
    format (format "\x7b\r\n\r\n\r\n\x7d".toList) ≠ format "\x7b\r\n\r\n\r\n\x7d".toList := by
  decide +kernel

/-- The theorem at a call over three lines, in which an operator is spaced and indented. -/
theorem format_format_call :
    format (format "f(\n\ta=b\n)".toList) = format "f(\n\ta=b\n)".toList := by
  have hslash : ∀ l ∈ lines "f(\n\ta=b\n)".toList, '\\' ∉ l := by decide
  have hone : (lines "f(\n\ta=b\n)".toList).tail.dropLast.length = 1 := by decide
  refine (format_format_eq_iff fun _ l hl v s heq _ => ?_).mpr fun _ hgap => ?_
  · exact absurd (by rw [heq]; simp) (hslash l hl)
  · obtain ⟨l, l', hmem, -⟩ := hgap
    have htwo := List.IsInfix.length_le hmem
    rw [hone] at htwo
    cases htwo with
    | step h => cases h

end CodeTidy.Generic
