import CodeTidy.Instruction
import CodeTidy.Proofs.Constant.Names
import CodeTidy.Proofs.Pattern.Steps
import CodeTidy.Proofs.Text.Gauge
import CodeTidy.Proofs.Text.Pieces

/-!
# `CodeTidy.Proofs.Instruction.Gauge`: wishes never make a text less tidy

To remove comments takes loud lines away; to extract constants changes nothing
that counts for the gauge: a name is put in the place of a number, and lines
with definitions are put between others. The theorems:

* `gauge_removeComments`, `gauge_extractConstants`: the two wishes.
* `gauge_apply`: the wishes of a caller.
-/

set_option autoImplicit false

namespace CodeTidy

open Pattern Text

namespace Instruction

/-! ### Comments -/

/-- A line that holds only a comment is loud. -/
theorem one_le_of_isCommentLine {l : Text} (h : isCommentLine .python l = true) :
    1 ≤ loudLines l := by
  refine one_le_loudLines (List.any_eq_true.mpr ⟨'#', ?_, rfl⟩)
  simp only [isCommentLine, commentMarks, Bool.and_eq_true] at h
  have hmark : startsWith (trimStart l) "#" = true := by simpa [startsWithAny] using h.2
  obtain ⟨r, hr⟩ := List.isPrefixOf_iff_prefix.mp hmark
  have hmem : '#' ∈ trimStart l := by
    rw [← hr]
    exact List.mem_cons_self
  exact (List.dropWhile_suffix isBlank).subset hmem

/-- Each line with a comment that is taken away counts. -/
theorem sum_filter_isCommentLine (ls : List Text) :
    ((ls.filter (fun l => !isCommentLine .python l)).map loudLines).sum +
      ls.countP (isCommentLine .python) ≤ (ls.map loudLines).sum := by
  induction ls with
  | nil => exact Nat.le_refl 0
  | cons l ls ih =>
    rw [List.map_cons, List.sum_cons, List.filter_cons, List.countP_cons]
    cases hcomment : isCommentLine .python l with
    | true =>
      have hone := one_le_of_isCommentLine hcomment
      simp only [Bool.not_true, Bool.false_eq_true, if_false, if_true]
      omega
    | false =>
      simp only [Bool.not_false, Bool.false_eq_true, if_false, if_true, List.map_cons,
        List.sum_cons]
      omega

/-- Without comments a text is the same or has fewer loud lines. -/
theorem gauge_removeComments (t : Text) : gauge (removeComments .python t) ≤ gauge t := by
  have hsum := sum_filter_isCommentLine (lines t)
  rcases Nat.eq_zero_or_pos ((lines t).countP (isCommentLine .python)) with hnone | hsome
  · rw [List.countP_eq_zero] at hnone
    have hall : (lines t).filter (fun l => !isCommentLine .python l) = lines t :=
      List.filter_eq_self.mpr (fun l hl => by simpa using hnone l hl)
    rw [removeComments, hall, unlines_lines]
  · refine le_of_lt (gauge_lt_of_loudLines ?_)
    have hold : loudLines t = ((lines t).map loudLines).sum := by
      rw [← loudLines_unlines, unlines_lines]
    rw [removeComments, loudLines_unlines, hold]
    omega

/-! ### Constants -/

/-- The characters of a name neither make a line loud nor clutter. -/
theorem all_isNameChar {n : Text} (hn : Constant.IsNumber n) :
    (Constant.name n).all Constant.isNameChar = true :=
  List.all_eq_true.mpr (fun _ => Constant.isNameChar_of_mem_name hn.all_isDecimal)

/-- A name may take the place of its number. -/
theorem gauge_name {n : Text} (hn : Constant.IsNumber n) (x y : Text) :
    gauge (x ++ (Constant.name n ++ y)) ≤ gauge (x ++ (n ++ y)) := by
  have hdigits := hn.all_isDecimal
  have hname := all_isNameChar hn
  have heases : Eases n (Constant.name n) := by
    refine .of_plain (any_isQuote_of_all hdigits (by decide))
      (any_makesLines_eq_false (filter_eq_nil_of_all hname (by decide))) (fun behind hend => ?_)
    rw [← List.dropLast_append_getLast hn.ne_nil, endsWithF_concat, beq_iff_eq] at hend
    have hlast := List.all_eq_true.mp hdigits _ (List.getLast_mem hn.ne_nil)
    rw [hend] at hlast
    exact absurd hlast (by decide)
  refine gauge_le (heases.loudLines_le x y) (heases.quotes x y) ?_ ?_
  · have hcount := heases.count_le
    rw [List.count_append, List.count_append, List.count_append, List.count_append]
    omega
  · have hn' := clutterFrom_of_all hdigits (by decide) (endsWithEq false x)
    have hname' := clutterFrom_of_all hname (by decide) (endsWithEq false x)
    rw [clutter, clutter, clutterFrom_append, clutterFrom_append, clutterFrom_append,
      clutterFrom_append, hn'.1, hn'.2 hn.ne_nil, hname'.1, hname'.2 (Constant.name_ne_nil n)]

/-- Names for numbers make no text untidier. -/
theorem gauge_substitute (g : LiteralGrammar) (ns : List Text) (t : Text) :
    gauge (Constant.substitute g ns t) ≤ gauge t := by
  refine replace_related Constant.isSolid_number (R := fun a b => gauge b ≤ gauge a)
    (fun t => le_refl _) (fun a b c hab hbc => le_trans hbc hab) (fun v m hm _ x => ?_)
  obtain ⟨n, hn, hreads, -⟩ := Constant.takes_number hm.takes
  have htext := Match.text_of_reads hreads
  split
  · exact le_refl _
  · dsimp only
    split
    · rw [htext]
      exact gauge_name hn x m.stop.after
    · exact le_refl _

/-- A definition counts for nothing. -/
theorem isPlainLine_definition {n : Text} (hn : Constant.IsNumber n) :
    IsPlainLine (definition .python n) := by
  have hdefinition : definition .python n = Constant.name n ++ (" = " ++ n) := by
    rw [definition, if_neg (by decide), List.append_assoc]
  have hplain : (definition .python n).any makesLines = false := by
    rw [hdefinition, List.any_append, List.any_append,
      any_makesLines_eq_false (filter_eq_nil_of_all (all_isNameChar hn) (by decide)),
      any_makesLines_eq_false (filter_eq_nil_of_all hn.all_isDecimal (by decide))]
    rfl
  -- Names, equals signs and numbers are plain, so nothing in the line makes lines.
  have hnone : ∀ c, makesLines c = true → c ∉ definition .python n := by
    intro c hc hmem
    rw [List.any_eq_false] at hplain
    exact hplain c hmem hc
  refine ⟨loudLines_eq_zero ?_, quotesFrom_eq_nil ?_ false, ?_, ?_⟩
  · rw [List.any_eq_false]
    exact fun c hc hloud => hnone c (by rw [makesLines, hloud, Bool.true_or]) hc
  · exact any_isQuote_eq_false (hnone '"' rfl) (hnone '\'' rfl)
  · exact List.count_eq_zero_of_not_mem (hnone '(' rfl)
  · rw [hdefinition, clutter, clutterFrom_append, clutterFrom_append,
      (clutterFrom_of_all (all_isNameChar hn) (by decide) _).1,
      (clutterFrom_of_all hn.all_isDecimal (by decide) _).1,
      (clutterFrom_of_all (all_isNameChar hn) (by decide) _).2 (Constant.name_ne_nil n)]
    rfl

/-- To extract constants makes no text untidier. -/
theorem gauge_extractConstants (t : Text) : gauge (extractConstants .python t) ≤ gauge t := by
  rw [extractConstants]
  split
  · exact le_refl _
  · refine le_trans (le_of_eq ?_) (gauge_substitute .python (Constant.repeated minRepeats
      (Constant.numbersIn .python t)) t)
    rw [insertDefinitions, gauge_insert, List.take_append_drop, unlines_lines]
    · rfl
    · -- What is inserted are definitions with an empty line on either side, or none.
      have hempty : IsPlainLine [] := ⟨rfl, rfl, rfl, rfl⟩
      intro l hl
      rw [List.mem_append, List.mem_append] at hl
      rcases hl with (hl | hl) | hl
      · split at hl
        · exact List.mem_singleton.mp hl ▸ hempty
        · cases hl
      · obtain ⟨n, hn, rfl⟩ := List.mem_map.mp hl
        exact isPlainLine_definition
          (Constant.spec_of_mem_numbersIn (Constant.mem_of_mem_repeated hn))
      · split at hl
        · split at hl
          · cases hl
          · exact List.mem_singleton.mp hl ▸ hempty
        · exact List.mem_singleton.mp hl ▸ hempty

/-- The wishes of a caller never make a text less tidy. -/
theorem gauge_apply (wishes t : Text) : gauge (apply .python wishes t) ≤ gauge t := by
  have hcomments : gauge (if Text.holds (Text.lower wishes) "remove comments" then
      removeComments .python t else t) ≤ gauge t := by
    split
    · exact gauge_removeComments t
    · exact le_refl _
  rw [apply]
  split
  · exact le_trans (gauge_extractConstants _) hcomments
  · exact hcomments

end Instruction

end CodeTidy
