import CodeTidy.Proofs.Generic.Idempotent
import CodeTidy.Proofs.Text.Pieces

/-!
# `CodeTidy.Proofs.Generic.Margin`: the white space in front of lines

Block structure is told by the white space in front of the lines that hold more than white space.
The formatter leaves it alone in a text without brackets at the ends of lines. One such bracket, and
each line of the text is indented by the brackets that count as open: one more behind a line that
ends with an opening bracket, one less from a line on that begins with a closing one. So lines
outside of all brackets lose what is in front of them. A bracket that is closed within a line still
counts as open, and then they are indented. The theorems:

* `map_nonBlank_visibleLines_format`: the formatted text has the same visible lines.
* `map_margin_visibleLines_format`: what stands in front of each of them.
* `leavesOpenBelow_append`: what one more line does to the brackets that are open.
* `leavesOpen_iff`: what counts as open is open, where brackets over several lines are closed at the
  beginning of a line, one for each line.
* `keepsOuterMargins_iff`: when lines outside of brackets keep what was in front of them.
* `keepsOuterMargins_iff_of_isRegular`: with such brackets they have to stand at the margin.
-/

set_option autoImplicit false

namespace CodeTidy.Generic

open Text

/-! ### Lines and what stands in front of them -/

/-- The lines that hold more than white space. -/
def visibleLines (t : Text) : List Text := (lines t).filter (fun l => !allBlank l)

/-- The white space in front of a line. -/
def margin (l : Text) : Text := l.takeWhile isBlank

/-- A line is blank exactly if it shows nothing. -/
theorem allBlank_eq (l : Text) : allBlank l = (nonBlank l).isEmpty := (isEmpty_nonBlank l).symm

/-- Whether a line is blank is said by its visible characters. -/
theorem allBlank_congr {l l' : Text} (h : nonBlank l = nonBlank l') : allBlank l = allBlank l' := by
  rw [allBlank_eq, allBlank_eq, h]

/-- The visible characters of the visible lines are those of all lines, without the empty ones. -/
theorem map_nonBlank_visibleLines (t : Text) :
    (visibleLines t).map nonBlank = (outline t).filter (fun w => !w.isEmpty) := by
  rw [visibleLines, outline, List.filter_map]
  exact congrArg (List.map nonBlank) (List.filter_congr fun l _ => by rw [allBlank_eq]; rfl)

/-- The visible lines after the first two passes are those from before without the spaces and tabs
behind them. -/
theorem visibleLines_squeezed (t : Text) :
    visibleLines (squeezed t) = (visibleLines t).map (dropEndWhile isIndent) := by
  rw [visibleLines, lines_squeezed, filter_squeeze rfl, lines_dropTrailing, List.filter_map]
  refine congrArg (List.map _) (List.filter_congr fun l _ => ?_)
  rw [Function.comp, allBlank_congr (nonBlank_dropEndWhile l)]

/-- The formatted text has the same visible lines. -/
theorem map_nonBlank_visibleLines_format (t : Text) :
    (visibleLines (format t)).map nonBlank = (visibleLines t).map nonBlank := by
  rw [map_nonBlank_visibleLines, outline_format, ← map_nonBlank_visibleLines, visibleLines_squeezed,
    List.map_map]
  exact List.map_congr_left fun l _ => nonBlank_dropEndWhile l

/-- White space behind a visible line does not matter to what is in front of it. -/
theorem margin_dropEndWhile {l : Text} (hl : allBlank l = false) :
    margin (dropEndWhile isIndent l) = margin l := by
  obtain ⟨s, -, hsplit⟩ := exists_dropEndWhile isIndent l
  rw [← allBlank_congr (nonBlank_dropEndWhile l)] at hl
  generalize dropEndWhile isIndent l = l' at hsplit hl
  rw [margin, margin, hsplit, List.takeWhile_append, if_neg]
  intro hlength
  have hall : l'.all isBlank = true := by
    rw [← (List.takeWhile_prefix isBlank).eq_of_length hlength]
    exact List.all_takeWhile
  rw [allBlank, hall] at hl
  cases hl

/-! ### What the formatter puts there -/

/-- The depth at which a line is indented, if so many brackets count as open in front of it. -/
def level (depth : Nat) (l : Text) : Nat := if beginsClosed l then depth - 1 else depth

/-- How many brackets count as open behind a line. -/
def depthBehind (depth : Nat) (l : Text) : Nat :=
  if endsOpen l then level depth l + 1 else level depth l

/-- How many brackets count as open behind some lines. -/
def depthAfter (front : List Text) : Nat := front.foldl depthBehind 0

/-- The depths at which lines are indented. -/
def levels : (depth : Nat) → List Text → List Nat
  | _, [] => []
  | depth, l :: ls => level depth l :: levels (depthBehind depth l) ls

/-- The depth of a line is that at which the lines in front of it leave off. -/
theorem getElem?_levels (depth : Nat) (ls : List Text) (i : Nat) :
    (levels depth ls)[i]? = ls[i]?.map (level ((ls.take i).foldl depthBehind depth)) := by
  induction ls generalizing depth i with
  | nil => rfl
  | cons l ls ih =>
    cases i with
    | zero => rfl
    | succ i => exact ih (depthBehind depth l) i

/-- Only the visible characters of a line matter to the depths. -/
theorem level_congr {l l' : Text} (h : nonBlank l = nonBlank l') (depth : Nat) :
    level depth l = level depth l' := by
  rw [level, level, beginsClosed_eq, beginsClosed_eq, h]

/-- What a line opens and closes is said by its visible characters. -/
theorem depthBehind_congr {l l' : Text} (h : nonBlank l = nonBlank l') (depth : Nat) :
    depthBehind depth l = depthBehind depth l' := by
  rw [depthBehind, depthBehind, level_congr h, endsOpen_eq, endsOpen_eq, h]

/-- The depths of the lines are said by their visible characters. -/
theorem levels_congr {ls ls' : List Text} (h : ls.map nonBlank = ls'.map nonBlank) (depth : Nat) :
    levels depth ls = levels depth ls' := by
  induction ls generalizing ls' depth with
  | nil =>
    obtain rfl := List.map_eq_nil_iff.mp h.symm
    rfl
  | cons l ls ih =>
    obtain ⟨l', ls', rfl, hl, hls⟩ := List.map_eq_cons_iff.mp h.symm
    rw [levels, levels, level_congr hl.symm, depthBehind_congr hl.symm, ih hls.symm]

/-- A line that is indented anew begins with what has been put there. -/
theorem margin_append_trim {s : Text} (hs : s.all isBlank = true) (l : Text) :
    margin (s ++ trim l) = s := by
  obtain ⟨hhead, -⟩ := ends_trim l
  exact (takeWhile_append_of_head (List.all_eq_true.mp hs) hhead).1

/-- Nothing is left of a line exactly if it is blank. -/
theorem isEmpty_trim (l : Text) : (trim l).isEmpty = allBlank l := by
  rw [Bool.eq_iff_iff, List.isEmpty_iff]
  constructor
  · intro hnil
    rw [allBlank_eq, ← nonBlank_trim, hnil]
    rfl
  · intro hblank
    have htrim := trim_blanks_append hblank []
    rw [List.append_nil] at htrim
    exact htrim

/-- A visible line is indented by its depth, and a blank one becomes empty. -/
theorem indentLines_cons (depth : Nat) (l : Text) (ls : List Text) :
    indentLines depth (l :: ls) = if allBlank l then [] :: indentLines depth ls
      else (List.replicate (2 * level depth l) ' ' ++ trim l) ::
        indentLines (depthBehind depth l) ls := by
  have hlevel : (if beginsClosed (trim l) then depth - 1 else depth) = level depth l :=
    level_congr (nonBlank_trim l) depth
  have hbehind : (if endsOpen (trim l) then level depth l + 1 else level depth l) =
      depthBehind depth l := by
    rw [depthBehind, endsOpen_eq, endsOpen_eq, nonBlank_trim]
  rw [indentLines, isEmpty_trim, hlevel]
  dsimp only
  rw [hbehind]

/-- Visible lines are indented by their depths. -/
theorem map_margin_indentLines (depth : Nat) (ls : List Text) :
    ((indentLines depth ls).filter (fun l => !allBlank l)).map margin =
      (levels depth (ls.filter (fun l => !allBlank l))).map
        (fun n => List.replicate (2 * n) ' ') := by
  induction ls generalizing depth with
  | nil => rfl
  | cons l ls ih =>
    rw [indentLines_cons]
    cases hl : allBlank l with
    | true =>
      rw [if_pos rfl, List.filter_cons_of_neg Bool.false_ne_true, ih,
        List.filter_cons_of_neg (by simp [hl])]
    | false =>
      have hvisible : allBlank (List.replicate (2 * level depth l) ' ' ++ trim l) = false := by
        rw [allBlank_eq, nonBlank_append, nonBlank_eq_nil (all_isBlank_replicate _),
          List.nil_append, nonBlank_trim, ← allBlank_eq, hl]
      rw [if_neg Bool.false_ne_true, List.filter_cons_of_pos (by simp [hvisible]), List.map_cons,
        margin_append_trim (all_isBlank_replicate _), ih, List.filter_cons_of_pos (by simp [hl]),
        levels, List.map_cons]

/-- What stands in front of the visible lines of a formatted text. -/
theorem map_margin_visibleLines_format (t : Text) : (visibleLines (format t)).map margin =
    if isBracketStructured t then
      (levels 0 (visibleLines t)).map (fun n => List.replicate (2 * n) ' ')
    else (visibleLines t).map margin := by
  cases hstructured : isBracketStructured t with
  | true =>
    -- The passes before the last one change no visible characters, and the depths see nothing else.
    obtain ⟨u, hu, hformat⟩ := exists_format_eq hstructured
    have hvisible : (visibleLines u).map nonBlank = (visibleLines t).map nonBlank := by
      rw [map_nonBlank_visibleLines, hu, ← outline_format, ← map_nonBlank_visibleLines,
        map_nonBlank_visibleLines_format]
    rw [if_pos rfl, visibleLines, hformat, lines_indentLines, map_margin_indentLines,
      ← visibleLines, levels_congr hvisible]
  | false =>
    rw [if_neg Bool.false_ne_true, format_eq_squeezed hstructured, visibleLines_squeezed,
      List.map_map]
    refine List.map_congr_left fun l hl => margin_dropEndWhile ?_
    simpa using List.of_mem_filter hl

/-- The `i`th visible line of the formatted text has the visible characters of the line `l`, and the
white space of `l` in front of them. -/
def KeepsMargin (t : Text) (i : Nat) (l : Text) : Prop :=
  ∃ l', (visibleLines (format t))[i]? = some l' ∧ nonBlank l' = nonBlank l ∧ margin l' = margin l

/-- A visible line keeps what is in front of it if and only if no line of the text ends with an
opening bracket, or it is indented by two spaces for each bracket that counts as open. -/
theorem keepsMargin_iff {t l : Text} {i : Nat} (h : (visibleLines t)[i]? = some l) :
    KeepsMargin t i l ↔ (isBracketStructured t = true →
      margin l = List.replicate (2 * level (depthAfter ((visibleLines t).take i)) l) ' ') := by
  have hsame := congrArg (·[i]?) (map_nonBlank_visibleLines_format t)
  simp only [List.getElem?_map, h, Option.map_some, Option.map_eq_some_iff] at hsame
  obtain ⟨l', hl', hvisible⟩ := hsame
  -- The line has the same place among the visible ones of both texts, where its new margin is
  -- known.
  have hmargin := congrArg (·[i]?) (map_margin_visibleLines_format t)
  simp only [List.getElem?_map, hl', Option.map_some] at hmargin
  have hkeeps : KeepsMargin t i l ↔ margin l' = margin l := by
    simp only [KeepsMargin, hl', Option.some.injEq, exists_eq_left', hvisible, true_and]
  rw [hkeeps]
  split at hmargin
  · rename_i hstructured
    rw [List.getElem?_map, getElem?_levels, h, Option.map_some, Option.map_some,
      Option.some.injEq] at hmargin
    rw [hmargin]
    exact ⟨fun heq _ => heq.symm, fun heq => (heq hstructured).symm⟩
  · rename_i hstructured
    rw [List.getElem?_map, h, Option.map_some, Option.some.injEq] at hmargin
    exact ⟨fun _ htrue => absurd htrue hstructured, fun _ => hmargin⟩

/-! ### Brackets that are open -/

/-- How many brackets the text closes that stand in front of it, and how many it leaves open. -/
def unmatched : Text → Nat × Nat
  | [] => (0, 0)
  | c :: r =>
    let (closed, opened) := unmatched r
    if isOpener c then if closed = 0 then (0, opened + 1) else (closed - 1, opened)
    else if isCloser c then (closed + 1, opened)
    else (closed, opened)

/-- What a text closes that another one has left open is matched. -/
theorem unmatched_append (u w : Text) : unmatched (u ++ w) =
    ((unmatched u).1 + ((unmatched w).1 - (unmatched u).2),
      (unmatched w).2 + ((unmatched u).2 - (unmatched w).1)) := by
  induction u with
  | nil => simp [unmatched]
  | cons c u ih =>
    rw [List.cons_append, unmatched, unmatched, ih]
    generalize unmatched u = before
    generalize unmatched w = behind
    dsimp only
    split
    · grind
    · grind

/-- A bracket at the end of one of the lines is open behind all of them. -/
def LeavesOpen (front : List Text) : Prop :=
  ∃ before l behind, front = before ++ l :: behind ∧ endsOpen l = true ∧
    (unmatched behind.flatten).1 = 0

/-- Brackets over several lines are closed at the beginning of a line, and one line closes or opens
one of them at most: all other brackets of the line close each other. -/
def IsRegular (l : Text) : Prop :=
  unmatched l = ((beginsClosed l).toNat, (endsOpen l).toNat)

instance (l : Text) : Decidable (IsRegular l) := inferInstanceAs (Decidable (_ = _))

/-- The last line closes a level if it begins with a closing bracket and opens one if it ends with
an opening one. -/
theorem depthAfter_append (front : List Text) (l : Text) : depthAfter (front ++ [l]) =
    depthAfter front - (beginsClosed l).toNat + (endsOpen l).toNat := by
  rw [depthAfter, List.foldl_append, List.foldl_cons, List.foldl_nil, depthBehind, level]
  cases beginsClosed l <;> cases endsOpen l <;> rfl

/-- A bracket at the end of one of the lines is open behind all of them, and so are `m` others that
have been opened behind it. -/
def LeavesOpenBelow (m : Nat) (front : List Text) : Prop :=
  ∃ before l behind, front = before ++ l :: behind ∧ endsOpen l = true ∧
    (unmatched behind.flatten).1 = 0 ∧ m ≤ (unmatched behind.flatten).2

/-- With no other brackets that have been closed, this is to leave a bracket open. -/
theorem leavesOpenBelow_zero (front : List Text) : LeavesOpenBelow 0 front ↔ LeavesOpen front := by
  simp [LeavesOpenBelow, LeavesOpen]

/-- Where there is no line, no bracket is left open. -/
theorem not_leavesOpenBelow_nil (m : Nat) : ¬LeavesOpenBelow m [] := by
  rintro ⟨before, l, behind, heq, -⟩
  simp at heq

/-- Behind one more line it is the bracket at the end of that line, or one that has been open with
as many others as the line needs. -/
theorem leavesOpenBelow_append {a : Text} (ha : IsRegular a) (front : List Text) (m : Nat) :
    LeavesOpenBelow m (front ++ [a]) ↔ (endsOpen a = true ∧ m = 0) ∨
      LeavesOpenBelow (m - (endsOpen a).toNat + (beginsClosed a).toNat) front := by
  -- A line that closes what is open closes one, and opens one at its end.
  have hflat (behind : List Text) : unmatched (behind ++ [a]).flatten =
      ((unmatched behind.flatten).1 + ((beginsClosed a).toNat - (unmatched behind.flatten).2),
        (endsOpen a).toNat + ((unmatched behind.flatten).2 - (beginsClosed a).toNat)) := by
    rw [List.flatten_append, List.flatten_singleton, unmatched_append, ha]
  constructor
  · rintro ⟨before, l, behind, heq, hopen, hclosed, hm⟩
    -- The line with the bracket is the last one, or the last one is among those behind it.
    rcases List.eq_nil_or_concat behind with rfl | ⟨behind, b, rfl⟩
    · obtain ⟨rfl, hlast⟩ := List.append_inj' heq rfl
      obtain rfl := (List.cons.inj hlast).1
      exact .inl ⟨hopen, Nat.le_zero.mp hm⟩
    · rw [List.concat_eq_append, ← List.cons_append, ← List.append_assoc] at heq
      obtain ⟨rfl, hlast⟩ := List.append_inj' heq rfl
      obtain rfl := (List.cons.inj hlast).1
      rw [List.concat_eq_append, hflat] at hclosed hm
      exact .inr ⟨before, l, behind, rfl, hopen, by omega, by omega⟩
  · rintro (⟨hopen, rfl⟩ | ⟨before, l, behind, rfl, hopen, hclosed, hm⟩)
    · exact ⟨front, a, [], rfl, hopen, rfl, Nat.le_refl 0⟩
    · refine ⟨before, l, behind ++ [a], by simp, hopen, ?_, ?_⟩
      · rw [hflat]
        dsimp only
        omega
      · rw [hflat]
        dsimp only
        omega

/-- Behind regular lines the brackets that are open are those that count as open. -/
theorem leavesOpenBelow_iff {front : List Text} (h : ∀ l ∈ front, IsRegular l) (m : Nat) :
    LeavesOpenBelow m front ↔ m < depthAfter front := by
  -- From the last line on: what it opens and closes changes how many others there have to be.
  induction front using List.reverseRecOn generalizing m with
  | nil => exact ⟨fun hopen => absurd hopen (not_leavesOpenBelow_nil m), fun hlt => by cases hlt⟩
  | append_singleton front a ih =>
    obtain ⟨hfront, ha⟩ := List.forall_mem_append.mp h
    rw [leavesOpenBelow_append (List.forall_mem_singleton.mp ha), ih hfront, depthAfter_append]
    cases beginsClosed a <;> cases endsOpen a
    all_goals
      simp only [Bool.toNat_true, Bool.toNat_false, Bool.false_eq_true, false_and, true_and,
        false_or]
      omega

/-- Behind regular lines a bracket is open if and only if one counts as open. -/
theorem leavesOpen_iff {front : List Text} (h : ∀ l ∈ front, IsRegular l) :
    LeavesOpen front ↔ 0 < depthAfter front := by
  rw [← leavesOpenBelow_zero, leavesOpenBelow_iff h]

/-! ### Outside of brackets -/

/-- The visible lines outside of brackets that have been opened at the end of a line keep the white
space in front of them. -/
def KeepsOuterMargins (t : Text) : Prop :=
  ∀ i l, (visibleLines t)[i]? = some l → ¬LeavesOpen ((visibleLines t).take i) → KeepsMargin t i l

section

variable {t : Text}

/-- Lines outside of brackets keep what is in front of them if and only if no line of the text ends
with an opening bracket, or they are indented by two spaces for each bracket that counts as open. -/
theorem keepsOuterMargins_iff : KeepsOuterMargins t ↔ (isBracketStructured t = true →
    ∀ i l, (visibleLines t)[i]? = some l → ¬LeavesOpen ((visibleLines t).take i) →
      margin l = List.replicate (2 * level (depthAfter ((visibleLines t).take i)) l) ' ') := by
  constructor
  · intro h hstructured i l hl houter
    exact (keepsMargin_iff hl).mp (h i l hl houter) hstructured
  · intro h i l hl houter
    exact (keepsMargin_iff hl).mpr fun hstructured => h hstructured i l hl houter

/-- If the lines are regular, those outside of brackets have to stand at the margin. -/
theorem keepsOuterMargins_iff_of_isRegular (hregular : ∀ l ∈ visibleLines t, IsRegular l) :
    KeepsOuterMargins t ↔ (isBracketStructured t = true → ∀ i l, (visibleLines t)[i]? = some l →
      ¬LeavesOpen ((visibleLines t).take i) → margin l = []) := by
  have hlevel {i : Nat} {l : Text} (houter : ¬LeavesOpen ((visibleLines t).take i)) :
      level (depthAfter ((visibleLines t).take i)) l = 0 := by
    rw [leavesOpen_iff fun l hl => hregular l (List.mem_of_mem_take hl), Nat.not_lt,
      Nat.le_zero] at houter
    rw [houter, level]
    split <;> rfl
  constructor
  · intro h hstructured i l hl houter
    rw [(keepsMargin_iff hl).mp (h i l hl houter) hstructured, hlevel houter]
    rfl
  · intro h i l hl houter
    refine (keepsMargin_iff hl).mpr fun hstructured => ?_
    rw [h hstructured i l hl houter, hlevel houter]
    rfl

end

/-- A mapping below a list in brackets loses its indentation, and its key goes up one level. -/
theorem format_flattens_mapping : ¬KeepsOuterMargins "a: [\n  b\n]\nc:\n  d: 1\n".toList := by
  intro h
  have hregular : ∀ l ∈ ["a: [".toList, "  b".toList, "]".toList, "c:".toList], IsRegular l := by
    decide
  have houter : ¬LeavesOpen ["a: [".toList, "  b".toList, "]".toList, "c:".toList] := by
    rw [leavesOpen_iff hregular]
    decide
  have hkept := (keepsMargin_iff rfl).mp (h 4 "  d: 1".toList rfl houter) rfl
  revert hkept
  decide

end CodeTidy.Generic
