import CodeTidy.Proofs.Text.Lines

/-!
# `CodeTidy.Proofs.Text.LineStarts`: the lines that start in a part of a text

What is put in the place of a part of a text changes the lines that start in it,
and the line that it begins in the middle of. The line feeds in front of a place say which
line it is on. The theorems:

* `exists_of_mem_lines`: a line of a text, and what stands around it.
* `linesFrom_append_subset`: the lines that start behind a part of a text.
* `mem_linesFrom_indented`: those that start in an indented text, or behind it.
* `mem_lines_append`: where a line of two texts put together comes from.
* `drop_lines`, `getElem?_lines`: the line that a place is on, and the lines from there on.
* `infix_trim`: what stands on a line without white space stands on the trimmed line.
-/

set_option autoImplicit false

namespace CodeTidy.Text

/-- The lines that start in the text; `fresh` says whether one starts where the text does. -/
def linesFrom (fresh : Bool) (t : Text) : List Text := if fresh then lines t else (lines t).tail

/-- The lines that start in a text are lines of it. -/
theorem linesFrom_subset_lines (fresh : Bool) (t : Text) : linesFrom fresh t ⊆ lines t := by
  cases fresh with
  | true => exact List.Subset.refl _
  | false => exact (List.tail_sublist _).subset

/-- Fewer lines start in a text if none starts where it does. -/
theorem linesFrom_false_subset (fresh : Bool) (t : Text) :
    linesFrom false t ⊆ linesFrom fresh t := by
  cases fresh with
  | true => exact (List.tail_sublist _).subset
  | false => exact List.Subset.refl _

/-- A line that starts in a text starts with it or behind its first character. -/
theorem mem_linesFrom_cons {fresh : Bool} {c : Char} {t l : Text}
    (h : l ∈ linesFrom fresh (c :: t)) :
    fresh = true ∧ (l = [] ∨ l.head? = some c) ∨ l ∈ linesFrom (c == '\n') t := by
  rw [linesFrom, lines_cons] at h
  -- Behind a line feed a line starts; any other character goes on with the line it lies in.
  cases hc : c == '\n' with
  | true =>
    rw [hc, if_pos rfl] at h
    cases fresh with
    | true => exact (List.mem_cons.mp h).imp (fun hl => ⟨rfl, .inl hl⟩) id
    | false => exact .inr h
  | false =>
    rw [hc, if_neg Bool.false_ne_true] at h
    rw [linesFrom, if_neg Bool.false_ne_true]
    obtain ⟨l', ls, hlines⟩ := List.exists_cons_of_ne_nil (lines_ne_nil t)
    rw [hlines] at h ⊢
    cases fresh with
    | true => exact (List.mem_cons.mp h).imp (fun hl => ⟨rfl, .inr (by rw [hl]; rfl)⟩) id
    | false => exact .inr h

/-- The lines that start behind the first character start in the text. -/
theorem linesFrom_cons_subset (fresh : Bool) (c : Char) (t : Text) :
    linesFrom (c == '\n') t ⊆ linesFrom fresh (c :: t) := by
  refine List.Subset.trans ?_ (linesFrom_false_subset fresh (c :: t))
  rw [linesFrom, linesFrom, if_neg Bool.false_ne_true, lines_cons]
  cases c == '\n' with
  | true => exact List.Subset.refl _
  | false =>
    obtain ⟨l, ls, hlines⟩ := List.exists_cons_of_ne_nil (lines_ne_nil t)
    rw [hlines]
    exact List.Subset.refl _

/-- The lines that start behind a part of a text. -/
theorem linesFrom_append_subset (fresh : Bool) (t u : Text) :
    linesFrom (endsFresh fresh t) u ⊆ linesFrom fresh (t ++ u) := by
  induction t generalizing fresh with
  | nil => exact List.Subset.refl _
  | cons c t ih => exact List.Subset.trans (ih _) (linesFrom_cons_subset fresh c (t ++ u))

/-- A line that starts in an indented text, or behind it. -/
theorem mem_linesFrom_indented {fresh : Bool} {t u l : Text} (ht : isIndented fresh t = true)
    (h : l ∈ linesFrom fresh (t ++ u)) :
    l.head?.all isBlank = true ∨ l ∈ linesFrom (endsFresh fresh t) u := by
  induction t generalizing fresh with
  | nil => exact .inr h
  | cons c t ih =>
    rw [isIndented, Bool.and_eq_true] at ht
    rcases mem_linesFrom_cons h with ⟨hfresh, rfl | hhead⟩ | hrest
    · exact .inl rfl
    · left
      rw [hfresh, Bool.not_true, Bool.false_or] at ht
      rw [hhead, Option.all_some, ht.1]
    · exact ih ht.2 hrest

/-- A text without line feeds is put in front of the first line. -/
theorem lines_append_of_not_mem {t u l : Text} {ls : List Text} (ht : '\n' ∉ t)
    (hu : lines u = l :: ls) : lines (t ++ u) = (t ++ l) :: ls := by
  rcases exists_line u with hone | ⟨l', r, rfl, hl'⟩
  · rw [lines_eq_singleton hone, List.cons.injEq] at hu
    obtain ⟨rfl, rfl⟩ := hu
    exact lines_eq_singleton (by simp [ht, hone])
  · rw [lines_append hl', List.cons.injEq] at hu
    obtain ⟨rfl, rfl⟩ := hu
    rw [← List.append_assoc]
    exact lines_append (by simp [ht, hl']) r

/-- Where a line of two texts put together comes from: the first text has it, whatever follows, or
it ends with the first line of the second text, or it is a later line of that one. -/
theorem mem_lines_append {t u l l' : Text} {ls : List Text} (hu : lines u = l' :: ls)
    (h : l ∈ lines (t ++ u)) :
    (∀ u', l ∈ lines (t ++ u')) ∨ l' <:+ l ∨ l ∈ ls := by
  -- A line that ends in the text in front of `u` is there whatever comes behind.
  induction t using lines_induction with
  | one t ht =>
    rw [lines_append_of_not_mem ht hu, List.mem_cons] at h
    rcases h with rfl | h
    · exact .inr (.inl (List.suffix_append t l'))
    · exact .inr (.inr h)
  | more a r ha ih =>
    rw [List.append_assoc, List.cons_append, lines_append ha, List.mem_cons] at h
    rcases h with rfl | h
    · left
      intro u'
      rw [List.append_assoc, List.cons_append, lines_append ha]
      exact List.mem_cons_self
    · refine (ih h).imp_left fun hall u' => ?_
      rw [List.append_assoc, List.cons_append, lines_append ha]
      exact List.mem_cons_of_mem a (hall u')

/-- A line of a text, and what stands around it. -/
theorem exists_of_mem_lines {t l : Text} (h : l ∈ lines t) :
    ∃ v r, t = v ++ (l ++ r) ∧ endsFresh true v = true ∧ r.head?.all (· == '\n') = true := by
  induction t using lines_induction with
  | one t ht =>
    rw [lines_eq_singleton ht, List.mem_singleton] at h
    exact ⟨[], [], by rw [h, List.append_nil, List.nil_append], rfl, rfl⟩
  | more a r ha ih =>
    rw [lines_append ha, List.mem_cons] at h
    rcases h with rfl | h
    · exact ⟨[], '\n' :: r, rfl, rfl, rfl⟩
    · obtain ⟨v, r', rfl, hv, hr'⟩ := ih h
      refine ⟨a ++ '\n' :: v, r', by rw [List.append_assoc, List.cons_append], ?_, hr'⟩
      rw [endsFresh_append]
      exact hv

/-- What has no line feed and stands between the start and the end of a line is one. -/
theorem mem_lines_of_ends {v l r : Text} (hl : '\n' ∉ l) (hv : endsFresh true v = true)
    (hr : r.head?.all (· == '\n') = true) : l ∈ lines (v ++ (l ++ r)) := by
  have hbehind : l ∈ lines (l ++ r) := by
    cases r with
    | nil => rw [List.append_nil, lines_eq_singleton hl, List.mem_singleton]
    | cons a r =>
      obtain rfl : a = '\n' := by simpa using hr
      rw [lines_append hl]
      exact List.mem_cons_self
  have hsubset := linesFrom_append_subset true v (l ++ r)
  rw [hv] at hsubset
  exact hsubset hbehind

/-- The lines that are left without the line feeds around a text. -/
theorem lines_dropAroundWhile_subset (t : Text) :
    lines (dropAroundWhile (· == '\n') t) ⊆ lines t := by
  intro l hl
  obtain ⟨s, s', ht, hs, hs'⟩ := exists_dropAroundWhile (· == '\n') t
  obtain ⟨v, r, hsplit, hv, hr⟩ := exists_of_mem_lines hl
  rw [hsplit] at ht
  have ht' : t = (s ++ v) ++ (l ++ (r ++ s')) := by
    rw [ht]
    simp only [List.append_assoc]
  rw [ht']
  -- A line of the rest begins behind a dropped line feed or where it began before, and so for its
  -- end.
  refine mem_lines_of_ends (not_mem_of_mem_lines hl) ?_ ?_
  · rw [endsFresh_append]
    cases hfresh : endsFresh true s with
    | true => exact hv
    | false =>
      obtain ⟨w, c, rfl⟩ := List.eq_nil_or_concat s |>.resolve_left (by rintro rfl; cases hfresh)
      rw [List.concat_eq_append] at hfresh hs
      rw [endsFresh_concat] at hfresh
      rw [List.all_append, List.all_cons, Bool.and_eq_true, Bool.and_eq_true, hfresh] at hs
      cases hs.2.1
  · cases r with
    | cons a r => exact hr
    | nil =>
      cases s' with
      | nil => rfl
      | cons a s' =>
        rw [List.all_cons, Bool.and_eq_true] at hs'
        exact hs'.1

/-- What occurs in a text and has no line feed occurs in one of its lines. -/
theorem exists_line_of_infix {t w : Text} (hw : '\n' ∉ w) (h : w <:+: t) :
    ∃ l ∈ lines t, w <:+: l := by
  induction t using lines_induction with
  | one t ht => exact ⟨t, by rw [lines_eq_singleton ht, List.mem_singleton], h⟩
  | more a r ha ih =>
    rw [lines_append ha]
    obtain ⟨v, r', hsplit⟩ := h
    rw [List.append_assoc] at hsplit
    rcases first_line_cases hsplit.symm hw with ⟨z, rfl, -⟩ | ⟨v', -, rfl⟩
    · exact ⟨_, List.mem_cons_self, v, z, by rw [List.append_assoc]⟩
    · obtain ⟨l, hl, hinfix⟩ := ih ⟨v', r', by rw [List.append_assoc]⟩
      exact ⟨l, List.mem_cons_of_mem a hl, hinfix⟩

/-- A text behind which a line starts is empty or holds a line feed. -/
theorem mem_of_endsFresh {fresh : Bool} {t : Text} (h : endsFresh fresh t = true) (hne : t ≠ []) :
    '\n' ∈ t := by
  obtain ⟨r, c, rfl⟩ := List.eq_nil_or_concat t |>.resolve_left hne
  rw [List.concat_eq_append] at h ⊢
  rw [endsFresh_concat, beq_iff_eq] at h
  rw [h]
  exact List.mem_append_right r (List.mem_singleton_self _)

/-- Behind a text that ends with a line a line starts, wherever the text starts. -/
theorem endsFresh_true {fresh : Bool} {t : Text} (h : endsFresh fresh t = true) :
    endsFresh true t = true := by
  cases t with
  | nil => rfl
  | cons c t => exact h

/-! ### The line that a place is on -/

/-- The part of the last line of a text. -/
def lastLine (t : Text) : Text := (t.reverse.takeWhile (· != '\n')).reverse

/-- The first line goes on over a text without line feeds. -/
theorem takeWhile_of_not_mem {l : Text} (h : '\n' ∉ l) (r : Text) :
    (l ++ r).takeWhile (· != '\n') = l ++ r.takeWhile (· != '\n') :=
  List.takeWhile_append_of_pos fun _ hc => bne_iff_ne.mpr fun heq => h (heq ▸ hc)

/-- The first line ends in front of the first line feed. -/
theorem takeWhile_append_feed (a r : Text) :
    (a ++ '\n' :: r).takeWhile (· != '\n') = a.takeWhile (· != '\n') := by
  induction a with
  | nil => rfl
  | cons c a ih => rw [List.cons_append, List.takeWhile_cons, List.takeWhile_cons, ih]

/-- A text without line feeds is its last line. -/
theorem lastLine_of_not_mem {l : Text} (h : '\n' ∉ l) : lastLine l = l := by
  have hline := takeWhile_of_not_mem (fun hmem => h (List.mem_reverse.mp hmem)) []
  rw [List.append_nil, List.takeWhile_nil, List.append_nil] at hline
  rw [lastLine, hline, List.reverse_reverse]

/-- The last line begins behind the last line feed. -/
theorem lastLine_append (a r : Text) : lastLine (a ++ '\n' :: r) = lastLine r := by
  rw [lastLine, List.reverse_append, List.reverse_cons, List.append_assoc, List.singleton_append,
    takeWhile_append_feed, lastLine]

/-- The lines from the one on that a place is on, which stands behind `v` and in front of `r`. -/
theorem drop_lines (v r : Text) :
    (lines (v ++ r)).drop (v.count '\n') = lines (lastLine v ++ r) := by
  -- By induction on the lines in front of the place: each of them is dropped with its line feed.
  induction v using lines_induction with
  | one v hv => rw [List.count_eq_zero.mpr hv, List.drop_zero, lastLine_of_not_mem hv]
  | more a v ha ih =>
    rw [List.append_assoc, List.cons_append, lines_append ha, List.count_append,
      List.count_eq_zero.mpr ha, List.count_cons_self, Nat.zero_add, List.drop_succ_cons, ih,
      lastLine_append]

/-- The last line holds no line feed. -/
theorem not_mem_lastLine (t : Text) : '\n' ∉ lastLine t := by
  rw [lastLine, List.mem_reverse]
  intro hmem
  have hne : ('\n' != '\n') = true := List.mem_takeWhile_imp (p := (· != '\n')) hmem
  cases hne

/-- The first line of a text ends where its first line feed is. -/
theorem head?_lines (t : Text) : (lines t).head? = some (t.takeWhile (· != '\n')) := by
  induction t using lines_induction with
  | one t ht =>
    have hline := takeWhile_of_not_mem ht []
    rw [List.append_nil, List.takeWhile_nil, List.append_nil] at hline
    rw [lines_eq_singleton ht, List.head?_cons, hline]
  | more a r ha _ =>
    rw [lines_append ha, List.head?_cons, takeWhile_of_not_mem ha, List.takeWhile_cons]
    simp

/-- The line that a place is on: what stands on it before the place, and what stands behind. -/
theorem getElem?_lines (v r : Text) :
    (lines (v ++ r))[v.count '\n']? = some (lastLine v ++ r.takeWhile (· != '\n')) := by
  rw [← List.head?_drop, drop_lines, head?_lines, takeWhile_of_not_mem (not_mem_lastLine v)]

/-- A place is on one of the lines. -/
theorem count_lt_length_lines (v r : Text) : v.count '\n' < (lines (v ++ r)).length :=
  (List.getElem?_eq_some_iff.mp (getElem?_lines v r)).1

/-! ### Trimmed lines -/

/-- A word that does not begin with white space is not found in white space in front of the text. -/
theorem infix_of_infix_blanks_append {s t w : Text} (hs : s.all isBlank = true)
    (hw : w.head?.all (fun c => !isBlank c) = true) (hne : w ≠ []) (h : w <:+: s ++ t) :
    w <:+: t := by
  induction s with
  | nil => exact h
  | cons a s ih =>
    rw [List.all_cons, Bool.and_eq_true] at hs
    rcases List.infix_cons_iff.mp h with hprefix | hinfix
    · -- The word does not begin with the white space.
      obtain ⟨b, w, rfl⟩ := List.exists_cons_of_ne_nil hne
      obtain ⟨rfl, -⟩ := List.cons_prefix_cons.mp hprefix
      rw [List.head?_cons, Option.all_some, hs.1] at hw
      cases hw
    · exact ih hs.2 hinfix

/-- What stands in a text and has no white space at its ends stands in the trimmed text. -/
theorem infix_trim {t w : Text} (hhead : w.head?.all (fun c => !isBlank c) = true)
    (hlast : w.getLast?.all (fun c => !isBlank c) = true) (hne : w ≠ []) (h : w <:+: t) :
    w <:+: trim t := by
  obtain ⟨s, s', ht, hs, hs'⟩ := exists_blanks_around t
  rw [ht] at h
  have hbehind := infix_of_infix_blanks_append hs hhead hne h
  -- The white space at the end stands in front of the reversed text.
  rw [← List.reverse_infix, List.reverse_append] at hbehind
  rw [← List.reverse_infix]
  refine infix_of_infix_blanks_append ?_ ?_ ?_ hbehind
  · rw [List.all_reverse]
    exact hs'
  · rw [List.head?_reverse]
    exact hlast
  · rwa [Ne, List.reverse_eq_nil_iff]

end CodeTidy.Text
