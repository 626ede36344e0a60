import CodeTidy.Generic.Table
import CodeTidy.Proofs.Pattern.Rewrite
import CodeTidy.Proofs.Pattern.Shapes
import CodeTidy.Proofs.Text.Lines

/-!
# `CodeTidy.Proofs.Generic.BlankLines`: the first two passes, line by line

The first pass takes the spaces and tabs off the ends of lines. In its result
blank lines without other white space are empty, so the second pass drops an
empty line in front of another one. The theorems:

* `replace_trailingBlanks`, `replace_blankLines`: what the passes do to the
  list of lines.
* `gaps_squeezeTail`: of two neighbouring lines that both are empty none are
  left.
-/

set_option autoImplicit false

namespace CodeTidy.Generic

open Pattern Text

/-! ### The ends of lines -/

/-- The text without the spaces and tabs at the ends of its lines. -/
def dropTrailing (t : Text) : Text := unlines ((lines t).map (dropEndWhile isIndent))

/-- A line feed stays, and the next line is tidied. -/
theorem dropTrailing_feed (r : Text) : dropTrailing ('\n' :: r) = '\n' :: dropTrailing r := by
  have hlines := lines_append (l := []) List.not_mem_nil r
  rw [List.nil_append] at hlines
  rw [dropTrailing, hlines, List.map_cons, unlines_cons _ (by simp [lines_ne_nil])]
  rfl

/-- The ends of the lines are tidied, line by line. -/
theorem lines_dropTrailing (t : Text) :
    lines (dropTrailing t) = (lines t).map (dropEndWhile isIndent) := by
  refine lines_unlines (by simp [lines_ne_nil]) ?_
  intro l hl
  obtain ⟨l, hmem, rfl⟩ := List.mem_map.mp hl
  intro hfeed
  exact not_mem_of_mem_lines hmem (List.IsPrefix.subset (List.rdropWhile_prefix isIndent l) hfeed)

/-- A character stays if something on its line behind it does. -/
theorem dropTrailing_cons {a : Char} {r l : Text} {ls : List Text} (ha : a ≠ '\n')
    (hr : lines r = l :: ls) (h : (a :: l).all isIndent = false) :
    dropTrailing (a :: r) = a :: dropTrailing r := by
  rw [dropTrailing, dropTrailing, lines_cons, beq_false_of_ne ha, if_neg Bool.false_ne_true, hr]
  dsimp only
  rw [List.map_cons, dropEndWhile_cons h, unlines_cons_cons]
  rfl

/-- Spaces and tabs up to the end of a line go. -/
theorem dropTrailing_append {u r : Text} (hu : u.all isIndent = true)
    (hr : r.head?.all (· == '\n') = true) : dropTrailing (u ++ r) = dropTrailing r := by
  have hfeed : '\n' ∉ u := by
    intro hmem
    cases List.all_eq_true.mp hu _ hmem
  cases r with
  | nil =>
    rw [List.append_nil, dropTrailing, lines_eq_singleton hfeed, List.map_singleton,
      dropEndWhile_eq_nil_iff.mpr hu]
    rfl
  | cons c r =>
    obtain rfl : c = '\n' := by simpa using hr
    rw [dropTrailing_feed, dropTrailing, lines_append hfeed, List.map_cons,
      dropEndWhile_eq_nil_iff.mpr hu, unlines_cons _ (by simp [lines_ne_nil])]
    rfl

/-- The pass for the ends of lines is `dropTrailing`: its pattern matches just the spaces and tabs
in front of a line end. -/
theorem replace_trailingBlanks (t : Text) :
    trailingBlanks.replace (fun _ => []) t = dropTrailing t := by
  have hwalk : ∀ c segments, Cuts trailingBlanks c segments →
      segments.flatMap (Segment.rewrite (fun _ => [])) = dropTrailing c.after := by
    intro c segments hcuts
    induction hcuts with
    | stop hend =>
      rw [hend]
      rfl
    | @pass c c' a g rest hread hnone _ ih =>
      have hafter : c.after = a :: c'.after := hread.after_eq
      rw [hafter]
      have hsegments : (Segment.gap (a :: g) :: rest).flatMap (Segment.rewrite (fun _ => [])) =
          a :: dropTrailing c'.after := congrArg (a :: ·) ih
      rw [hsegments]
      by_cases ha : a = '\n'
      · rw [ha, dropTrailing_feed]
      · obtain ⟨l, ls, hl⟩ := List.exists_cons_of_ne_nil (lines_ne_nil c'.after)
        refine (dropTrailing_cons ha hl ?_).symm
        rw [← Bool.not_eq_true]
        intro hall
        -- All that is left of the line would be a match.
        obtain ⟨r, hr, hend⟩ := exists_of_lines_eq hl
        have hreads : c.Reads (a :: l) (c.behind (a :: l)) :=
          Cursor.reads_behind ⟨r, by rw [hafter, hr]; rfl⟩
        have hline : (c.behind (a :: l)).atLineEnd = true := by
          have heq : (a :: l) ++ r = (a :: l) ++ (c.behind (a :: l)).after := by
            rw [← hreads.after_eq, hafter, hr]
            rfl
          rw [Cursor.atLineEnd, ← List.append_cancel_left heq]
          exact hend
        exact matchAt?_eq_none_iff.mp hnone _ _
          ⟨_, _, ⟨a :: l, hall, Nat.succ_le_succ (Nat.zero_le _), hreads, rfl⟩, hline, rfl, rfl⟩
    | @hit c m rest hmatch _ ih =>
      obtain ⟨c₁, caps₁, ⟨u, hu, -, hreads, rfl⟩, hend, hstop, -⟩ := (takes_of_matchAt? hmatch).2
      rw [← hstop] at hreads hend
      rw [hreads.after_eq, dropTrailing_append hu hend]
      exact ih
  exact hwalk _ _ (cuts_segments (isSolid_spec rfl) t)

/-- No line ends with a space or a tab. -/
def IsTidy (t : Text) : Prop := ∀ l ∈ lines t, dropEndWhile isIndent l = l

/-- What the pass leaves is tidy. -/
theorem isTidy_dropTrailing (t : Text) : IsTidy (dropTrailing t) := by
  intro l hl
  rw [lines_dropTrailing, List.mem_map] at hl
  obtain ⟨l, -, rfl⟩ := hl
  exact List.rdropWhile_idempotent isIndent l

/-- What is tidy stays as it is. -/
theorem IsTidy.dropTrailing_eq {t : Text} (h : IsTidy t) : dropTrailing t = t := by
  rw [dropTrailing, List.map_congr_left (g := id) h, List.map_id, unlines_lines]

namespace IsTidy

/-- Behind its first character a tidy text is tidy. -/
theorem of_cons {a : Char} {r : Text} (h : IsTidy (a :: r)) : IsTidy r := by
  obtain ⟨l, ls, hr⟩ := List.exists_cons_of_ne_nil (lines_ne_nil r)
  intro l' hl'
  by_cases ha : a = '\n'
  · refine h l' ?_
    rw [lines_cons, ha, beq_self_eq_true, if_pos rfl]
    exact List.mem_cons_of_mem [] hl'
  · rw [IsTidy, lines_cons, beq_false_of_ne ha, if_neg Bool.false_ne_true, hr] at h
    rw [hr, List.mem_cons] at hl'
    rcases hl' with rfl | hl'
    · have hline := h (a :: l') List.mem_cons_self
      have hvisible : (a :: l').all isIndent = false := by
        rw [← Bool.not_eq_true, ← dropEndWhile_eq_nil_iff, hline]
        exact List.cons_ne_nil a l'
      rw [dropEndWhile_cons hvisible] at hline
      exact (List.cons.inj hline).2
    · exact h l' (List.mem_cons_of_mem _ hl')

/-- The end of a tidy text is tidy. -/
theorem of_append {u r : Text} (h : IsTidy (u ++ r)) : IsTidy r := by
  induction u with
  | nil => exact h
  | cons a u ih => exact ih h.of_cons

/-- Spaces and tabs alone make no line. -/
theorem eq_nil {u r : Text} (h : IsTidy (u ++ '\n' :: r))
    (hu : u.all isIndent = true) : u = [] := by
  have hfeed : '\n' ∉ u := by
    intro hmem
    cases List.all_eq_true.mp hu _ hmem
  have hline := h u (by rw [lines_append hfeed]; exact List.mem_cons_self)
  rw [← hline, dropEndWhile_eq_nil_iff.mpr hu]

end IsTidy

/-! ### Blank lines -/

/-- The empty lines in front of another empty line go, up to the last line of the text. -/
def squeezeTail : List Text → List Text
  | l :: l' :: l'' :: ls =>
    if l.isEmpty && l'.isEmpty then squeezeTail (l' :: l'' :: ls)
    else l :: squeezeTail (l' :: l'' :: ls)
  | ls => ls

/-- The lines without the empty lines in front of others. The first line stays in any case. -/
def squeeze : List Text → List Text
  | [] => []
  | l :: ls => l :: squeezeTail ls

/-- A line with a line feed behind it that holds nothing but spaces and tabs. -/
def blankLine : Pattern := seq [indent, "\n"]

/-- A blank line has a line feed at least. -/
theorem isSolid_blankLine : IsSolid blankLine := isSolid_spec rfl

/-- The pattern for blank lines, with its parts named. -/
theorem blankLines_eq :
    blankLines =
      .both (text ['\n']) (.both blankLine (.both blankLine (.rounds .most blankLine))) :=
  rfl

section Cursors

variable {c c' : Cursor} {caps caps' : Captures}

/-- In a tidy text a blank line is a line feed. -/
theorem takes_blankLine (htidy : IsTidy c.after) (h : Takes blankLine c caps c' caps') :
    c.Reads ['\n'] c' := by
  obtain ⟨c₁, caps₁, ⟨u, hu, -, hreads, -⟩, hline⟩ := h
  obtain ⟨hbreak, -⟩ := takes_text_iff.mp hline
  have hafter := (hreads.trans hbreak).after_eq
  rw [List.append_assoc] at hafter
  rw [hafter] at htidy
  obtain rfl := htidy.eq_nil hu
  exact hreads.trans hbreak

/-- A line feed is a blank line. -/
theorem takes_blankLine_of_reads (h : c.Reads ['\n'] c') (caps : Captures) :
    Takes blankLine c caps c' caps :=
  ⟨c, caps, ⟨[], rfl, Nat.le_refl _, .refl c, rfl⟩, takes_text_iff.mpr ⟨h, rfl⟩⟩

/-- In a tidy text some blank lines are some line feeds. -/
theorem reads_rounds_blankLine (htidy : IsTidy c.after)
    (h : Rounds (Takes blankLine) c caps c' caps') :
    ∃ n, c.Reads (List.replicate n '\n') c' := by
  induction h with
  | none c => exact ⟨0, .refl c⟩
  | more round _ _ ih =>
    have hread := takes_blankLine htidy round
    rw [hread.after_eq] at htidy
    obtain ⟨n, hn⟩ := ih htidy.of_cons
    exact ⟨n + 1, hread.cons hn⟩

/-- A match is a run of three line feeds or more, and all of the run. -/
theorem exists_reads_blankLines (htidy : IsTidy c.after) {m : Match}
    (h : blankLines.matchAt? c = some m) :
    ∃ n, c.Reads (List.replicate (n + 3) '\n') m.stop ∧ m.stop.after.head? ≠ some '\n' := by
  rw [matchAt?, blankLines_eq, run?] at h
  obtain ⟨c₁, caps₁, hfeed, h₁⟩ := exists_takes_of_run? h
  obtain ⟨hread, -⟩ := takes_text_iff.mp hfeed
  rw [run?] at h₁
  obtain ⟨c₂, caps₂, hfirst, h₂⟩ := exists_takes_of_run? h₁
  rw [run?] at h₂
  obtain ⟨c₃, caps₃, hsecond, h₃⟩ := exists_takes_of_run? h₂
  obtain ⟨c₄, caps₄, hrounds, hstop, hm⟩ :=
    run?_rounds_of_total isSolid_blankLine
      (k := fun c' groups => some (Match.mk c c' groups)) (fun _ _ => rfl) h₃
  rw [hread.after_eq] at htidy
  -- In a tidy text a blank line of the pattern is a line feed only, once, twice and for each round.
  have hread₁ := takes_blankLine htidy.of_cons hfirst
  have htidy₁ := htidy.of_cons
  rw [hread₁.after_eq] at htidy₁
  have hread₂ := takes_blankLine htidy₁.of_cons hsecond
  have htidy₂ := htidy₁.of_cons
  rw [hread₂.after_eq] at htidy₂
  obtain ⟨n, hn⟩ := reads_rounds_blankLine htidy₂.of_cons hrounds
  cases hm
  refine ⟨n, hread.cons (hread₁.cons (hread₂.cons hn)), ?_⟩
  -- One more line feed would have been another round.
  intro hhead
  obtain ⟨before, after, pos⟩ := c₄
  obtain _ | ⟨b, after⟩ := after
  · cases hhead
  · cases hhead
    exact hstop _ _ (takes_blankLine_of_reads (.one before '\n' after pos) caps₄)

/-- Where there are three line feeds there is a match. -/
theorem not_three_feeds (h : blankLines.matchAt? c = none) (r : Text) :
    c.after ≠ '\n' :: '\n' :: '\n' :: r := by
  intro hafter
  have hreads : c.Reads ['\n', '\n', '\n'] (c.behind ['\n', '\n', '\n']) :=
    Cursor.reads_behind ⟨r, hafter.symm⟩
  obtain ⟨c₁, hread, hrest⟩ := hreads.split (u := ['\n'])
  obtain ⟨c₂, hread₁, hread₂⟩ := hrest.split (u := ['\n'])
  exact matchAt?_eq_none_iff.mp h _ _ ⟨c₁, [], takes_text_iff.mpr ⟨hread, rfl⟩, c₂, [],
    takes_blankLine_of_reads hread₁ [], _, [], takes_blankLine_of_reads hread₂ [], .none _ _⟩

end Cursors

/-- The last line stays, so something does. -/
theorem squeezeTail_ne_nil (l : Text) (ls : List Text) : squeezeTail (l :: ls) ≠ [] := by
  induction ls generalizing l with
  | nil => exact List.cons_ne_nil _ _
  | cons l' ls ih =>
    obtain _ | ⟨l'', ls⟩ := ls
    · exact List.cons_ne_nil _ _
    · rw [squeezeTail]
      split
      · exact ih l'
      · exact List.cons_ne_nil _ _

/-- A line that is not an empty one in front of another empty one stays. -/
theorem squeezeTail_cons {l : Text} {ls : List Text}
    (h : ∀ l' ls', ls ≠ [] :: l' :: ls' ∨ l ≠ []) :
    squeezeTail (l :: ls) = l :: squeezeTail ls := by
  obtain _ | ⟨l', ls⟩ := ls
  · rfl
  · obtain _ | ⟨l'', ls⟩ := ls
    · rfl
    · have hkeep : ¬(l.isEmpty && l'.isEmpty) = true := by
        rw [Bool.and_eq_true, List.isEmpty_iff, List.isEmpty_iff]
        rintro ⟨rfl, rfl⟩
        exact (h l'' ls).elim (fun h => h rfl) (fun h => h rfl)
      rw [squeezeTail, if_neg hkeep]

/-- Of three lines, the first two empty, the first one goes. -/
theorem squeezeTail_drop (l : Text) (ls : List Text) :
    squeezeTail ([] :: [] :: l :: ls) = squeezeTail ([] :: l :: ls) := rfl

/-- A line feed in front is an empty line. -/
theorem lines_feed (r : Text) : lines ('\n' :: r) = [] :: lines r :=
  lines_append (l := []) List.not_mem_nil r

/-- So many line feeds in front are so many empty lines. -/
theorem lines_feeds (n : Nat) (r : Text) :
    lines (List.replicate n '\n' ++ r) = List.replicate n [] ++ lines r := by
  induction n with
  | zero => rfl
  | succ n ih => rw [List.replicate_succ, List.cons_append, lines_feed, ih]; rfl

/-- A run of empty lines in front of another line becomes one. -/
theorem squeezeTail_replicate (n : Nat) (l : Text) (ls : List Text) :
    squeezeTail (List.replicate (n + 1) [] ++ l :: ls) = squeezeTail ([] :: l :: ls) := by
  induction n with
  | zero => rfl
  | succ n ih =>
    obtain ⟨l', ls', hl'⟩ : ∃ l' ls', List.replicate n [] ++ l :: ls = l' :: ls' :=
      List.exists_cons_of_ne_nil (by simp)
    rw [List.replicate_succ, List.cons_append, hl'] at ih
    rw [List.replicate_succ, List.replicate_succ, List.cons_append, List.cons_append, hl',
      squeezeTail_drop, ih]

/-- A run of three line feeds or more becomes two. -/
theorem squeeze_feeds (n : Nat) {r : Text} (hr : r.head? ≠ some '\n') :
    unlines (squeeze (lines (List.replicate (n + 3) '\n' ++ r))) =
      '\n' :: '\n' :: unlines (squeeze (lines r)) := by
  obtain ⟨l, ls, hl⟩ := List.exists_cons_of_ne_nil (lines_ne_nil r)
  have hkeep : squeezeTail ([] :: l :: ls) = [] :: l :: squeezeTail ls := by
    obtain _ | ⟨l', ls⟩ := ls
    · rfl
    · have hne : l ≠ [] := by
        rintro rfl
        rw [← unlines_lines r, hl, unlines_cons _ (List.cons_ne_nil l' ls)] at hr
        exact hr rfl
      rw [squeezeTail_cons (fun _ _ => .inl fun h => hne (List.cons.inj h).1),
        squeezeTail_cons (fun _ _ => .inr hne)]
  rw [lines_feeds, hl, List.replicate_succ, List.cons_append, squeeze, squeezeTail_replicate, hkeep,
    squeeze, unlines_cons _ (List.cons_ne_nil _ _), unlines_cons _ (List.cons_ne_nil _ _)]
  rfl

/-- The second pass drops empty lines in front of others. -/
theorem replace_blankLines {t : Text} (ht : IsTidy t) :
    blankLines.replace (fun _ => "\n\n") t = unlines (squeeze (lines t)) := by
  have hwalk : ∀ c segments, Cuts blankLines c segments → IsTidy c.after →
      segments.flatMap (Segment.rewrite (fun _ => "\n\n")) = unlines (squeeze (lines c.after)) := by
    intro c segments hcuts
    induction hcuts with
    | stop hend =>
      intro _
      rw [hend]
      rfl
    | @pass c c' a g rest hread hnone _ ih =>
      intro htidy
      have hafter : c.after = a :: c'.after := hread.after_eq
      rw [hafter] at htidy ⊢
      have hsegments : (Segment.gap (a :: g) :: rest).flatMap (Segment.rewrite (fun _ => "\n\n")) =
          a :: unlines (squeeze (lines c'.after)) := congrArg (a :: ·) (ih htidy.of_cons)
      rw [hsegments]
      obtain ⟨l, ls, hl⟩ := List.exists_cons_of_ne_nil (lines_ne_nil c'.after)
      rw [hl, squeeze]
      by_cases ha : a = '\n'
      · subst ha
        -- Nothing matches here, so no two empty lines follow and none is dropped.
        have hkeep : squeezeTail (l :: ls) = l :: squeezeTail ls := by
          refine squeezeTail_cons (fun l' ls' => ?_)
          by_contra hboth
          rw [not_or, not_not, not_not] at hboth
          obtain ⟨rfl, rfl⟩ := hboth
          refine not_three_feeds hnone (unlines (l' :: ls')) ?_
          rw [hafter, ← unlines_lines c'.after, hl, unlines_cons _ (List.cons_ne_nil _ _),
            unlines_cons _ (List.cons_ne_nil _ _)]
          rfl
        rw [lines_feed, hl, squeeze, hkeep, unlines_cons _ (List.cons_ne_nil _ _)]
        rfl
      · rw [lines_cons, beq_false_of_ne ha, if_neg Bool.false_ne_true, hl, squeeze,
          unlines_cons_cons]
    | @hit c m rest hmatch _ ih =>
      intro htidy
      obtain ⟨n, hreads, hhead⟩ := exists_reads_blankLines htidy hmatch
      rw [hreads.after_eq] at htidy ⊢
      rw [squeeze_feeds n hhead, ← ih htidy.of_append]
      rfl
  exact hwalk _ _ (cuts_segments (isSolid_spec rfl) t) ht

/-! ### Neighbouring lines -/

/-- Whether two neighbouring lines, of which the second one is not the last line, are related. -/
def gaps (p : Text → Text → Bool) : List Text → Bool
  | l :: l' :: l'' :: ls => p l l' || gaps p (l' :: l'' :: ls)
  | _ => false

/-- Two neighbours are related exactly if somewhere in front of the last line two lines in a row
are. -/
theorem gaps_iff {p : Text → Text → Bool} {ls : List Text} :
    gaps p ls = true ↔ ∃ l l', [l, l'] <:+: ls.dropLast ∧ p l l' = true := by
  induction ls with
  | nil => simp [gaps]
  | cons a ls ih =>
    obtain _ | ⟨b, ls⟩ := ls
    · simp [gaps]
    · obtain _ | ⟨c, ls⟩ := ls
      · simp [gaps, List.infix_cons_iff]
      · rw [gaps, Bool.or_eq_true, ih]
        -- The two lines are the first two, or they lie behind the first one.
        have hpair (l l' : Text) : [l, l'] <:+: (a :: b :: c :: ls).dropLast ↔
            l = a ∧ l' = b ∨ [l, l'] <:+: (b :: c :: ls).dropLast := by
          rw [List.dropLast_cons_cons, List.infix_cons_iff, List.dropLast_cons_cons,
            List.cons_prefix_cons, List.cons_prefix_cons]
          simp
        constructor
        · rintro (hp | ⟨l, l', hmem, hp⟩)
          · exact ⟨a, b, (hpair a b).mpr (.inl ⟨rfl, rfl⟩), hp⟩
          · exact ⟨l, l', (hpair l l').mpr (.inr hmem), hp⟩
        · rintro ⟨l, l', hmem, hp⟩
          rcases (hpair l l').mp hmem with ⟨rfl, rfl⟩ | hmem
          · exact .inl hp
          · exact .inr ⟨l, l', hmem, hp⟩

/-- Only what is asked of the lines that are there counts. -/
theorem gaps_congr {p q : Text → Text → Bool} {ls : List Text}
    (h : ∀ l ∈ ls, ∀ l' ∈ ls, p l l' = q l l') : gaps p ls = gaps q ls := by
  have hiff (l l' : Text) (hmem : [l, l'] <:+: ls.dropLast) : p l l' = q l l' := by
    have hsubset := List.IsInfix.subset (hmem.trans (List.dropLast_prefix ls).isInfix)
    exact h l (hsubset (by simp)) l' (hsubset (by simp))
  rw [Bool.eq_iff_iff, gaps_iff, gaps_iff]
  exact exists_congr fun l => exists_congr fun l' =>
    and_congr_right fun hmem => by rw [hiff l l' hmem]

/-- The lines may be changed first, or the question. -/
theorem gaps_map (p : Text → Text → Bool) (f : Text → Text) (ls : List Text) :
    gaps p (ls.map f) = gaps (fun l l' => p (f l) (f l')) ls := by
  induction ls with
  | nil => rfl
  | cons a ls ih =>
    obtain _ | ⟨b, _ | ⟨c, ls⟩⟩ := ls
    · rfl
    · rfl
    · rw [gaps, ← ih]
      rfl

/-- The first line stays where it is, and it is the last one only if it was. -/
theorem head?_squeezeTail (l : Text) (ls : List Text) :
    ∃ ls', squeezeTail (l :: ls) = l :: ls' ∧ (ls' = [] ↔ ls = []) := by
  induction ls generalizing l with
  | nil => exact ⟨[], rfl, Iff.rfl⟩
  | cons l' ls ih =>
    obtain _ | ⟨l'', ls⟩ := ls
    · exact ⟨[l'], rfl, by simp⟩
    · rw [squeezeTail]
      split
      · rename_i hempty
        rw [Bool.and_eq_true, List.isEmpty_iff, List.isEmpty_iff] at hempty
        obtain ⟨rfl, rfl⟩ := hempty
        obtain ⟨ls', heq, hls'⟩ := ih []
        exact ⟨ls', heq, by simpa using hls'⟩
      · exact ⟨_, rfl, by simp [squeezeTail_ne_nil]⟩

/-- Of two empty neighbouring lines none are left, all other neighbours stay neighbours. -/
theorem gaps_squeezeTail (p : Text → Text → Bool) (ls : List Text) :
    gaps p (squeezeTail ls) = gaps (fun l l' => p l l' && !(l.isEmpty && l'.isEmpty)) ls := by
  induction ls with
  | nil => rfl
  | cons a ls ih =>
    obtain _ | ⟨b, _ | ⟨c, ls⟩⟩ := ls
    · rfl
    · rfl
    · rw [squeezeTail, gaps, ← ih]
      split
      · rename_i hempty
        rw [hempty, Bool.not_true, Bool.and_false, Bool.false_or]
      · rename_i hkeep
        obtain ⟨ls', heq, hls'⟩ := head?_squeezeTail b (c :: ls)
        obtain ⟨c', ls', rfl⟩ := List.exists_cons_of_ne_nil (mt hls'.mp (List.cons_ne_nil c ls))
        rw [Bool.not_eq_true] at hkeep
        rw [heq, gaps, hkeep, Bool.not_false, Bool.and_true]

/-- What is left are lines of the text in order. -/
theorem squeezeTail_sublist (ls : List Text) : List.Sublist (squeezeTail ls) ls := by
  induction ls with
  | nil => exact .slnil
  | cons a ls ih =>
    obtain _ | ⟨b, _ | ⟨c, ls⟩⟩ := ls
    · exact List.Sublist.refl _
    · exact List.Sublist.refl _
    · rw [squeezeTail]
      split
      · exact ih.cons a
      · exact ih.cons_cons a

/-- What is left are lines of the text in order, the first one among them. -/
theorem squeeze_sublist (ls : List Text) : List.Sublist (squeeze ls) ls := by
  cases ls with
  | nil => exact .slnil
  | cons l ls => exact (squeezeTail_sublist ls).cons_cons l

/-- Without two empty lines in a row nothing goes. -/
theorem squeezeTail_eq_self {ls : List Text}
    (h : gaps (fun l l' => l.isEmpty && l'.isEmpty) ls = false) : squeezeTail ls = ls := by
  induction ls with
  | nil => rfl
  | cons a ls ih =>
    obtain _ | ⟨b, _ | ⟨c, ls⟩⟩ := ls
    · rfl
    · rfl
    · rw [gaps, Bool.or_eq_false_iff] at h
      rw [squeezeTail, h.1, if_neg Bool.false_ne_true, ih h.2]

/-- Where two neighbouring lines are empty a line goes. -/
theorem length_squeezeTail_lt {ls : List Text}
    (h : gaps (fun l l' => l.isEmpty && l'.isEmpty) ls = true) :
    (squeezeTail ls).length < ls.length := by
  induction ls with
  | nil => cases h
  | cons a ls ih =>
    obtain _ | ⟨b, _ | ⟨c, ls⟩⟩ := ls
    · cases h
    · cases h
    · rw [gaps, Bool.or_eq_true] at h
      rw [squeezeTail]
      split
      · exact Nat.lt_succ_of_le (squeezeTail_sublist _).length_le
      · rename_i hkeep
        exact Nat.succ_lt_succ (ih (h.resolve_left hkeep))

/-- Only empty lines are dropped. -/
theorem filter_squeezeTail {p : Text → Bool} (hp : p [] = false) (ls : List Text) :
    (squeezeTail ls).filter p = ls.filter p := by
  induction ls with
  | nil => rfl
  | cons a ls ih =>
    obtain _ | ⟨b, _ | ⟨c, ls⟩⟩ := ls
    · rfl
    · rfl
    · rw [squeezeTail]
      split
      · rename_i hempty
        rw [Bool.and_eq_true, List.isEmpty_iff] at hempty
        rw [ih, List.filter_cons_of_neg (a := a) (by simp [hempty.1, hp])]
      · rw [List.filter_cons, ih, List.filter_cons (x := a)]

/-- Only empty lines go. -/
theorem filter_squeeze {p : Text → Bool} (hp : p [] = false) (ls : List Text) :
    (squeeze ls).filter p = ls.filter p := by
  cases ls with
  | nil => rfl
  | cons l ls => rw [squeeze, List.filter_cons, filter_squeezeTail hp, List.filter_cons]

/-- A property that empty lines do not have is not lost. -/
theorem any_squeeze {p : Text → Bool} (hp : p [] = false) (ls : List Text) :
    (squeeze ls).any p = ls.any p := by
  have hany (ls : List Text) : ls.any p = !(ls.filter p).isEmpty := by
    rw [Bool.eq_iff_iff, List.any_eq_true, Bool.not_eq_true', List.isEmpty_eq_false_iff_exists_mem]
    simp
  rw [hany, hany, filter_squeeze hp]

end CodeTidy.Generic
