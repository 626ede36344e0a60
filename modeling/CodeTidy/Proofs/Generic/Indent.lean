import CodeTidy.Proofs.Generic.BlankLines
import CodeTidy.Proofs.Generic.Lockstep

/-!
# `CodeTidy.Proofs.Generic.Indent`: lines that are indented anew

The last pass changes the white space around each line. The theorems:

* `respaced_indentLines`: literals stay, if no backslash stands in front of
  white space at the end of a line.
* `exists_stretch`: what stands on a line of the result stood on a line before.
* `indentLines_indentLines`: the result is indented already.
* `isBracketStructured_eq`: whether a text has brackets at the ends of lines
  is told from the visible characters of its lines.
-/

set_option autoImplicit false

namespace CodeTidy.Generic

open Text

/-- A line as it is indented, and the depth of the lines behind it: a matter of the line without
the white space around it. A blank line becomes empty. -/
theorem exists_indentLines (depth : Nat) (l : Text) : ∃ n depth',
    (depth = 0 → n = 0) ∧ (trim l = [] → n = 0) ∧ ∀ l' ls, trim l' = trim l →
      indentLines depth (l' :: ls) = (List.replicate n ' ' ++ trim l) :: indentLines depth' ls := by
  by_cases hbody : (trim l).isEmpty = true
  · refine ⟨0, depth, fun _ => rfl, fun _ => rfl, fun l' ls heq => ?_⟩
    rw [indentLines, heq, if_pos hbody, List.isEmpty_iff.mp hbody]
    rfl
  · refine ⟨_, _, ?_, ?_, fun l' ls heq => by rw [indentLines, heq, if_neg hbody]⟩
    · rintro rfl
      split <;> rfl
    · intro hnil
      rw [hnil] at hbody
      exact absurd rfl hbody

/-- Spaces are white space. -/
theorem all_isBlank_replicate (n : Nat) : (List.replicate n ' ').all isBlank = true := by
  rw [List.all_eq_true]
  intro c hc
  rw [List.eq_of_mem_replicate hc]
  rfl

/-- There is always a line. -/
theorem indentLines_ne_nil (depth : Nat) (t : Text) : indentLines depth (lines t) ≠ [] := by
  obtain ⟨l, ls, hl⟩ := List.exists_cons_of_ne_nil (lines_ne_nil t)
  obtain ⟨n, depth', -, -, hlines⟩ := exists_indentLines depth l
  rw [hl, hlines l ls rfl]
  exact List.cons_ne_nil _ _

/-- Each line is a line from before without the white space around it, behind some spaces. -/
theorem exists_of_mem_indentLines {depth : Nat} {l : Text} {ls : List Text}
    (h : l ∈ indentLines depth ls) :
    ∃ n, ∃ l' ∈ ls, (trim l' = [] → n = 0) ∧ l = List.replicate n ' ' ++ trim l' := by
  induction ls generalizing depth with
  | nil => cases h
  | cons l' ls ih =>
    obtain ⟨n, depth', -, hnil, hlines⟩ := exists_indentLines depth l'
    rw [hlines l' ls rfl] at h
    rcases List.mem_cons.mp h with rfl | h
    · exact ⟨n, l', List.mem_cons_self, hnil, rfl⟩
    · obtain ⟨n, l'', hmem, hl''⟩ := ih h
      exact ⟨n, l'', List.mem_cons_of_mem l' hmem, hl''⟩

/-- What is indented is indented already. -/
theorem indentLines_indentLines (depth : Nat) (ls : List Text) :
    indentLines depth (indentLines depth ls) = indentLines depth ls := by
  induction ls generalizing depth with
  | nil => rfl
  | cons l ls ih =>
    obtain ⟨n, depth', -, -, hlines⟩ := exists_indentLines depth l
    have htrim := (trim_blanks_append (all_isBlank_replicate n) (trim l)).trans (trim_trim l)
    rw [hlines l ls rfl, hlines _ _ htrim, ih]

/-! ### The visible characters of lines -/

/-- The visible characters of each line. -/
def outline (t : Text) : List Text := (lines t).map nonBlank

/-- A line shows nothing exactly if it is blank. -/
theorem isEmpty_nonBlank (l : Text) : (nonBlank l).isEmpty = l.all isBlank := by
  rw [Bool.eq_iff_iff, List.isEmpty_iff, nonBlank, List.filter_eq_nil_iff, List.all_eq_true]
  simp

/-- Behind the white space at its start a line begins with its first visible character. -/
theorem head?_trimStart (l : Text) : (trimStart l).head? = (nonBlank l).head? := by
  induction l with
  | nil => rfl
  | cons c l ih =>
    cases hc : isBlank c with
    | true => rw [trimStart, List.dropWhile_cons_of_pos hc, ← trimStart, ih, nonBlank_cons_blank hc]
    | false =>
      rw [trimStart, List.dropWhile_cons_of_neg (by simp [hc]), nonBlank_cons hc]
      rfl

/-- Whether a line begins with a closing bracket is said by its first visible character. -/
theorem beginsClosed_eq (l : Text) : beginsClosed l = (nonBlank l).head?.any isCloser := by
  rw [beginsClosed, head?_trimStart]

/-- In front of the white space at its end a line ends with its last visible character. -/
theorem getLast?_trimEnd (l : Text) : (trimEnd l).getLast? = (nonBlank l).getLast? := by
  induction l using List.reverseRecOn with
  | nil => rfl
  | append_singleton l c ih =>
    rw [trimEnd, dropEndWhile_eq, List.rdropWhile_concat, nonBlank_append]
    by_cases hc : isBlank c = true
    · have hnone : nonBlank [c] = [] := nonBlank_cons_blank hc []
      rw [if_pos hc, hnone, List.append_nil, ← ih]
      rfl
    · have hone : nonBlank [c] = [c] := nonBlank_cons (by simpa using hc) []
      rw [if_neg hc, hone, List.getLast?_concat, List.getLast?_concat]

/-- Whether a line ends with an opening bracket is said by its last visible character. -/
theorem endsOpen_eq (l : Text) : endsOpen l = (nonBlank l).getLast?.any isOpener := by
  rw [endsOpen, getLast?_trimEnd]

/-- Brackets at the ends of lines are seen in the outline. -/
theorem isBracketStructured_eq (t : Text) :
    isBracketStructured t = (outline t).any (fun l => l.getLast?.any isOpener) := by
  rw [isBracketStructured, outline, List.any_map]
  exact congrArg (lines t).any (funext endsOpen_eq)

/-- Whether a text is structured by brackets is said by the visible characters of its lines. -/
theorem isBracketStructured_congr {t u : Text} (h : outline t = outline u) :
    isBracketStructured t = isBracketStructured u := by
  rw [isBracketStructured_eq, isBracketStructured_eq, h]

/-- To indent changes no visible character. -/
theorem map_nonBlank_indentLines (depth : Nat) (ls : List Text) :
    (indentLines depth ls).map nonBlank = ls.map nonBlank := by
  induction ls generalizing depth with
  | nil => rfl
  | cons l ls ih =>
    obtain ⟨n, depth', -, -, hlines⟩ := exists_indentLines depth l
    rw [hlines l ls rfl, List.map_cons, List.map_cons, ih, nonBlank_append,
      nonBlank_eq_nil (all_isBlank_replicate n), nonBlank_trim]
    rfl

/-- The indented lines are the lines of the new text. -/
theorem lines_indentLines (depth : Nat) (t : Text) :
    lines (unlines (indentLines depth (lines t))) = indentLines depth (lines t) := by
  refine lines_unlines (indentLines_ne_nil depth t) ?_
  intro l hl hfeed
  obtain ⟨n, l', hl', -, rfl⟩ := exists_of_mem_indentLines hl
  rcases List.mem_append.mp hfeed with hspace | htrim
  · cases List.eq_of_mem_replicate hspace
  · obtain ⟨s, s', hl'', -, -⟩ := exists_blanks_around l'
    refine not_mem_of_mem_lines hl' ?_
    rw [hl'']
    exact List.mem_append_right s (List.mem_append_left s' htrim)

/-- An indented line does not end with a space or a tab. -/
theorem isTidy_indentLines (depth : Nat) (t : Text) :
    IsTidy (unlines (indentLines depth (lines t))) := by
  intro l hl
  rw [lines_indentLines] at hl
  obtain ⟨n, l', -, hnil, rfl⟩ := exists_of_mem_indentLines hl
  obtain ⟨-, hlast⟩ := ends_trim l'
  rw [dropEndWhile_eq, List.rdropWhile_eq_self_iff]
  intro hne hindent
  by_cases hbody : trim l' = []
  · rw [hnil hbody, hbody] at hne
    exact hne rfl
  · rw [List.getLast_append_of_ne_nil hne hbody] at hindent
    rw [List.getLast?_eq_getLast_of_ne_nil hbody, Option.all_some,
      isBlank_of_isIndent hindent] at hlast
    cases hlast

/-- An indented line without visible characters is empty. -/
theorem eq_nil_of_mem_indentLines {depth : Nat} {l : Text} {ls : List Text}
    (h : l ∈ indentLines depth ls) (hl : nonBlank l = []) : l = [] := by
  obtain ⟨n, l', -, hnil, rfl⟩ := exists_of_mem_indentLines h
  have hbody : trim l' = [] := by
    obtain ⟨hhead, -⟩ := ends_trim l'
    cases hbody : trim l' with
    | nil => rfl
    | cons c u =>
      rw [hbody, List.head?_cons, Option.all_some, Bool.not_eq_true'] at hhead
      rw [hbody, nonBlank_append, nonBlank_cons hhead, List.append_eq_nil_iff] at hl
      cases hl.2
  rw [hnil hbody, hbody]
  rfl

/-! ### Literals -/

/-- No white space is left behind a backslash at the end of a line. -/
def EndsStrictly (l : Text) : Prop := ∀ v s, l = v ++ '\\' :: s → s.all isBlank = true → s = []

/-- White space without a line feed is white space on a line. -/
theorem all_isInline {s : Text} (hs : s.all isBlank = true) (hfeed : '\n' ∉ s) :
    s.all isInline = true := by
  rw [List.all_eq_true] at hs ⊢
  intro c hc
  rw [isInline, hs c hc, Bool.true_and, bne_iff_ne]
  rintro rfl
  exact hfeed hc

/-- The same front keeps two texts alike. -/
theorem Respaced.append {prev : Char} {t t' : Text} (w : Text)
    (h : Respaced ((prev :: w).getLast (List.cons_ne_nil _ _)) t t') :
    Respaced prev (w ++ t) (w ++ t') := by
  induction w generalizing prev with
  | nil => exact h
  | cons c w ih => exact .keep (ih h)

/-- Spaces are white space on a line. -/
theorem all_isInline_replicate (n : Nat) : (List.replicate n ' ').all isInline = true := by
  rw [List.all_eq_true]
  intro c hc
  rw [List.eq_of_mem_replicate hc]
  rfl

/-- A line with other white space around it, in front of what may begin with white space or not. -/
theorem respaced_line {l e e' : Text} (hl : '\n' ∉ l) (hstrict : EndsStrictly l) {n : Nat}
    (hn : trim l = [] → n = 0) (hkeep : ∀ prev, Respaced prev e e')
    (hdrop : ∀ prev s, prev ≠ '\\' → s.all isInline = true → Respaced prev (s ++ e) e') :
    Respaced '\n' (l ++ e) (List.replicate n ' ' ++ trim l ++ e') := by
  obtain ⟨s, s', hsplit, hs, hs'⟩ := exists_blanks_around l
  obtain ⟨hhead, -⟩ := ends_trim l
  -- A blank line leaves the margin of nothing. Any other one is its margin, its visible part and
  -- the white space behind it.
  cases hbody : trim l with
  | nil =>
    have hblank : l.all isBlank = true := by
      rw [hsplit, hbody, List.nil_append, List.all_append, hs, hs']
      rfl
    rw [hn hbody]
    exact hdrop '\n' l (by decide) (all_isInline hblank hl)
  | cons c w =>
    rw [hbody] at hsplit hhead
    have hc : isBlank c = false := by simpa using hhead
    have hfeed : '\n' ∉ s ∧ '\n' ∉ s' := by
      rw [hsplit] at hl
      exact ⟨fun h => hl (List.mem_append_left _ h),
        fun h => hl (List.mem_append_right _ (List.mem_append_right _ h))⟩
    have hbehind : Respaced c (w ++ (s' ++ e)) (w ++ e') := by
      refine .append w ?_
      obtain ⟨v, a, hv⟩ : ∃ v a, c :: w = v ++ [a] :=
        ⟨_, _, (List.dropLast_concat_getLast (List.cons_ne_nil c w)).symm⟩
      by_cases hnone : s' = []
      · rw [hnone]
        exact hkeep _
      · -- White space at the end of the line goes away, and a backslash does not stand in front of
        -- it.
        refine hdrop _ s' ?_ (all_isInline hs' hfeed.2)
        simp only [hv, List.getLast_concat]
        rintro rfl
        exact hnone (hstrict (s ++ v) s' (by rw [hsplit, hv]; simp) hs')
    have hloose : IsLoose '\n' c := ⟨by decide, .inr ⟨hc, by decide, by decide⟩⟩
    have hline :=
      Respaced.blanks hloose (all_isInline hs hfeed.1) (all_isInline_replicate n) hbehind
    rw [hsplit]
    simpa using hline

/-- Literals stay when lines are indented anew. -/
theorem respaced_indentLines {t : Text} (h : ∀ l ∈ lines t, EndsStrictly l) (depth : Nat) :
    Respaced '\n' t (unlines (indentLines depth (lines t))) := by
  induction t using lines_induction generalizing depth with
  | one l hl =>
    obtain ⟨n, depth', -, hnil, hlines⟩ := exists_indentLines depth l
    rw [lines_eq_singleton hl] at h ⊢
    rw [hlines l [] rfl, indentLines, unlines_singleton]
    -- White space in front of the end, or of a line feed, may go.
    have hdrop (prev : Char) (s : Text) (hprev : prev ≠ '\\') (hs : s.all isInline = true) :
        Respaced prev (s ++ []) [] := by
      rw [List.append_nil]
      exact .stop hprev hs rfl
    have hline := respaced_line hl (h l (List.mem_singleton_self l)) hnil .nil hdrop
    rwa [List.append_nil, List.append_nil] at hline
  | more l r hl ih =>
    obtain ⟨n, depth', -, hnil, hlines⟩ := exists_indentLines depth l
    rw [lines_append hl] at h ⊢
    have hrest := ih (fun l' hl' => h l' (List.mem_cons_of_mem l hl')) depth'
    rw [hlines l (lines r) rfl, unlines_cons _ (indentLines_ne_nil depth' r)]
    have hdrop (prev : Char) (s : Text) (hprev : prev ≠ '\\') (hs : s.all isInline = true) :
        Respaced prev (s ++ '\n' :: r) ([] ++ '\n' :: unlines (indentLines depth' (lines r))) :=
      .blanks ⟨hprev, .inl rfl⟩ hs rfl hrest
    exact respaced_line hl (h l List.mem_cons_self) hnil (fun _ => .keep hrest) hdrop

/-- A stretch of an indented line that begins with a visible character is one of the line before. -/
theorem exists_stretch_of_line {l v w z : Text} {n : Nat}
    (heq : List.replicate n ' ' ++ trim l = v ++ (w ++ z))
    (hw : w.head?.any (fun c => !isBlank c) = true) :
    ∃ v' z', l = v' ++ (w ++ z') ∧ nonBlank v' = nonBlank v := by
  obtain ⟨s, s', hsplit, hs, hs'⟩ := exists_blanks_around l
  obtain ⟨x, w, rfl⟩ : ∃ x w', w = x :: w' := by
    cases w with
    | nil => cases hw
    | cons x w => exact ⟨x, w, rfl⟩
  have hspaces : x ∉ List.replicate n ' ' := by
    intro hspace
    rw [List.eq_of_mem_replicate hspace] at hw
    cases hw
  obtain ⟨u, rfl, hbody⟩ := exists_of_append_eq hspaces heq
  refine ⟨s ++ u, z ++ s', ?_, ?_⟩
  · rw [hsplit, hbody]
    simp
  · rw [nonBlank_append, nonBlank_append, nonBlank_eq_nil hs,
      nonBlank_eq_nil (all_isBlank_replicate n)]

/-- What stands on an indented line, from a visible character on, stood on a line before. -/
theorem exists_stretch {t v w r : Text} {depth : Nat}
    (heq : unlines (indentLines depth (lines t)) = v ++ (w ++ r))
    (hw : w.head?.any (fun c => !isBlank c) = true) (hfeed : '\n' ∉ w) :
    ∃ v' r', t = v' ++ (w ++ r') ∧ nonBlank v' = nonBlank v := by
  induction t using lines_induction generalizing depth v with
  | one l hl =>
    obtain ⟨n, depth', -, -, hlines⟩ := exists_indentLines depth l
    rw [lines_eq_singleton hl, hlines l [] rfl, indentLines, unlines_singleton] at heq
    exact exists_stretch_of_line heq hw
  | more l t hl ih =>
    obtain ⟨n, depth', -, -, hlines⟩ := exists_indentLines depth l
    rw [lines_append hl, hlines l (lines t) rfl,
      unlines_cons _ (indentLines_ne_nil depth' t)] at heq
    -- The stretch stands on the first line or behind it.
    rcases first_line_cases heq hfeed with ⟨z, hline, -⟩ | ⟨v₁, rfl, hrest⟩
    · obtain ⟨v', z', rfl, hv'⟩ := exists_stretch_of_line hline hw
      exact ⟨v', z' ++ '\n' :: t, by simp, hv'⟩
    · obtain ⟨v', r', rfl, hv'⟩ := ih hrest
      refine ⟨l ++ '\n' :: v', r', by simp, ?_⟩
      rw [nonBlank_append, nonBlank_cons_blank rfl, hv', nonBlank_append, nonBlank_cons_blank rfl,
        nonBlank_append, nonBlank_eq_nil (all_isBlank_replicate n), nonBlank_trim]
      rfl

end CodeTidy.Generic
