import CodeTidy.Proofs.Generic.Lexer
import CodeTidy.Proofs.Pattern.Rewrite

/-!
# `CodeTidy.Proofs.Generic.Lockstep`: the literals of a text that is spaced anew

White space on a line may come, go and change without an effect on strings and
comments, as long as no backslash stands in front of it and no mark of a
comment is taken apart or put together. `Respaced` relates two such texts. They
are read in lockstep, so the same visible characters stand in literals:
`shown_eq`.
-/

set_option autoImplicit false

namespace CodeTidy.Generic

open Pattern Text

/-- White space other than line feeds. -/
def isInline (c : Char) : Bool := isBlank c && c != '\n'

/-- White space on a line is white space. -/
theorem isBlank_of_isInline {c : Char} (h : isInline c = true) : isBlank c = true :=
  (Bool.and_eq_true_iff.mp h).1

/-- The same for a stretch. -/
theorem all_isBlank_of_isInline {s : Text} (h : s.all isInline = true) : s.all isBlank = true :=
  List.all_eq_true.mpr fun c hc => isBlank_of_isInline (List.all_eq_true.mp h c hc)

/-- What is visible is no white space on a line, and no line feed is. -/
theorem isInline_eq_false {c : Char} (h : c = '\n' ∨ isBlank c = false) : isInline c = false := by
  rcases h with rfl | h
  · rfl
  · rw [isInline, h, Bool.false_and]

/-- White space on a line is no other character. -/
theorem ne_of_isInline {c d : Char} (hc : isInline c = true) (hd : isInline d = false) :
    c ≠ d := by
  rintro rfl
  rw [hc] at hd
  cases hd

/-- Between the two characters white space may come and go. -/
def IsLoose (prev a : Char) : Prop :=
  prev ≠ '\\' ∧ (a = '\n' ∨ isBlank a = false ∧ prev ≠ '/' ∧ prev ≠ '*')

/-- Where there is white space already, more may come. -/
theorem isLoose_of_isInline {prev a : Char} (h : isInline prev = true)
    (ha : a = '\n' ∨ isBlank a = false) : IsLoose prev a := by
  refine ⟨ne_of_isInline h rfl, ha.imp_right fun ha => ⟨ha, ?_⟩⟩
  exact ⟨ne_of_isInline h rfl, ne_of_isInline h rfl⟩

/-- Two texts behind the character `prev` that differ in white space on their lines only, and only
where it may come and go. -/
inductive Respaced : Char → Text → Text → Prop where
  | nil (prev : Char) : Respaced prev [] []
  | keep {prev a : Char} {t t' : Text} (h : Respaced a t t') : Respaced prev (a :: t) (a :: t')
  | blanks {prev a : Char} {s s' t t' : Text} (hloose : IsLoose prev a)
      (hs : s.all isInline = true) (hs' : s'.all isInline = true) (h : Respaced a t t') :
      Respaced prev (s ++ a :: t) (s' ++ a :: t')
  | stop {prev : Char} {s s' : Text} (hprev : prev ≠ '\\') (hs : s.all isInline = true)
      (hs' : s'.all isInline = true) : Respaced prev s s'

namespace Respaced

/-- A text differs from itself in nothing. -/
theorem refl (prev : Char) (t : Text) : Respaced prev t t := by
  induction t generalizing prev with
  | nil => exact .nil prev
  | cons a t ih => exact .keep (ih a)

/-- The two texts may change places. -/
theorem symm {prev : Char} {t t' : Text} (h : Respaced prev t t') : Respaced prev t' t := by
  induction h with
  | nil prev => exact .nil prev
  | keep _ ih => exact .keep ih
  | blanks hloose hs hs' _ ih => exact .blanks hloose hs' hs ih
  | stop hprev hs hs' => exact .stop hprev hs' hs

/-- Nothing is left of a text but white space if nothing is left of the other. -/
theorem of_nil {prev : Char} {t : Text} (h : Respaced prev [] t) : t.all isInline = true := by
  generalize hx : ([] : Text) = x at h
  cases h with
  | nil => rfl
  | keep => cases hx
  | blanks => simp at hx
  | stop _ _ hs' => exact hs'

/-- One character is read of the first text: white space, or a character that comes next in the
second one as well. -/
theorem cons_cases {prev c : Char} {t t' : Text} (h : Respaced prev (c :: t) t') :
    isInline c = true ∧ prev ≠ '\\' ∧ Respaced c t t' ∨
      ∃ s t₁, t' = s ++ c :: t₁ ∧ s.all isInline = true ∧ (s = [] ∨ IsLoose prev c) ∧
        Respaced c t t₁ := by
  generalize hx : c :: t = x at h
  cases h with
  | nil => cases hx
  | keep h =>
    obtain ⟨rfl, rfl⟩ := List.cons.inj hx
    exact .inr ⟨[], _, rfl, rfl, .inl rfl, h⟩
  -- White space of the first text is read first. When it is used up, that of the second one comes
  -- in front of the same character.
  | @blanks _ a s s' t₁ t₁' hloose hs hs' h =>
    cases s with
    | nil =>
      obtain ⟨rfl, rfl⟩ := List.cons.inj hx
      exact .inr ⟨s', t₁', rfl, hs', .inr hloose, h⟩
    | cons b s =>
      obtain ⟨rfl, rfl⟩ := List.cons.inj hx
      rw [List.all_cons, Bool.and_eq_true] at hs
      exact .inl ⟨hs.1, hloose.1,
        .blanks (isLoose_of_isInline hs.1 (hloose.2.imp_right And.left)) hs.2 hs' h⟩
  | stop hprev hs hs' =>
    rw [← hx, List.all_cons, Bool.and_eq_true] at hs
    exact .inl ⟨hs.1, hprev, .stop (ne_of_isInline hs.1 rfl) hs.2 hs'⟩

/-- A visible character or a line feed comes next in the second text as well. -/
theorem of_cons {prev c : Char} {t t' : Text} (h : Respaced prev (c :: t) t')
    (hc : isInline c = false) : ∃ s t₁, t' = s ++ c :: t₁ ∧ s.all isInline = true ∧
      (s = [] ∨ IsLoose prev c) ∧ Respaced c t t₁ := by
  rcases h.cons_cases with ⟨hinline, -⟩ | h
  · rw [hinline] at hc
    cases hc
  · exact h

/-- Behind a character that is not loose the texts go on alike. -/
theorem of_strict {prev c : Char} {t t' : Text} (h : Respaced prev (c :: t) t')
    (hprev : ¬IsLoose prev c) (hc : isInline c = false) :
    ∃ t₁, t' = c :: t₁ ∧ Respaced c t t₁ := by
  obtain ⟨s, t₁, rfl, -, hs, hrest⟩ := h.of_cons hc
  rcases hs with rfl | hs
  · exact ⟨t₁, rfl, hrest⟩
  · exact absurd hs hprev

end Respaced

/-- The two texts begin with `u` and `u'`, which hold the same visible characters, and go on alike
behind them. -/
def BeginAlike (t t' u u' : Text) : Prop :=
  ∃ p r r', t = u ++ r ∧ t' = u' ++ r' ∧ nonBlank u = nonBlank u' ∧ Respaced p r r'

namespace BeginAlike

variable {t t' u u' : Text}

/-- White space on one side does not count. -/
theorem inline {c : Char} (hc : isInline c = true) (h : BeginAlike t t' u u') :
    BeginAlike (c :: t) t' (c :: u) u' := by
  obtain ⟨p, r, r', rfl, rfl, heq, hrest⟩ := h
  exact ⟨p, r, r', rfl, rfl, (nonBlank_cons_blank (isBlank_of_isInline hc) u).trans heq, hrest⟩

/-- A visible character on both sides, with white space in front of it on one. -/
theorem cons {s : Text} (hs : s.all isInline = true) (c : Char) (h : BeginAlike t t' u u') :
    BeginAlike (c :: t) (s ++ c :: t') (c :: u) (s ++ c :: u') := by
  obtain ⟨p, r, r', rfl, rfl, heq, hrest⟩ := h
  refine ⟨p, r, r', rfl, by simp, ?_, hrest⟩
  have hnone := nonBlank_eq_nil (all_isBlank_of_isInline hs)
  show nonBlank ([c] ++ u) = nonBlank (s ++ ([c] ++ u'))
  rw [nonBlank_append, nonBlank_append, nonBlank_append, hnone, heq]
  rfl

/-- A character on both sides. -/
theorem keep (c : Char) (h : BeginAlike t t' u u') :
    BeginAlike (c :: t) (c :: t') (c :: u) (c :: u') :=
  cons (s := []) rfl c h

end BeginAlike

/-! ### Strings -/

section Strings

variable {stops : Text} {quote : Char}

/-- A string goes on over white space on its line. -/
theorem quotedRest?_inline {s : Text} (hs : s.all isInline = true)
    (hquote : (quote, stops) ∈ quotes)
    (t : Text) :
    quotedRest? stops quote false (s ++ t) = (quotedRest? stops quote false t).map (s ++ ·) := by
  obtain ⟨-, -, -, hblank, -, hstops⟩ := quotes_spec _ hquote
  induction s with
  | nil => simp
  | cons c s ih =>
    rw [List.all_cons, Bool.and_eq_true] at hs
    rw [List.cons_append, quotedRest?_plain (ne_of_isInline hs.1 rfl)
      (ne_of_isInline hs.1 (isInline_eq_false (.inr hblank)))
      (fun hmem => ne_of_isInline hs.1 (isInline_eq_false (hstops c hmem)) rfl), ih hs.2,
      Option.map_map]
    rfl

/-- A string that is closed in one text is closed in the other. -/
theorem Respaced.quotedRest? (hquote : (quote, stops) ∈ quotes) {prev : Char} {t t' u : Text}
    {isEscaped : Bool} (h : Respaced prev t t')
    (hu : quotedRest? stops quote isEscaped t = some u) (hprev : isEscaped = true → prev = '\\') :
    ∃ u', Generic.quotedRest? stops quote isEscaped t' = some u' ∧ BeginAlike t t' u u' := by
  obtain ⟨hmem, hslash, -, hblank, -, hstops⟩ := quotes_spec _ hquote
  induction t generalizing prev t' u isEscaped with
  | nil => cases isEscaped <;> cases hu
  | cons c t ih =>
    cases isEscaped with
    | true =>
      -- Behind a backslash no white space comes or goes.
      obtain rfl := hprev rfl
      obtain ⟨w, hw, rfl⟩ := Option.map_eq_some_iff.mp hu
      rcases h.cons_cases with ⟨-, hne, -⟩ | ⟨s, t₁, rfl, -, hs, hrest⟩
      · exact absurd rfl hne
      · rcases hs with rfl | hs
        · obtain ⟨w', hw', halike⟩ := ih hrest hw (fun h => nomatch h)
          exact ⟨c :: w', by rw [List.nil_append, Generic.quotedRest?, hw']; rfl, halike.keep c⟩
        · exact absurd rfl hs.1
    | false =>
      rcases h.cons_cases with ⟨hc, -, hrest⟩ | ⟨s, t₁, rfl, hs, -, hrest⟩
      · have hsingle := quotedRest?_inline (s := [c]) (by rw [List.all_cons, hc]; rfl) hquote t
        rw [List.singleton_append] at hsingle
        rw [hsingle] at hu
        obtain ⟨w, hw, rfl⟩ := Option.map_eq_some_iff.mp hu
        obtain ⟨w', hw', halike⟩ := ih hrest hw (fun h => nomatch h)
        exact ⟨w', hw', halike.inline hc⟩
      · rw [quotedRest?_inline hs hquote]
        by_cases hesc : c = '\\'
        · subst hesc
          obtain ⟨w, hw, rfl⟩ := Option.map_eq_some_iff.mp hu
          obtain ⟨w', hw', halike⟩ := ih hrest hw (fun _ => rfl)
          exact ⟨s ++ '\\' :: w', by rw [quotedRest?_escape, hw']; rfl, halike.cons hs _⟩
        · by_cases hclose : c = quote
          · subst hclose
            rw [quotedRest?_quote hslash] at hu ⊢
            cases hu
            exact ⟨s ++ [c], rfl, .cons hs c ⟨c, t, t₁, rfl, rfl, rfl, hrest⟩⟩
          · by_cases hstop : c ∈ stops
            · rw [quotedRest?_stop hesc hclose hstop] at hu
              cases hu
            · rw [quotedRest?_plain hesc hclose hstop] at hu ⊢
              obtain ⟨w, hw, rfl⟩ := Option.map_eq_some_iff.mp hu
              obtain ⟨w', hw', halike⟩ := ih hrest hw (fun h => nomatch h)
              exact ⟨s ++ c :: w', by rw [hw']; rfl, halike.cons hs c⟩

end Strings

/-! ### Comments -/

/-- A block comment goes on over white space on its line. -/
theorem blockRest?_inline {s : Text} (hs : s.all isInline = true) (t : Text) :
    blockRest? (s ++ t) = (blockRest? t).map (s ++ ·) := by
  induction s with
  | nil => simp
  | cons c s ih =>
    rw [List.all_cons, Bool.and_eq_true] at hs
    have hstar : c ≠ '*' := ne_of_isInline hs.1 rfl
    rw [List.cons_append, blockRest?, beq_false_of_ne hstar, Bool.false_and,
      if_neg Bool.false_ne_true, ih hs.2, Option.map_map]
    rfl

/-- Behind a character that begins or ends a comment no white space may come or go, but at the end
of the line. -/
theorem not_isLoose_mark {prev a : Char} (hprev : prev = '/' ∨ prev = '*') (ha : a ≠ '\n') :
    ¬IsLoose prev a := by
  rintro ⟨-, hfeed | ⟨-, hslash, hstar⟩⟩
  · exact ha hfeed
  · exact hprev.elim hslash hstar

/-- The mark of a comment is not taken apart. -/
theorem Respaced.head?_eq {prev c : Char} {t t' : Text} (h : Respaced prev t t')
    (hprev : prev = '/' ∨ prev = '*') (hc : isInline c = false) (hfeed : c ≠ '\n')
    (ht : t.head? = some c) : t'.head? = some c := by
  obtain _ | ⟨b, t⟩ := t
  · cases ht
  · obtain rfl : b = c := Option.some.inj ht
    obtain ⟨t₁, rfl, -⟩ := h.of_strict (not_isLoose_mark hprev hfeed) hc
    rfl

/-- A block comment that is closed in one text is closed in the other. -/
theorem Respaced.blockRest? {prev : Char} {t t' u : Text} (h : Respaced prev t t')
    (hu : blockRest? t = some u) :
    ∃ u', Generic.blockRest? t' = some u' ∧ BeginAlike t t' u u' := by
  induction t generalizing prev t' u with
  | nil => cases hu
  | cons c t ih =>
    -- White space of the first text is part of the comment. Otherwise the same character comes in
    -- both.
    rcases h.cons_cases with ⟨hc, -, hrest⟩ | ⟨s, t₁, rfl, hs, -, hrest⟩
    · have hsingle := blockRest?_inline (s := [c]) (by rw [List.all_cons, hc]; rfl) t
      rw [List.singleton_append] at hsingle
      rw [hsingle] at hu
      obtain ⟨w, hw, rfl⟩ := Option.map_eq_some_iff.mp hu
      obtain ⟨w', hw', halike⟩ := ih hrest hw
      exact ⟨w', hw', halike.inline hc⟩
    · rw [blockRest?_inline hs]
      rw [Generic.blockRest?] at hu ⊢
      by_cases hclose : (c == '*' && t.head? == some '/') = true
      · rw [if_pos hclose] at hu
        cases hu
        rw [Bool.and_eq_true, beq_iff_eq, beq_iff_eq] at hclose
        obtain ⟨rfl, hhead⟩ := hclose
        obtain _ | ⟨b, t⟩ := t
        · cases hhead
        · cases hhead
          -- Nothing comes between the star and the slash.
          obtain ⟨t₂, rfl, hrest'⟩ := hrest.of_strict (not_isLoose_mark (.inr rfl) (by decide)) rfl
          exact ⟨s ++ ['*', '/'], rfl, .cons hs '*' (.keep '/' ⟨'/', t, t₂, rfl, rfl, rfl, hrest'⟩)⟩
      · rw [if_neg hclose] at hu
        obtain ⟨w, hw, rfl⟩ := Option.map_eq_some_iff.mp hu
        obtain ⟨w', hw', halike⟩ := ih hrest hw
        -- Nor is there a slash behind a star in the second text that is not in the first one.
        have hopen : ¬(c == '*' && t₁.head? == some '/') = true := by
          intro hmark
          rw [Bool.and_eq_true, beq_iff_eq, beq_iff_eq] at hmark
          refine hclose ?_
          rw [hmark.1, hrest.symm.head?_eq (.inr hmark.1) rfl (by decide) hmark.2]
          rfl
        rw [if_neg hopen]
        exact ⟨s ++ c :: w', by rw [hw']; rfl, halike.cons hs c⟩

/-- A line comment goes up to the same line feed. -/
theorem Respaced.takeWhile {prev : Char} {t t' : Text} (h : Respaced prev t t') :
    BeginAlike t t' (t.takeWhile (· != '\n')) (t'.takeWhile (· != '\n')) := by
  -- White space on a line holds no line feed.
  have hinline {s : Text} (hs : s.all isInline = true) : ∀ c ∈ s, (c != '\n') = true := by
    intro c hc
    exact (Bool.and_eq_true_iff.mp (List.all_eq_true.mp hs c hc)).2
  induction t generalizing prev t' with
  | nil =>
    have ht' : (t' ++ []).takeWhile (· != '\n') = t' ++ [] :=
      List.takeWhile_append_of_pos (hinline h.of_nil)
    rw [List.append_nil] at ht'
    rw [ht']
    refine ⟨'\n', [], [], rfl, (List.append_nil t').symm, ?_, .nil _⟩
    rw [nonBlank_eq_nil (all_isBlank_of_isInline h.of_nil)]
    rfl
  | cons c t ih =>
    rcases h.cons_cases with ⟨hc, -, hrest⟩ | ⟨s, t₁, rfl, hs, -, hrest⟩
    · rw [List.takeWhile_cons, if_pos (Bool.and_eq_true_iff.mp hc).2]
      exact (ih hrest).inline hc
    · rw [List.takeWhile_append_of_pos (hinline hs)]
      -- Both comments end at the line feed, or go on with the same character.
      by_cases hfeed : c = '\n'
      · subst hfeed
        rw [List.takeWhile_cons_of_neg (by decide), List.takeWhile_cons_of_neg (by decide),
          List.append_nil]
        refine ⟨'\n', '\n' :: t, '\n' :: t₁, rfl, rfl, ?_, .keep hrest⟩
        rw [nonBlank_eq_nil (all_isBlank_of_isInline hs)]
        rfl
      · have hpass : (c != '\n') = true := bne_iff_ne.mpr hfeed
        rw [List.takeWhile_cons, if_pos hpass, List.takeWhile_cons, if_pos hpass]
        exact (ih hrest).cons hs c

/-! ### All literals -/

/-- Where a literal begins in one text, one with the same visible characters begins in the
other. -/
theorem Respaced.exists_isLiteral {c : Char} {t t' u : Text} (h : Respaced c t t')
    (hu : IsLiteral (c :: t) u) :
    ∃ u', IsLiteral (c :: t') u' ∧ BeginAlike (c :: t) (c :: t') u u' := by
  generalize hx : c :: t = x at hu
  cases hu with
  | block hrest =>
    obtain ⟨rfl, rfl⟩ := List.cons.inj hx
    obtain ⟨t₁, rfl, h'⟩ := h.of_strict (not_isLoose_mark (.inl rfl) (by decide)) rfl
    obtain ⟨u', hu', halike⟩ := h'.blockRest? hrest
    exact ⟨_, .block hu', .keep '/' (.keep '*' halike)⟩
  | line r =>
    obtain ⟨rfl, rfl⟩ := List.cons.inj hx
    obtain ⟨t₁, rfl, h'⟩ := h.of_strict (not_isLoose_mark (.inl rfl) (by decide)) rfl
    exact ⟨_, .line t₁, .keep '/' (.keep '/' h'.takeWhile)⟩
  | string hquote hrest =>
    obtain ⟨rfl, rfl⟩ := List.cons.inj hx
    obtain ⟨u', hu', halike⟩ := h.quotedRest? hquote hrest (fun h => nomatch h)
    exact ⟨_, .string hquote hu', .keep c halike⟩

/-- The visible characters of a text, each with whether it stands in a literal. -/
def shown (segments : List Segment) : List (Char × Bool) :=
  segments.flatMap (fun s => match s with
    | .gap g => (nonBlank g).map (·, false)
    | .hit m => (nonBlank m.text).map (·, true))

section Walk

variable {c : Cursor} {segments : List Segment}

/-- A gap shows its characters as code. -/
theorem shown_gap (g : Text) (segments : List Segment) :
    shown (.gap g :: segments) = (nonBlank g).map (·, false) ++ shown segments := List.flatMap_cons

/-- A literal shows its characters as such. -/
theorem shown_hit (m : Match) (segments : List Segment) :
    shown (.hit m :: segments) = (nonBlank m.text).map (·, true) ++ shown segments :=
  List.flatMap_cons

/-- The first character of a gap is shown first. -/
theorem shown_pass (a : Char) (g : Text) (segments : List Segment) :
    shown (.gap (a :: g) :: segments) =
      (nonBlank [a]).map (·, false) ++ shown (.gap g :: segments) := by
  rw [shown_gap, shown_gap, show nonBlank (a :: g) = nonBlank [a] ++ nonBlank g from
    nonBlank_append [a] g, List.map_append, List.append_assoc]

/-- What is matched is a literal. -/
theorem exists_isLiteral_of_matchAt? {m : Match}
    (h : LiteralGrammar.cStyle.pattern.matchAt? c = some m) :
    IsLiteral c.after m.text ∧ c.Reads m.text m.stop := by
  obtain ⟨v, hv, htext, -⟩ := exists_reads_of_matchAt? h
  rw [matchAt?_literal, Option.map_eq_some_iff] at h
  obtain ⟨u, hu, rfl⟩ := h
  have hliteral := literal?_eq_some_iff.mp hu
  have hreads := Cursor.reads_behind hliteral.begins
  have huv : u = v := by
    have h₁ := hreads.take_eq
    have h₂ := hv.take_eq
    exact h₁.symm.trans h₂
  rw [htext, ← huv]
  exact ⟨hliteral, hreads⟩

/-- No literal begins with white space. -/
theorem matchAt?_inline {a : Char} (ha : isInline a = true) {r : Text} (hc : c.after = a :: r) :
    LiteralGrammar.cStyle.pattern.matchAt? c = none := by
  rw [matchAt?_literal, hc, Option.map_eq_none_iff, Option.eq_none_iff_forall_ne_some]
  intro u hu
  rcases (literal?_eq_some_iff.mp hu).head with ⟨rfl, -⟩ | ⟨stops, hquote⟩
  · cases ha
  · obtain ⟨-, -, -, hblank, -⟩ := quotes_spec _ hquote
    rw [isBlank_of_isInline ha] at hblank
    cases hblank

/-- White space is passed without a literal. -/
theorem exists_cuts_behind_inline {s r : Text} (hs : s.all isInline = true)
    (h : Cuts LiteralGrammar.cStyle.pattern c segments) (hc : c.after = s ++ r) :
    ∃ c' segments', Cuts LiteralGrammar.cStyle.pattern c' segments' ∧ c'.after = r ∧
      shown segments' = shown segments := by
  induction s generalizing c segments with
  | nil => exact ⟨c, segments, h, hc, rfl⟩
  | cons a s ih =>
    rw [List.all_cons, Bool.and_eq_true] at hs
    cases h with
    | stop hend =>
      rw [hc] at hend
      cases hend
    | @pass _ c' b g rest hread hnone hrest =>
      obtain ⟨rfl, hafter⟩ := List.cons.inj (hread.after_eq.symm.trans hc)
      obtain ⟨c'', segments', hcuts, hafter', hshown⟩ := ih hs.2 hrest hafter
      refine ⟨c'', segments', hcuts, hafter', hshown.trans ?_⟩
      rw [shown_pass, nonBlank_eq_nil (by rw [List.all_cons, isBlank_of_isInline hs.1]; rfl)]
      rfl
    -- No literal begins with white space.
    | hit hm =>
      rw [matchAt?_inline hs.1 hc] at hm
      cases hm

/-- At the end of the text nothing is shown. -/
theorem shown_of_end (h : Cuts LiteralGrammar.cStyle.pattern c segments) (hend : c.after = []) :
    shown segments = [] := by
  cases h with
  | stop => rfl
  | pass hread =>
    rw [hread.after_eq] at hend
    cases hend
  | hit hm =>
    rw [matchAt?_literal, hend] at hm
    cases hm

/-- Where no literal begins, the next character is shown as code. -/
theorem exists_cuts_behind_code (h : Cuts LiteralGrammar.cStyle.pattern c segments)
    (hnone : LiteralGrammar.cStyle.pattern.matchAt? c = none) {a : Char} {r : Text}
    (hc : c.after = a :: r) :
    ∃ c' segments', Cuts LiteralGrammar.cStyle.pattern c' segments' ∧ c'.after = r ∧
      shown segments = (nonBlank [a]).map (·, false) ++ shown segments' := by
  cases h with
  | stop hend =>
    rw [hc] at hend
    cases hend
  | @pass _ c' b g rest hread _ hrest =>
    obtain ⟨rfl, hafter⟩ := List.cons.inj (hread.after_eq.symm.trans hc)
    exact ⟨c', _, hrest, hafter, shown_pass b g rest⟩
  | hit hm =>
    rw [hnone] at hm
    cases hm

/-- Where a literal begins, its characters are shown as such. -/
theorem exists_cuts_behind_literal (h : Cuts LiteralGrammar.cStyle.pattern c segments)
    {u r : Text} (hu : IsLiteral c.after u) (hc : c.after = u ++ r) :
    ∃ c' segments', Cuts LiteralGrammar.cStyle.pattern c' segments' ∧ c'.after = r ∧
      shown segments = (nonBlank u).map (·, true) ++ shown segments' := by
  have hread : literal? c.after = some u := literal?_eq_some_iff.mpr hu
  cases h with
  | stop hend =>
    obtain ⟨a, r', -, hcons, -⟩ := hu.exists_cons
    rw [hcons] at hend
    cases hend
  | pass _ hnone =>
    rw [matchAt?_literal, hread] at hnone
    cases hnone
  | @hit _ m rest hm hrest =>
    obtain ⟨hliteral, hreads⟩ := exists_isLiteral_of_matchAt? hm
    obtain rfl : m.text = u :=
      Option.some.inj ((literal?_eq_some_iff.mpr hliteral).symm.trans hread)
    exact ⟨m.stop, rest, hrest, List.append_cancel_left (hreads.after_eq.symm.trans hc), rfl⟩

/-- Where no literal begins in one text, none begins in the other. -/
theorem Respaced.matchAt?_eq_none {a : Char} {c' : Cursor} {t t' : Text} (h : Respaced a t t')
    (hc : c.after = a :: t) (hc' : c'.after = a :: t')
    (hnone : LiteralGrammar.cStyle.pattern.matchAt? c = none) :
    LiteralGrammar.cStyle.pattern.matchAt? c' = none := by
  rw [matchAt?_literal, Option.map_eq_none_iff, Option.eq_none_iff_forall_ne_some] at hnone ⊢
  intro u hu
  rw [hc'] at hu
  obtain ⟨u', hu', -⟩ := h.symm.exists_isLiteral (literal?_eq_some_iff.mp hu)
  exact hnone u' (by rw [hc]; exact literal?_eq_some_iff.mpr hu')

/-- In two texts that differ in white space on their lines the same visible characters stand in
literals. -/
theorem shown_eq {c' : Cursor} {segments' : List Segment} {prev : Char}
    (h : Cuts LiteralGrammar.cStyle.pattern c segments)
    (h' : Cuts LiteralGrammar.cStyle.pattern c' segments')
    (hrespaced : Respaced prev c.after c'.after) : shown segments = shown segments' := by
  -- By induction on the text that is left. In front of what the first walk reads, the second one
  -- has white space at most, which it passes first.
  generalize hn : c.after.length = n
  induction n using Nat.strongRecOn generalizing c c' segments segments' prev with
  | ind n ih =>
    cases h with
    | stop hend =>
      rw [hend] at hrespaced
      obtain ⟨c'', segments'', hcuts, hafter, hshown⟩ :=
        exists_cuts_behind_inline hrespaced.of_nil h' (List.append_nil _).symm
      rw [← hshown, shown_of_end hcuts hafter]
      rfl
    | @pass _ c₁ a g rest hread hnone hrest =>
      have hafter : c.after = a :: c₁.after := hread.after_eq
      have hlt : c₁.after.length < n := by
        rw [← hn, hafter, List.length_cons]
        omega
      rw [shown_pass]
      rw [hafter] at hrespaced
      rcases hrespaced.cons_cases with ⟨ha, -, hnext⟩ | ⟨s, t₁, ht₁, hs, -, hnext⟩
      · rw [nonBlank_eq_nil (by rw [List.all_cons, isBlank_of_isInline ha]; rfl)]
        exact ih _ hlt hrest h' hnext rfl
      · obtain ⟨c'', segments'', hcuts, hafter', hshown⟩ := exists_cuts_behind_inline hs h' ht₁
        obtain ⟨c₂, segments₂, hcuts₂, rfl, hshown₂⟩ := exists_cuts_behind_code hcuts
          (hnext.matchAt?_eq_none hafter hafter' hnone) hafter'
        rw [← hshown, hshown₂, ih _ hlt hrest hcuts₂ hnext rfl]
    | @hit _ m rest hmatch hrest =>
      obtain ⟨hliteral, hreads⟩ := exists_isLiteral_of_matchAt? hmatch
      obtain ⟨a, r, w, hafter, htext⟩ := hliteral.exists_cons
      have hblank : isInline a = false := by
        rw [← Bool.not_eq_true]
        intro ha
        rw [matchAt?_inline ha hafter] at hmatch
        cases hmatch
      rw [hafter] at hrespaced hliteral
      obtain ⟨s, t₁, ht₁, hs, -, hnext⟩ := hrespaced.of_cons hblank
      obtain ⟨u', hu', p, r₁, r₁', hr₁, hr₁', heq, hgoes⟩ := hnext.exists_isLiteral hliteral
      obtain ⟨c'', segments'', hcuts, hafter', hshown⟩ := exists_cuts_behind_inline hs h' ht₁
      rw [← hafter'] at hu' hr₁'
      obtain ⟨c₂, segments₂, hcuts₂, rfl, hshown₂⟩ := exists_cuts_behind_literal hcuts hu' hr₁'
      -- What stands behind the two literals differs in white space only, so the walks go on.
      have hrest₁ : m.stop.after = r₁ :=
        List.append_cancel_left (hreads.after_eq.symm.trans (hafter.trans hr₁))
      have hlt : m.stop.after.length < n := by
        rw [← hn, hreads.after_eq, htext, List.length_append, List.length_cons]
        omega
      rw [← hrest₁] at hgoes
      rw [shown_gap, shown_hit, ← hshown, hshown₂, heq, ih _ hlt hrest hcuts₂ hgoes rfl]
      rfl

/-- A visible character of a stretch is shown at its place among the visible ones. -/
theorem getElem?_map_nonBlank {x : Char} (hx : isBlank x = false) (isLiteral : Bool) (v z : Text)
    (rest : List (Char × Bool)) :
    ((nonBlank (v ++ x :: z)).map (·, isLiteral) ++ rest)[(nonBlank v).length]? =
      some (x, isLiteral) := by
  rw [nonBlank_append, nonBlank_cons hx, List.map_append, List.append_assoc,
    List.getElem?_append_right (Nat.le_of_eq (List.length_map _)), List.length_map, Nat.sub_self]
  rfl

/-- Behind a stretch the places are counted from its end. -/
theorem getElem?_nonBlank_append (isLiteral : Bool) (s z : Text) (rest : List (Char × Bool)) :
    ((nonBlank s).map (·, isLiteral) ++ rest)[(nonBlank (s ++ z)).length]? =
      rest[(nonBlank z).length]? := by
  have hlength : (nonBlank (s ++ z)).length =
      ((nonBlank s).map (·, isLiteral)).length + (nonBlank z).length := by
    rw [nonBlank_append, List.length_append, List.length_map]
  rw [hlength, List.getElem?_append_right (Nat.le_add_right _ _), Nat.add_sub_cancel_left]

/-- A visible character is shown as what it is: inside a literal or outside. -/
theorem getElem?_shown {v r : Text} {x : Char}
    (h : Cuts LiteralGrammar.cStyle.pattern c segments) (hx : isBlank x = false)
    (hc : c.after = v ++ x :: r) :
    (shown segments)[(nonBlank v).length]? =
      some (x, LiteralGrammar.covers (hitsOf segments) (c.pos + v.length)) := by
  induction h generalizing v with
  | stop hend =>
    rw [hc] at hend
    simp at hend
  | @pass c c' a g rest hread hnone hrest ih =>
    have hafter : a :: c'.after = v ++ x :: r := hread.after_eq.symm.trans hc
    have hpos : c'.pos = c.pos + 1 := hread.pos_eq
    rw [shown_pass]
    cases v with
    | nil =>
      obtain ⟨rfl, -⟩ := List.cons.inj hafter
      -- The literals that follow begin further on.
      have hfree : LiteralGrammar.covers (hitsOf (.gap (a :: g) :: rest)) c.pos = false := by
        rw [LiteralGrammar.covers, List.any_eq_false]
        intro m hm
        have hle := hrest.pos_le hm
        rw [Bool.and_eq_true, decide_eq_true_eq, decide_eq_true_eq]
        omega
      rw [List.length_nil, Nat.add_zero, hfree]
      exact getElem?_map_nonBlank hx false [] [] _
    | cons b v =>
      obtain ⟨rfl, hafter'⟩ := List.cons.inj hafter
      refine (getElem?_nonBlank_append false [a] v _).trans ?_
      rw [ih hafter', hpos, List.length_cons, Nat.add_assoc, Nat.add_comm 1]
      rfl
  | @hit c m rest hmatch hrest ih =>
    obtain ⟨-, hreads⟩ := exists_isLiteral_of_matchAt? hmatch
    obtain ⟨rfl, -⟩ := takes_of_matchAt? hmatch
    have hpos := hreads.pos_eq
    have hcovers (pos : Nat) : LiteralGrammar.covers (hitsOf (.gap [] :: .hit m :: rest)) pos =
        (decide (m.start.pos ≤ pos) && decide (pos < m.stop.pos) ||
          LiteralGrammar.covers (hitsOf rest) pos) := rfl
    rw [hcovers, shown_gap, shown_hit]
    -- The character stands in this literal, or behind it.
    rcases Text.append_eq_append_cons (hreads.after_eq.symm.trans hc) with
      ⟨z, htext, -⟩ | ⟨z, rfl, hz⟩
    · have hlt : m.start.pos + v.length < m.stop.pos := by
        rw [hpos, htext, List.length_append, List.length_cons]
        omega
      rw [decide_eq_true (Nat.le_add_right _ _), decide_eq_true hlt, htext]
      exact getElem?_map_nonBlank hx true v z _
    · have hpos' : m.start.pos + (m.text ++ z).length = m.stop.pos + z.length := by
        rw [List.length_append, hpos, Nat.add_assoc]
      refine (getElem?_nonBlank_append true m.text z _).trans ?_
      rw [ih hz, hpos', decide_eq_false (by omega : ¬m.stop.pos + z.length < m.stop.pos),
        Bool.and_false, Bool.false_or]

end Walk

/-- Whether a position of a text lies in one of its literals. -/
def isCovered (t : Text) (pos : Nat) : Bool :=
  LiteralGrammar.covers (LiteralGrammar.cStyle.literals t) pos

/-- A literal is never empty. -/
theorem isSolid_literal : IsSolid LiteralGrammar.cStyle.pattern := isSolid_spec rfl

/-- Where a literal of a text stands. -/
theorem exists_isLiteral_of_mem {t : Text} {m : Match} (h : m ∈ LiteralGrammar.cStyle.literals t) :
    ∃ v r, t = v ++ (m.text ++ r) ∧ IsLiteral (m.text ++ r) m.text ∧ m.start.pos = v.length ∧
      m.stop.pos = v.length + m.text.length := by
  obtain ⟨v, hv, hmatch⟩ := exists_matchesBehind_of_mem_hits isSolid_literal h
  obtain ⟨hliteral, hreads⟩ := exists_isLiteral_of_matchAt? hmatch
  have hstart : m.start.pos = v.length := by
    rw [hv.pos_eq, Cursor.start, Nat.zero_add]
  refine ⟨v, m.stop.after, ?_, hreads.after_eq ▸ hliteral, hstart, ?_⟩
  · rw [← hreads.after_eq, ← hv.after_eq]
    rfl
  · rw [hreads.pos_eq, hstart]

/-- A visible character is shown at the place that the visible characters in front of it leave it,
with whether a literal covers it. -/
theorem getElem?_shown_segments {t v r : Text} {x : Char} (hx : isBlank x = false)
    (ht : t = v ++ x :: r) :
    (shown (LiteralGrammar.cStyle.pattern.segments t))[(nonBlank v).length]? =
      some (x, isCovered t v.length) := by
  rw [getElem?_shown (cuts_segments isSolid_literal t) hx ht, hitsOf_segments, Cursor.start,
    Nat.zero_add]
  rfl

/-- A visible character stands in a literal of both texts, or of none. -/
theorem Respaced.isCovered_eq {prev x : Char} {t t' v v' r r' : Text} (h : Respaced prev t t')
    (hx : isBlank x = false) (ht : t = v ++ x :: r) (ht' : t' = v' ++ x :: r')
    (hv : nonBlank v = nonBlank v') : isCovered t v.length = isCovered t' v'.length := by
  have heq := shown_eq (cuts_segments isSolid_literal t) (cuts_segments isSolid_literal t') h
  have hshown := getElem?_shown_segments hx ht
  rw [heq, hv, getElem?_shown_segments hx ht', Option.some.injEq, Prod.mk.injEq] at hshown
  exact hshown.2.symm

end CodeTidy.Generic
