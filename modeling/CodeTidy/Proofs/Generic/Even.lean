import CodeTidy.Proofs.Generic.Lockstep
import CodeTidy.Proofs.Generic.Spacing

/-!
# `CodeTidy.Proofs.Generic.Even`: operators are spaced once

The pass that spaces operators finds nothing to do in its own result. The
literals of the result are those of the text before, as white space comes and
goes at operators only; so what has been spaced is outside of literals again,
and what has been left is in one again. The theorems:

* `isCovered_behind_operand`: an operator stands in a literal if the operand in
  front of it does.
* `respaced_spaceOperators`: the literals stay.
* `isEven_spaceOperators`, `IsEven.spaceOperators_eq`: the result is spaced
  evenly, and such a text stays as it is.
-/

set_option autoImplicit false

namespace CodeTidy.Generic

open Pattern Text

/-! ### Operators and literals -/

/-- What ends an operand is visible, and is no sign, no backslash, no part of a comment mark and no
quote. -/
theorem spec_of_endsOperand {c : Char} (h : endsOperand c = true) :
    isBlank c = false ∧ isSign c = false ∧ c ∉ ['\\', '/', '*'] ∧
      ∀ stops, (c, stops) ∉ quotes := by
  have hmark : ['\\', '/', '*', '"', '\'', '`'].all (fun d => !endsOperand d) = true := by decide
  have hne {d : Char} (hd : d ∈ ['\\', '/', '*', '"', '\'', '`']) : c ≠ d := by
    rintro rfl
    simpa [h] using List.all_eq_true.mp hmark c hd
  refine ⟨?_, ?_, ?_, ?_⟩
  · -- Word characters and closing brackets are visible.
    rw [← Bool.not_eq_true]
    intro hblank
    rw [endsOperand, CharSet.or, isWord_of_isBlank hblank, Bool.false_or, CharSet.of,
      List.contains_iff_mem] at h
    have hparen : ")]".toList.all (fun d => !isBlank d) = true := by decide
    simpa [hblank] using List.all_eq_true.mp hparen c h
  · rw [← Bool.not_eq_true]
    intro hsign
    rw [(spec_of_isSign hsign).2.2.1] at h
    cases h
  · intro hmem
    exact hne (List.mem_append_left ['"', '\'', '`'] hmem) rfl
  · intro stops hquote
    simp only [quotes, List.mem_cons, Prod.mk.injEq, List.not_mem_nil, or_false] at hquote
    rcases hquote with ⟨hc, -⟩ | ⟨hc, -⟩ | ⟨hc, -⟩
    · exact hne (by decide) hc
    · exact hne (by decide) hc
    · exact hne (by decide) hc

/-- What begins an operand is visible. -/
theorem isBlank_of_beginsOperand {c : Char} (h : beginsOperand c = true) : isBlank c = false := by
  rw [← Bool.not_eq_true]
  intro hblank
  rw [beginsOperand, CharSet.or, isWord_of_isBlank hblank, Bool.false_or, CharSet.of,
    List.contains_iff_mem] at h
  have hmark : "([\"'".toList.all (fun d => !isBlank d) = true := by decide
  simpa [hblank] using List.all_eq_true.mp hmark c h

namespace IsOperation

variable {s sign s' r : Text}

/-- What an operator begins with. -/
theorem exists_cons (h : IsOperation s sign s' r) : ∃ c t, s ++ (sign ++ (s' ++ r)) = c :: t ∧
    (isIndent c = true ∨ c = '=' ∨ isSign c = true ∧ t.head? = some '=') := by
  have hleft := h.left
  cases s with
  | nil =>
    rcases h.sign_eq with rfl | ⟨c, hc, rfl⟩
    · exact ⟨'=', _, rfl, .inr (.inl rfl)⟩
    · exact ⟨c, _, rfl, .inr (.inr ⟨hc, rfl⟩)⟩
  | cons c s =>
    rw [List.all_cons, Bool.and_eq_true] at hleft
    exact ⟨c, _, rfl, .inl hleft.1⟩

/-- No literal begins where an operator does. -/
theorem not_isLiteral (h : IsOperation s sign s' r) (u : Text) :
    ¬IsLiteral (s ++ (sign ++ (s' ++ r))) u := by
  obtain ⟨c, t, hc, hkind⟩ := h.exists_cons
  intro hu
  rw [hc] at hu
  rcases hu.head with ⟨rfl, hnext⟩ | ⟨stops, hquote⟩
  · rcases hkind with hindent | heq | ⟨-, hhead⟩
    · cases hindent
    · cases heq
    · rw [hhead] at hnext
      rcases hnext with hnext | hnext <;> cases hnext
  · have hsign : ∀ q ∈ quotes, isIndent q.1 = false ∧ q.1 ≠ '=' ∧ isSign q.1 = false := by decide
    obtain ⟨hindent', heq', hsign'⟩ := hsign _ hquote
    rcases hkind with hindent | heq | ⟨hsign, -⟩
    · rw [hindent] at hindent'
      cases hindent'
    · exact heq' heq
    · rw [hsign] at hsign'
      cases hsign'

/-- No line ends where an operator begins. -/
theorem head?_ne (h : IsOperation s sign s' r) :
    (s ++ (sign ++ (s' ++ r))).head?.all (· == '\n') = false := by
  obtain ⟨c, t, hc, hkind⟩ := h.exists_cons
  rw [hc, List.head?_cons, Option.all_some, beq_eq_false_iff_ne]
  rintro rfl
  rcases hkind with hindent | heq | ⟨hsign, -⟩
  · cases hindent
  · cases heq
  · cases hsign

end IsOperation

/-- An operator stands in a literal if the operand in front of it does. -/
theorem isCovered_behind_operand {t v s sign s' r : Text} {x : Char} (hx : endsOperand x = true)
    (h : IsOperation s sign s' r) (ht : t = v ++ x :: (s ++ (sign ++ (s' ++ r)))) :
    isCovered t (v.length + 1) = isCovered t v.length := by
  have hliteral : ∀ m ∈ LiteralGrammar.cStyle.literals t,
      (decide (m.start.pos ≤ v.length + 1) && decide (v.length + 1 < m.stop.pos)) =
        (decide (m.start.pos ≤ v.length) && decide (v.length < m.stop.pos)) := by
    intro m hm
    obtain ⟨v₀, r₀, ht₀, hu, hstart, hstop⟩ := exists_isLiteral_of_mem hm
    have hsplit : (v ++ [x]) ++ (s ++ (sign ++ (s' ++ r))) = v₀ ++ (m.text ++ r₀) := by
      rw [← ht₀, ht]
      simp
    -- A literal does not begin behind the operand.
    have hbegin : v₀.length ≠ v.length + 1 := by
      intro heq
      obtain ⟨-, hrest⟩ := List.append_inj hsplit (by simp [heq])
      rw [← hrest] at hu
      exact h.not_isLiteral _ hu
    -- It does not end there either.
    have hend : v₀.length + m.text.length ≠ v.length + 1 := by
      intro heq
      rw [← List.append_assoc v₀] at hsplit
      obtain ⟨hleft, hrest⟩ := List.append_inj hsplit (by simp [heq])
      rcases hu.ends with ⟨w, a, htext, ha⟩ | hline
      · rw [htext, ← List.append_assoc] at hleft
        obtain rfl := (List.cons.inj (List.append_inj_right' hleft rfl)).1
        obtain ⟨-, -, hmarks, hquotes⟩ := spec_of_endsOperand hx
        rcases ha with rfl | ⟨stops, hquote⟩
        · exact hmarks (by decide)
        · exact hquotes stops hquote
      · rw [List.drop_left, ← hrest, h.head?_ne] at hline
        cases hline
    rw [Bool.eq_iff_iff]
    simp only [Bool.and_eq_true, decide_eq_true_eq]
    omega
  rw [isCovered, isCovered, LiteralGrammar.covers, LiteralGrammar.covers]
  rw [Bool.eq_iff_iff, List.any_eq_true, List.any_eq_true]
  exact exists_congr fun m => and_congr_right fun hm => by rw [hliteral m hm]

/-! ### What the pass does -/

/-- What becomes of an operator: it is spaced if it is found outside of literals. -/
def spacing (isIn : Nat → Bool) (m : Match) : Text :=
  if isIn m.start.pos then m.text else " " ++ m.group 1 ++ " "

/-- In a text that is structured by brackets the operators are spaced. -/
theorem spaceOperators_eq {t : Text} (h : isBracketStructured t = true) :
    spaceOperators t = spacedOperator.replace (spacing (isCovered t)) t := if_pos h

/-- Only what stands right behind the operator matters of what comes after it. -/
theorem IsOperation.congr {s sign s' r r' : Text} (h : IsOperation s sign s' r)
    (hr : r.head? = r'.head?) : IsOperation s sign s' r' :=
  ⟨h.left, h.sign_mem, h.right, hr ▸ h.behind⟩

/-- An operator is made of its sign and of white space. -/
theorem IsOperation.nonBlank_eq {s sign s' r : Text} (h : IsOperation s sign s' r) :
    nonBlank (s ++ (sign ++ s')) = nonBlank sign :=
  nonBlank_between (all_isBlank_of_isIndent h.left) (all_isBlank_of_isIndent h.right) sign

/-- An operator with the spaces around it is made of spaces, tabs and characters of signs. -/
theorem IsOperation.isIndent_or_isSign {s sign s' r : Text} (h : IsOperation s sign s' r) :
    ∀ c ∈ s ++ (sign ++ s'), isIndent c = true ∨ isSign c = true := by
  intro c hc
  rw [List.mem_append, List.mem_append] at hc
  rcases hc with hc | hc | hc
  · exact .inl (List.all_eq_true.mp h.left c hc)
  · exact .inr (List.all_eq_true.mp h.sign_all c hc)
  · exact .inl (List.all_eq_true.mp h.right c hc)

/-- No character of an operator or the spaces around it ends an operand. -/
theorem IsOperation.not_endsOperand {s sign s' r : Text} (h : IsOperation s sign s' r) :
    ∀ c ∈ s ++ (sign ++ s'), endsOperand c = false := by
  intro c hc
  rcases h.isIndent_or_isSign c hc with hindent | hsign
  · exact (spec_of_isIndent hindent).2.1
  · exact (spec_of_isSign hsign).2.2.1

section Cuts

variable {isIn : Nat → Bool} {c : Cursor} {segments : List Segment}

variable (isIn) in
/-- An operator before and after the pass. -/
theorem exists_spacing {m : Match} (h : spacedOperator.matchAt? c = some m) :
    ∃ s s' s₁ s₁', IsOperation s (m.group 1) s' m.stop.after ∧
      IsOperation s₁ (m.group 1) s₁' m.stop.after ∧ c.Reads (s ++ (m.group 1 ++ s')) m.stop ∧
      spacing isIn m = s₁ ++ (m.group 1 ++ s₁') ∧
      (isIn c.pos = true ∨ s₁ = [' '] ∧ s₁' = [' ']) := by
  obtain ⟨rfl, -⟩ := takes_of_matchAt? h
  obtain ⟨-, s, s', hop, hreads⟩ := exists_isOperation h
  by_cases hin : isIn m.start.pos = true
  · refine ⟨s, s', s, s', hop, hop, hreads, ?_, .inl hin⟩
    rw [spacing, if_pos hin, Match.text_of_reads hreads]
  · refine ⟨s, s', [' '], [' '], hop, ⟨rfl, hop.sign_mem, rfl, hop.behind⟩, hreads, ?_,
      .inr ⟨rfl, rfl⟩⟩
    rw [spacing, if_neg hin, List.append_assoc]
    rfl

/-- Behind a stretch without operands no operator is found. -/
theorem follows_eq_false {c' : Cursor} {u : Text} (h : c.Reads u c') (hne : u ≠ [])
    (hu : ∀ a ∈ u, endsOperand a = false) : c'.follows endsOperand = false := by
  obtain ⟨v, a, rfl⟩ : ∃ v a, u = v ++ [a] := ⟨_, _, (List.dropLast_concat_getLast hne).symm⟩
  rw [h.follows]
  exact hu a (by simp)

/-- No operator is found where no operand has ended. -/
theorem not_matchAt?_of_follows (hc : c.follows endsOperand = false) {m : Match}
    (h : spacedOperator.matchAt? c = some m) : False := by
  rw [(exists_isOperation h).1] at hc
  cases hc

/-- Behind an operator no other one is found. -/
theorem follows_stop {m : Match} (h : spacedOperator.matchAt? c = some m) :
    m.stop.follows endsOperand = false := by
  obtain ⟨-, s, s', hop, hreads⟩ := exists_isOperation h
  refine follows_eq_false hreads (fun hnil => ?_) hop.not_endsOperand
  rw [List.append_eq_nil_iff, List.append_eq_nil_iff] at hnil
  exact hop.sign_ne_nil hnil.2.1

variable (isIn) in
/-- Where no operator is found the next character stays. -/
theorem head?_flatMap (h : Cuts spacedOperator c segments) (hc : c.follows endsOperand = false) :
    (segments.flatMap (Segment.rewrite (spacing isIn))).head? = c.after.head? := by
  cases h with
  | stop hend =>
    rw [hend]
    rfl
  | pass hread =>
    rw [hread.after_eq]
    rfl
  | hit hm => exact (not_matchAt?_of_follows hc hm).elim

/-- A stretch without operands stays as it is, if none stands in front of it either. -/
theorem exists_cuts_of_no_operand (h : Cuts spacedOperator c segments)
    (hc : c.follows endsOperand = false) {w r : Text} (hw : ∀ a ∈ w, endsOperand a = false)
    (heq : segments.flatMap (Segment.rewrite (spacing isIn)) = w ++ r) :
    ∃ c', c.Reads w c' ∧ r.head? = c'.after.head? := by
  induction w generalizing c segments with
  | nil =>
    rw [List.nil_append] at heq
    exact ⟨c, .refl c, heq ▸ head?_flatMap isIn h hc⟩
  | cons a w ih =>
    cases h with
    | stop => cases heq
    | @pass _ c₁ b g rest hread _ hrest =>
      obtain ⟨rfl, heq'⟩ := List.cons.inj heq
      have hb := follows_eq_false hread (List.cons_ne_nil b []) (by simpa using hw b (by simp))
      obtain ⟨c', hreads, hhead⟩ := ih hrest hb (fun d hd => hw d (List.mem_cons_of_mem b hd)) heq'
      exact ⟨c', hread.cons hreads, hhead⟩
    | hit hm => exact (not_matchAt?_of_follows hc hm).elim

/-- A character that belongs to no operator stays, and with it the place behind it. -/
theorem exists_cuts_behind_kept (h : Cuts spacedOperator c segments) {v r : Text} {z : Char}
    (hz : isIndent z = false ∧ isSign z = false)
    (heq : segments.flatMap (Segment.rewrite (spacing isIn)) = v ++ z :: r) :
    ∃ v' c' segments', c.Reads (v' ++ [z]) c' ∧ Cuts spacedOperator c' segments' ∧
      segments'.flatMap (Segment.rewrite (spacing isIn)) = r ∧ nonBlank v = nonBlank v' := by
  induction h generalizing v with
  | stop =>
    rw [show ([Segment.gap []].flatMap (Segment.rewrite (spacing isIn))) = [] from rfl] at heq
    simp at heq
  | @pass c c₁ a g rest hread _ hrest ih =>
    cases v with
    | nil =>
      obtain ⟨rfl, heq'⟩ := List.cons.inj heq
      exact ⟨[], c₁, _, hread, hrest, heq', rfl⟩
    | cons b v =>
      obtain ⟨rfl, heq'⟩ := List.cons.inj heq
      obtain ⟨v', c', segments', hreads, hcuts, hr, hv⟩ := ih heq'
      refine ⟨a :: v', c', segments', hread.cons hreads, hcuts, hr, ?_⟩
      rw [show nonBlank (a :: v) = nonBlank [a] ++ nonBlank v from nonBlank_append [a] v, hv]
      exact (nonBlank_append [a] v').symm
  | @hit c m rest hm hrest ih =>
    obtain ⟨s, s', s₁, s₁', hop, hop₁, hreads, hspacing, -⟩ := exists_spacing isIn hm
    have heq' : spacing isIn m ++ rest.flatMap (Segment.rewrite (spacing isIn)) = v ++ z :: r := heq
    rw [hspacing] at heq'
    -- The character stands behind the operator: all that the operator consists of is something
    -- else.
    have hbehind {w : Text} (hv : v = s₁ ++ (m.group 1 ++ s₁') ++ w)
        (hw : rest.flatMap (Segment.rewrite (spacing isIn)) = w ++ z :: r) :
        ∃ v' c' segments', c.Reads (v' ++ [z]) c' ∧ Cuts spacedOperator c' segments' ∧
          segments'.flatMap (Segment.rewrite (spacing isIn)) = r ∧ nonBlank v = nonBlank v' := by
      obtain ⟨v', c', segments', hreads', hcuts, hr, hw'⟩ := ih hw
      refine ⟨s ++ (m.group 1 ++ s') ++ v', c', segments', ?_, hcuts, hr, ?_⟩
      · rw [List.append_assoc]
        exact hreads.trans hreads'
      · rw [hv, nonBlank_append (s₁ ++ _), hop₁.nonBlank_eq, nonBlank_append (s ++ _) v',
          hop.nonBlank_eq, hw']
    have hnone : z ∉ s₁ ++ (m.group 1 ++ s₁') := by
      intro hmem
      rcases hop₁.isIndent_or_isSign z hmem with hindent | hsign
      · rw [hz.1] at hindent
        cases hindent
      · rw [hz.2] at hsign
        cases hsign
    obtain ⟨w, hv, hw⟩ := exists_of_append_eq hnone heq'
    exact hbehind hv hw

/-- The character in front of a cursor; a line feed where there is none. -/
def prevChar (c : Cursor) : Char := c.before.head?.getD '\n'

/-- The character in front of the cursor is the last one that was read. -/
theorem prevChar_of_reads {c' : Cursor} {u : Text} {a : Char} (h : c.Reads (u ++ [a]) c') :
    prevChar c' = a := by
  rw [prevChar, h.before_eq, List.reverse_append]
  rfl

/-- Behind an operand the character in front of the cursor ends that operand. -/
theorem endsOperand_prevChar (h : c.follows endsOperand = true) :
    endsOperand (prevChar c) = true := by
  obtain ⟨x, hx, hends⟩ := (Option.any_eq_true _ _).mp h
  rwa [prevChar, hx]

/-- White space may come and go between the end of an operand and a visible character. -/
theorem isLoose_of_endsOperand {x a : Char} (hx : endsOperand x = true) (ha : isBlank a = false) :
    IsLoose x a := by
  obtain ⟨-, -, hmarks, -⟩ := spec_of_endsOperand hx
  simp only [List.mem_cons, List.not_mem_nil, or_false, not_or] at hmarks
  exact ⟨hmarks.1, .inr ⟨ha, hmarks.2⟩⟩

/-- What an indentation is made of is white space on a line. -/
theorem all_isInline_of_isIndent {s : Text} (hs : s.all isIndent = true) :
    s.all isInline = true := by
  rw [List.all_eq_true] at hs ⊢
  intro a ha
  rw [isInline, isBlank_of_isIndent (hs a ha), Bool.true_and, bne_iff_ne]
  rintro rfl
  cases hs _ ha

/-- Two texts with the same visible character in front go on alike behind it. -/
theorem Respaced.of_head {prev y : Char} {r t' : Text} (h : Respaced prev (y :: r) t')
    (hhead : t'.head? = some y) (hy : isBlank y = false) :
    ∃ r', t' = y :: r' ∧ Respaced y r r' := by
  have hinline := isInline_eq_false (.inr hy)
  obtain ⟨u, r', rfl, hu, -, hrespaced⟩ := h.of_cons hinline
  cases u with
  | nil => exact ⟨r', rfl, hrespaced⟩
  | cons b u =>
    obtain rfl : b = y := Option.some.inj hhead
    rw [List.all_cons, hinline] at hu
    cases hu

/-- An operator between the end of an operand and a visible character may be spaced anew. -/
theorem IsOperation.respaced {s s' s₁ s₁' sign r r' t t' : Text} {x y : Char}
    (hop : IsOperation s sign s' t) (hop₁ : IsOperation s₁ sign s₁' t')
    (hx : endsOperand x = true) (hy : isBlank y = false) (h : Respaced y r r') :
    Respaced x (s ++ (sign ++ (s' ++ y :: r))) (s₁ ++ (sign ++ (s₁' ++ y :: r'))) := by
  have hright : Respaced '=' (s' ++ y :: r) (s₁' ++ y :: r') :=
    .blanks ⟨by decide, .inr ⟨hy, by decide, by decide⟩⟩ (all_isInline_of_isIndent hop.right)
      (all_isInline_of_isIndent hop₁.right) h
  have hleft := all_isInline_of_isIndent hop.left
  have hleft₁ := all_isInline_of_isIndent hop₁.left
  rcases hop.sign_eq with rfl | ⟨a, ha, rfl⟩
  · exact .blanks (isLoose_of_endsOperand hx rfl) hleft hleft₁ hright
  · exact .blanks (isLoose_of_endsOperand hx (spec_of_isSign ha).1) hleft hleft₁ (.keep hright)

/-- The pass changes white space where it may come and go. -/
theorem respaced_cuts (h : Cuts spacedOperator c segments) :
    Respaced (prevChar c) c.after (segments.flatMap (Segment.rewrite (spacing isIn))) := by
  induction h with
  | stop hend =>
    rw [hend]
    exact .nil _
  | @pass c c₁ a g rest hread _ _ ih =>
    rw [prevChar_of_reads (u := []) hread] at ih
    rw [hread.after_eq]
    exact .keep ih
  | @hit c m rest hm hrest ih =>
    obtain ⟨s, s', s₁, s₁', hop, hop₁, hreads, hspacing, -⟩ := exists_spacing isIn hm
    -- The operator stands between two operands. The second one begins with `y`.
    have hx := endsOperand_prevChar (exists_isOperation hm).1
    obtain ⟨y, hy, hoperand⟩ := (Option.any_eq_true _ _).mp hop.behind
    obtain ⟨r, hafter⟩ := List.head?_eq_some_iff.mp hy
    have hblank := isBlank_of_beginsOperand hoperand
    -- The next match begins behind `y`, so the new text goes on with `y` at once.
    have hhead := head?_flatMap isIn hrest (follows_stop hm)
    rw [hafter] at ih hhead
    obtain ⟨r', hr', hrespaced⟩ := ih.of_head hhead hblank
    show Respaced _ _ (spacing isIn m ++ rest.flatMap (Segment.rewrite (spacing isIn)))
    rw [hreads.after_eq, hafter, hspacing, hr', List.append_assoc, List.append_assoc,
      List.append_assoc, List.append_assoc]
    exact hop.respaced hop₁ hx hblank hrespaced

end Cuts

/-- The literals of a text stay when its operators are spaced. -/
theorem respaced_spaceOperators (t : Text) : Respaced '\n' t (spaceOperators t) := by
  by_cases h : isBracketStructured t = true
  · rw [spaceOperators_eq h]
    exact respaced_cuts (cuts_segments (isSolid_spec rfl) t)
  · rw [spaceOperators, if_neg h]
    exact .refl _ t

/-! ### What the pass leaves -/

/-- Whether there is one space on both sides of each operator outside of literals. -/
def IsEven (t : Text) : Prop :=
  ∀ v x s sign s' r, t = v ++ x :: (s ++ (sign ++ (s' ++ r))) → endsOperand x = true →
    IsOperation s sign s' r → isCovered t v.length = false → s = [' '] ∧ s' = [' ']

/-- The pass leaves a text that is spaced evenly. -/
theorem isEven_spaceOperators {t : Text} (h : isBracketStructured t = true) :
    IsEven (spaceOperators t) := by
  intro v x s sign s' r ht hx hop hout
  have hrespaced := respaced_spaceOperators t
  obtain ⟨hblank, hsign, -, -⟩ := spec_of_endsOperand hx
  have hindent : isIndent x = false := by
    rw [← Bool.not_eq_true]
    intro hindent
    rw [isBlank_of_isIndent hindent] at hblank
    cases hblank
  rw [spaceOperators_eq h] at ht
  obtain ⟨v', c, segments, hreads, hcuts, hr, hv⟩ :=
    exists_cuts_behind_kept (cuts_segments (isSolid_spec rfl) t) ⟨hindent, hsign⟩ ht
  have hafter : t = v' ++ x :: c.after := by
    simpa [Cursor.start] using hreads.after_eq
  have hout' : isCovered t v'.length = false := by
    rw [hrespaced.isCovered_eq hblank hafter ((spaceOperators_eq h).trans ht) hv.symm]
    exact hout
  have hfollows : c.follows endsOperand = true := by
    rw [hreads.follows, hx]
  cases hcuts with
  | stop =>
    obtain ⟨b, w, hw, -⟩ := hop.exists_cons
    rw [hw] at hr
    cases hr
  | @pass _ c₁ a g rest hread hnone hrest =>
    -- Up to the operand behind the operator nothing has changed, so it would have been found.
    obtain ⟨b, w, hw⟩ : ∃ b w, s ++ (sign ++ s') = b :: w := by
      refine List.exists_cons_of_ne_nil (fun hnil => ?_)
      rw [List.append_eq_nil_iff, List.append_eq_nil_iff] at hnil
      exact hop.sign_ne_nil hnil.2.1
    have hall := hop.not_endsOperand
    rw [← List.append_assoc sign, ← List.append_assoc s, hw] at hr
    rw [hw] at hall
    obtain ⟨rfl, hr'⟩ := List.cons.inj hr
    have hb := follows_eq_false hread (List.cons_ne_nil a []) (by simpa using hall a (by simp))
    obtain ⟨c', hreads', hhead⟩ :=
      exists_cuts_of_no_operand hrest hb (fun d hd => hall d (List.mem_cons_of_mem a hd)) hr'
    have hafter' := (hread.cons hreads').after_eq
    rw [← hw, List.append_assoc, List.append_assoc] at hafter'
    obtain ⟨m, hm⟩ := exists_matchAt? hfollows (hop.congr hhead) hafter'
    rw [hm] at hnone
    cases hnone
  | @hit _ m rest hm hrest =>
    obtain ⟨s₀, s₀', s₁, s₁', hop₀, hop₁, hreads', hspacing, hkind⟩ :=
      exists_spacing (isCovered t) hm
    have hr' : spacing (isCovered t) m ++ rest.flatMap (Segment.rewrite (spacing (isCovered t))) =
        s ++ (sign ++ (s' ++ r)) := hr
    rw [hspacing, List.append_assoc, List.append_assoc] at hr'
    have hhead := head?_flatMap (isCovered t) hrest (follows_stop hm)
    -- The operator in question is the one that this match has written.
    obtain ⟨rfl, -, rfl, -⟩ := (hop₁.congr hhead.symm).unique hop hr'
    refine hkind.resolve_left (fun hin => ?_)
    rw [hreads'.after_eq, List.append_assoc, List.append_assoc] at hafter
    have hpos : c.pos = v'.length + 1 := by
      rw [hreads.pos_eq, Cursor.start, List.length_append, List.length_singleton, Nat.zero_add]
    rw [hpos, isCovered_behind_operand hx hop₀ hafter, hout'] at hin
    cases hin

/-- A text that is spaced evenly stays as it is. -/
theorem IsEven.spaceOperators_eq {t : Text} (h : IsEven t) : spaceOperators t = t := by
  by_cases hstructured : isBracketStructured t = true
  · rw [Generic.spaceOperators_eq hstructured]
    refine replace_eq_self (isSolid_spec rfl) (fun v m hm => ?_)
    obtain ⟨hfollows, s, s', hop, hreads⟩ := exists_isOperation hm.2
    rw [spacing]
    split
    · rfl
    · rename_i hin
      -- An operator that is spaced stands behind an operand, so there is a character in front of
      -- it.
      obtain ⟨v, x, rfl⟩ : ∃ v₀ x, v = v₀ ++ [x] := by
        rcases List.eq_nil_or_concat v with rfl | ⟨v₀, x, rfl⟩
        · rw [Cursor.follows, hm.1.before_eq] at hfollows
          cases hfollows
        · exact ⟨v₀, x, List.concat_eq_append⟩
      rw [hm.1.follows] at hfollows
      have ht : t = v ++ x :: (s ++ (m.group 1 ++ (s' ++ m.stop.after))) := by
        have hafter := hm.1.after_eq
        rw [hreads.after_eq] at hafter
        simpa [Cursor.start] using hafter
      have hpos : m.start.pos = v.length + 1 := by
        rw [hm.1.pos_eq, Cursor.start, List.length_append, List.length_singleton, Nat.zero_add]
      -- No literal covers the operator, so the text is even there.
      rw [hpos, isCovered_behind_operand hfollows hop ht, Bool.not_eq_true] at hin
      obtain ⟨hs, hs'⟩ := h v x s (m.group 1) s' m.stop.after ht hfollows hop hin
      rw [Match.text_of_reads hreads, hs, hs', List.append_assoc]
      rfl
  · rw [spaceOperators, if_neg hstructured]

end CodeTidy.Generic
