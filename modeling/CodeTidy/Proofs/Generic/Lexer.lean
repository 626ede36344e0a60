import CodeTidy.Literal
import CodeTidy.Proofs.Pattern.Shapes
import CodeTidy.Proofs.Text.Lines

/-!
# `CodeTidy.Proofs.Generic.Lexer`: strings and comments, read character by character

The strings and comments of a program are the matches of a pattern.
`Generic.literal?` reads the same literals by recursion on the text. It looks
at nothing in front of them, so two texts that go on in the same way hold the
same literals from there on. The theorems:

* `matchAt?_literal`: a literal is matched at a place if and only if
  `literal?` reads it there.
* `literal?_eq_some_iff`: the ways in which a literal can be read, each of
  which is a case of `IsLiteral`.
* `IsLiteral.ends`: a literal ends with its mark or, if it is a line comment,
  where its line ends.
-/

set_option autoImplicit false

namespace CodeTidy.Generic

open Pattern

/-- The rest of a string, up to its closing quote. A character behind a backslash is passed, others
only if they are not in `stops`. -/
def quotedRest? (stops : Text) (quote : Char) : (isEscaped : Bool) → Text → Option Text
  | _, [] => none
  | true, a :: r => (quotedRest? stops quote false r).map (a :: ·)
  | false, a :: r =>
    if a == '\\' then (quotedRest? stops quote true r).map (a :: ·)
    else if a == quote then some [quote]
    else if stops.contains a then none
    else (quotedRest? stops quote false r).map (a :: ·)

/-- The rest of a block comment, up to its closing mark. -/
def blockRest? : Text → Option Text
  | [] => none
  | a :: r =>
    if a == '*' && r.head? == some '/' then some ['*', '/'] else (blockRest? r).map (a :: ·)

/-- The literal that the text begins with. -/
def literal? : Text → Option Text
  | [] => none
  | a :: r =>
    if a == '/' && r.head? == some '*' then (blockRest? r.tail).map (fun u => '/' :: '*' :: u)
    else if a == '/' && r.head? == some '/' then
      some ('/' :: '/' :: r.tail.takeWhile (· != '\n'))
    else if a == '"' then (quotedRest? ['"', '\n'] '"' false r).map ('"' :: ·)
    else if a == '\'' then (quotedRest? ['\'', '\n'] '\'' false r).map ('\'' :: ·)
    else if a == '`' then (quotedRest? ['`'] '`' false r).map ('`' :: ·)
    else none

/-! ### Strings -/

section Strings

variable {stops : Text} {quote : Char}

/-- A backslash escapes what comes next. -/
theorem quotedRest?_escape (r : Text) :
    quotedRest? stops quote false ('\\' :: r) = (quotedRest? stops quote true r).map ('\\' :: ·) :=
  rfl

/-- The quote closes the string. -/
theorem quotedRest?_quote (hquote : quote ≠ '\\') (r : Text) :
    quotedRest? stops quote false (quote :: r) = some [quote] := by
  rw [quotedRest?, beq_false_of_ne hquote, if_neg Bool.false_ne_true,
    if_pos (beq_self_eq_true quote)]

/-- A character that stops the string leaves it unclosed. -/
theorem quotedRest?_stop {a : Char} (ha : a ≠ '\\') (ha' : a ≠ quote) (hstop : a ∈ stops)
    (r : Text) : quotedRest? stops quote false (a :: r) = none := by
  rw [quotedRest?, beq_false_of_ne ha, if_neg Bool.false_ne_true, beq_false_of_ne ha',
    if_neg Bool.false_ne_true, if_pos (List.contains_iff_mem.mpr hstop)]

/-- Any other character belongs to the string. -/
theorem quotedRest?_plain {a : Char} (ha : a ≠ '\\') (ha' : a ≠ quote) (hplain : a ∉ stops)
    (r : Text) :
    quotedRest? stops quote false (a :: r) = (quotedRest? stops quote false r).map (a :: ·) := by
  rw [quotedRest?, beq_false_of_ne ha, if_neg Bool.false_ne_true, beq_false_of_ne ha',
    if_neg Bool.false_ne_true, if_neg (fun h => hplain (List.contains_iff_mem.mp h))]

/-- The first way to match a round of the body of a string. -/
def quotedStep (stops : Text) (c : Cursor) (caps : Captures) : Option (Cursor × Captures) :=
  run? (LiteralGrammar.unit stops) c caps first

/-- The body of a string takes a character that neither escapes nor stops it. -/
theorem quotedStep_plain {a : Char} (ha : a ≠ '\\') (hplain : a ∉ stops) (before r : Text)
    (pos : Nat) (caps : Captures) :
    quotedStep stops ⟨before, a :: r, pos⟩ caps = some (⟨a :: before, r, pos + 1⟩, caps) := by
  simp [quotedStep, LiteralGrammar.unit, run?, Cursor.next?, CharSet.except, ha, hplain, first]

/-- The body of a string takes no character that stops it. -/
theorem quotedStep_stop {a : Char} (ha : a ≠ '\\') (hstop : a ∈ stops) (before r : Text)
    (pos : Nat) (caps : Captures) : quotedStep stops ⟨before, a :: r, pos⟩ caps = none := by
  simp [quotedStep, LiteralGrammar.unit, run?, Cursor.next?, CharSet.except, ha, hstop]

/-- The body of a string takes a backslash with the character behind it. -/
theorem quotedStep_escape (before : Text) (b : Char) (r : Text) (pos : Nat) (caps : Captures) :
    quotedStep stops ⟨before, '\\' :: b :: r, pos⟩ caps =
      some (⟨b :: '\\' :: before, r, pos + 2⟩, caps) := by
  simp [quotedStep, LiteralGrammar.unit, run?, Cursor.next?, CharSet.except, CharSet.any, first]

/-- The body of a string takes no backslash at the end of the text. -/
theorem quotedStep_lone (before : Text) (pos : Nat) (caps : Captures) :
    quotedStep stops ⟨before, ['\\'], pos⟩ caps = none := by
  simp [quotedStep, LiteralGrammar.unit, run?, Cursor.next?, CharSet.except]

variable {α : Type} (k : Cursor → Captures → Option α)

/-- The ends of the rounds of a string are tried from the last one on. Only the last one can have
the closing quote behind it. -/
theorem findSome?_closing (hk : ∀ c caps, (k c caps).isSome = true) (hquote : quote ≠ '\\')
    (hstop : quote ∈ stops) (after left before : Text) (pos : Nat) (caps : Captures)
    (seen : List (Cursor × Captures)) (hleft : after.length ≤ left.length)
    (hseen : seen.findSome? (closing k quote) = none) :
    (roundEnds (quotedStep stops) left ⟨before, after, pos⟩ caps seen).findSome?
        (closing k quote) =
      (quotedRest? stops quote false after).bind
        (fun u => k (Cursor.behind ⟨before, after, pos⟩ u) caps) := by
  -- An escape takes two characters at once, so the induction is on the length that is left.
  generalize hn : after.length = n
  induction n using Nat.strongRecOn generalizing after left before pos seen with
  | ind n ih =>
    obtain _ | ⟨a, r⟩ := after
    · rw [roundEnds_stop rfl, List.findSome?_cons, hseen]
      rfl
    · obtain _ | ⟨b, left⟩ := left
      · cases hleft
      have hleft' : r.length ≤ left.length := Nat.le_of_succ_le_succ hleft
      have hother (ha : a ≠ quote) :
          ((⟨before, a :: r, pos⟩, caps) :: seen).findSome? (closing k quote) = none := by
        rw [List.findSome?_cons, closing_cons, beq_false_of_ne ha, if_neg Bool.false_ne_true]
        exact hseen
      by_cases ha : a = '\\'
      · subst ha
        obtain _ | ⟨b', r⟩ := r
        · rw [roundEnds_stop (quotedStep_lone before pos caps), hother hquote.symm]
          rfl
        · rw [roundEnds_more (quotedStep_escape before b' r pos caps) (by dsimp only; omega),
            ih r.length (by rw [← hn]; simp only [List.length_cons]; omega) r left _ _ _
              (Nat.le_of_succ_le hleft') (hother hquote.symm) rfl, quotedRest?_escape, quotedRest?]
          cases quotedRest? stops quote false r <;>
            simp [Cursor.behind, Nat.add_assoc, Nat.add_comm 2]
      · by_cases hclose : a = quote
        · -- No round passes over the quote, so this end is the last one and is tried first.
          subst hclose
          obtain ⟨x, hx⟩ := Option.isSome_iff_exists.mp (hk ⟨a :: before, r, pos + 1⟩ caps)
          rw [roundEnds_stop (quotedStep_stop ha hstop before r pos caps), List.findSome?_cons,
            closing_cons, quotedRest?_quote hquote]
          simp [Cursor.behind, hx]
        · by_cases hplain : a ∈ stops
          · rw [roundEnds_stop (quotedStep_stop ha hplain before r pos caps), hother hclose,
              quotedRest?_stop ha hclose hplain]
            rfl
          · rw [roundEnds_more (quotedStep_plain ha hplain before r pos caps)
                (by dsimp only; omega),
              ih r.length (by rw [← hn]; simp only [List.length_cons]; omega) r left _ _ _ hleft'
                (hother hclose) rfl, quotedRest?_plain ha hclose hplain]
            cases quotedRest? stops quote false r <;>
              simp [Cursor.behind, Nat.add_assoc, Nat.add_comm 1]

/-- What the pattern for the rest of a string matches is `quotedRest?`: the rounds of its body stop
at the first quote that is not escaped, as no earlier place closes the string. -/
theorem run?_quoted (hk : ∀ c caps, (k c caps).isSome = true) (hquote : quote ≠ '\\')
    (hstop : quote ∈ stops) (c : Cursor) (caps : Captures) :
    run? (.both (.rounds .most (LiteralGrammar.unit stops)) (text [quote])) c caps k =
      (quotedRest? stops quote false c.after).bind (fun u => k (c.behind u) caps) :=
  findSome?_closing k hk hquote hstop c.after c.after c.before c.pos caps [] (Nat.le_refl _) rfl

end Strings

/-! ### Comments -/

section Comments

variable {α : Type} (k : Cursor → Captures → Option α)

/-- A block comment ends where it can for the first time. -/
theorem run?_block (hk : ∀ c caps, (k c caps).isSome = true) (c : Cursor) (caps : Captures) :
    run? (.both (few CharSet.any) (text ['*', '/'])) c caps k =
      (blockRest? c.after).bind (fun u => k (c.behind u) caps) := by
  obtain ⟨before, after, pos⟩ := c
  show runLeast CharSet.any (fun c' => run? (text ['*', '/']) c' caps k) 0 before pos after = _
  induction after generalizing before pos with
  | nil => rfl
  | cons a r ih =>
    have hmark : run? (text ['*', '/']) ⟨before, a :: r, pos⟩ caps k =
        if a == '*' && r.head? == some '/' then k ⟨'/' :: a :: before, r.tail, pos + 2⟩ caps
        else none := run?_pair k '*' '/' .empty before a r pos caps
    rw [runLeast, hmark, blockRest?]
    -- The comment ends here, since what follows the mark succeeds always, or it goes on by one
    -- character.
    by_cases hclose : (a == '*' && r.head? == some '/') = true
    · rw [if_pos hclose, if_pos hclose, Option.bind_some]
      obtain ⟨x, hx⟩ := Option.isSome_iff_exists.mp (hk ⟨'/' :: a :: before, r.tail, pos + 2⟩ caps)
      rw [Bool.and_eq_true, beq_iff_eq, beq_iff_eq] at hclose
      obtain ⟨rfl, hhead⟩ := hclose
      obtain _ | ⟨b, r⟩ := r
      · cases hhead
      · cases hhead
        rw [hx]
        exact hx.symm
    · rw [if_neg hclose, if_neg hclose]
      show runLeast CharSet.any _ 0 (a :: before) (pos + 1) r = _
      rw [ih]
      cases blockRest? r <;> simp [Cursor.behind, Nat.add_assoc, Nat.add_comm 1]

end Comments

/-! ### All literals -/

/-- The literal that the pattern matches at a cursor is the one that is read there. -/
theorem matchAt?_literal (c : Cursor) :
    LiteralGrammar.cStyle.pattern.matchAt? c =
      (literal? c.after).map (fun u => ⟨c, c.behind u, []⟩) := by
  let k : Cursor → Captures → Option Match := fun c' groups => some ⟨c, c', groups⟩
  have hk : ∀ c caps, (k c caps).isSome = true := fun c caps => rfl
  have hpattern : LiteralGrammar.cStyle.pattern.matchAt? c =
      run? (.either (.both (text ['/', '*']) (.both (few CharSet.any) (text ['*', '/'])))
        (.either (.both (text ['/', '/']) restOfLine)
          (.either (.both (text ['"'])
              (.both (.rounds .most (LiteralGrammar.unit ['"', '\n'])) (text ['"'])))
            (.either (.both (text ['\''])
                (.both (.rounds .most (LiteralGrammar.unit ['\'', '\n'])) (text ['\''])))
              (.both (text ['`'])
                (.both (.rounds .most (LiteralGrammar.unit ['`'])) (text ['`']))))))) c [] k := rfl
  rw [hpattern]
  obtain ⟨before, after, pos⟩ := c
  cases after with
  | nil => rfl
  | cons a r =>
    -- The alternatives begin with different characters, so the first one says which it is.
    rw [run?_either, run?_either, run?_either, run?_either, run?_pair, run?_pair, run?_opening,
      run?_opening, run?_opening, literal?]
    have hstring (stops : Text) (ha : a ≠ '\\') (hstop : a ∈ stops) :
        run? (.both (.rounds .most (LiteralGrammar.unit stops)) (text [a]))
            ⟨a :: before, r, pos + 1⟩ [] k =
          ((quotedRest? stops a false r).map (a :: ·)).map
            (fun u => ⟨⟨before, a :: r, pos⟩, Cursor.behind ⟨before, a :: r, pos⟩ u, []⟩) := by
      rw [run?_quoted k hk ha hstop]
      cases quotedRest? stops a false r <;>
        simp [k, Cursor.behind, Nat.add_assoc, Nat.add_comm 1]
    by_cases hslash : a = '/'
    · subst hslash
      obtain _ | ⟨b, r⟩ := r
      · rfl
      · by_cases hblock : b = '*'
        · subst hblock
          have hrun := run?_block k hk ⟨'*' :: '/' :: before, r, pos + 2⟩ []
          simp [hrun]
          cases blockRest? r <;> simp [k, Cursor.behind, Nat.add_assoc, Nat.add_comm 2]
        · by_cases hline : b = '/'
          · subst hline
            have hrun := run?_restOfLine k hk ⟨'/' :: '/' :: before, r, pos + 2⟩ []
            simp [hrun, k, Cursor.behind, Nat.add_assoc, Nat.add_comm 2]
          · simp [hblock, hline]
    · by_cases hdouble : a = '"'
      · subst hdouble
        simpa using hstring ['"', '\n'] (by decide) (by decide)
      · by_cases hsingle : a = '\''
        · subst hsingle
          simpa using hstring ['\'', '\n'] (by decide) (by decide)
        · by_cases hback : a = '`'
          · subst hback
            simpa using hstring ['`'] (by decide) (by decide)
          · simp [hslash, hdouble, hsingle, hback]

/-- The quotes, each with the characters that its strings do not hold unless they are escaped. -/
def quotes : List (Char × Text) := [('"', ['"', '\n']), ('\'', ['\'', '\n']), ('`', ['`'])]

/-- A quote is among what stops its own string, and is no backslash, slash, white space or word
character; what stops strings is a line feed or visible. -/
theorem quotes_spec : ∀ q ∈ quotes, q.1 ∈ q.2 ∧ q.1 ≠ '\\' ∧ q.1 ≠ '/' ∧ Text.isBlank q.1 = false ∧
    Text.isWord q.1 = false ∧ ∀ c ∈ q.2, c = '\n' ∨ Text.isBlank c = false := by
  have hstops : ∀ q ∈ quotes, q.2.all (fun c => c == '\n' || !Text.isBlank c) = true := by decide
  have hmark : ∀ q ∈ quotes, q.1 ∈ q.2 ∧ q.1 ≠ '\\' ∧ q.1 ≠ '/' ∧ Text.isBlank q.1 = false ∧
      Text.isWord q.1 = false := by decide
  intro q hq
  obtain ⟨hmem, hslash, hcomment, hblank, hword⟩ := hmark q hq
  refine ⟨hmem, hslash, hcomment, hblank, hword, fun c hc => ?_⟩
  simpa using List.all_eq_true.mp (hstops q hq) c hc

/-- The literals, each by the way it is read. -/
inductive IsLiteral : Text → Text → Prop where
  | block {r u : Text} (hrest : blockRest? r = some u) :
      IsLiteral ('/' :: '*' :: r) ('/' :: '*' :: u)
  | line (r : Text) : IsLiteral ('/' :: '/' :: r) ('/' :: '/' :: r.takeWhile (· != '\n'))
  | string {quote : Char} {stops r u : Text} (hquote : (quote, stops) ∈ quotes)
      (hrest : quotedRest? stops quote false r = some u) : IsLiteral (quote :: r) (quote :: u)

/-- The literal that is found is the one that the text begins with, and it is found. -/
theorem literal?_eq_some_iff {t u : Text} : literal? t = some u ↔ IsLiteral t u := by
  constructor
  · intro h
    obtain _ | ⟨a, r⟩ := t
    · cases h
    -- The three kinds of string differ in their quote only.
    have hstring {stops : Text} (hquote : (a, stops) ∈ quotes)
        (h : (quotedRest? stops a false r).map (a :: ·) = some u) : IsLiteral (a :: r) u := by
      obtain ⟨w, hw, rfl⟩ := Option.map_eq_some_iff.mp h
      exact .string hquote hw
    rw [literal?] at h
    split at h
    · rename_i hblock
      rw [Bool.and_eq_true, beq_iff_eq, beq_iff_eq] at hblock
      obtain ⟨rfl, hhead⟩ := hblock
      obtain _ | ⟨b, r⟩ := r
      · cases hhead
      · cases hhead
        obtain ⟨w, hw, rfl⟩ := Option.map_eq_some_iff.mp h
        exact .block hw
    · split at h
      · rename_i hline
        rw [Bool.and_eq_true, beq_iff_eq, beq_iff_eq] at hline
        obtain ⟨rfl, hhead⟩ := hline
        obtain _ | ⟨b, r⟩ := r
        · cases hhead
        · cases hhead
          cases h
          exact .line r
      · split at h
        · rename_i hdouble
          rw [beq_iff_eq] at hdouble
          subst hdouble
          exact hstring (by decide) h
        · split at h
          · rename_i hsingle
            rw [beq_iff_eq] at hsingle
            subst hsingle
            exact hstring (by decide) h
          · split at h
            · rename_i hback
              rw [beq_iff_eq] at hback
              subst hback
              exact hstring (by decide) h
            · cases h
  · intro h
    cases h with
    | block hrest => simp [literal?, hrest]
    | line r => simp [literal?]
    | string hquote hrest =>
      simp only [quotes, List.mem_cons, Prod.mk.injEq, List.not_mem_nil, or_false] at hquote
      rcases hquote with ⟨rfl, rfl⟩ | ⟨rfl, rfl⟩ | ⟨rfl, rfl⟩
      · simp [literal?, hrest]
      · simp [literal?, hrest]
      · simp [literal?, hrest]

/-- The rest of a string is a start of the text and ends with the quote. -/
theorem exists_of_quotedRest? {stops : Text} {quote : Char} {isEscaped : Bool} {t u : Text}
    (h : quotedRest? stops quote isEscaped t = some u) : u <+: t ∧ ∃ v, u = v ++ [quote] := by
  induction t generalizing isEscaped u with
  | nil => cases isEscaped <;> cases h
  | cons a r ih =>
    -- In all cases but the closing quote the string goes on behind the character.
    have hmore {isEscaped : Bool}
        (h : (quotedRest? stops quote isEscaped r).map (a :: ·) = some u) :
        u <+: a :: r ∧ ∃ v, u = v ++ [quote] := by
      obtain ⟨w, hw, rfl⟩ := Option.map_eq_some_iff.mp h
      obtain ⟨hstart, v, rfl⟩ := ih hw
      exact ⟨List.cons_prefix_cons.mpr ⟨rfl, hstart⟩, a :: v, rfl⟩
    cases isEscaped with
    | true => exact hmore h
    | false =>
      rw [quotedRest?] at h
      split at h
      · exact hmore h
      · split at h
        · rename_i hquote
          rw [beq_iff_eq] at hquote
          cases h
          exact ⟨⟨r, by rw [hquote]; rfl⟩, [], rfl⟩
        · split at h
          · cases h
          · exact hmore h

/-- The rest of a block comment is a start of the text and ends with the closing mark. -/
theorem exists_of_blockRest? {t u : Text} (h : blockRest? t = some u) :
    u <+: t ∧ ∃ v, u = v ++ ['*', '/'] := by
  induction t generalizing u with
  | nil => cases h
  | cons a r ih =>
    rw [blockRest?] at h
    split at h
    · rename_i hclose
      rw [Bool.and_eq_true, beq_iff_eq, beq_iff_eq] at hclose
      obtain ⟨rfl, hhead⟩ := hclose
      obtain _ | ⟨b, r⟩ := r
      · cases hhead
      · cases hhead
        cases h
        exact ⟨⟨r, rfl⟩, [], rfl⟩
    · obtain ⟨w, hw, rfl⟩ := Option.map_eq_some_iff.mp h
      obtain ⟨hstart, v, rfl⟩ := ih hw
      exact ⟨List.cons_prefix_cons.mpr ⟨rfl, hstart⟩, a :: v, rfl⟩

/-- The literal is a start of the text. -/
theorem IsLiteral.begins {t u : Text} (h : IsLiteral t u) : u <+: t := by
  cases h with
  | block hrest => simpa using (exists_of_blockRest? hrest).1
  | line r => simpa using List.takeWhile_prefix (· != '\n')
  | string hquote hrest => simpa using (exists_of_quotedRest? hrest).1

/-- A literal holds one character at least, the first one of the text. -/
theorem IsLiteral.exists_cons {t u : Text} (h : IsLiteral t u) :
    ∃ a r w, t = a :: r ∧ u = a :: w := by
  cases h <;> exact ⟨_, _, _, rfl, rfl⟩

/-- What a literal begins with. -/
theorem IsLiteral.head {a : Char} {r u : Text} (h : IsLiteral (a :: r) u) :
    a = '/' ∧ (r.head? = some '*' ∨ r.head? = some '/') ∨ ∃ stops, (a, stops) ∈ quotes := by
  cases h with
  | block => exact .inl ⟨rfl, .inl rfl⟩
  | line => exact .inl ⟨rfl, .inr rfl⟩
  | string hquote => exact .inr ⟨_, hquote⟩

/-- A literal ends with its mark or, if it is a line comment, where its line ends. -/
theorem IsLiteral.ends {t u : Text} (h : IsLiteral t u) :
    (∃ v a, u = v ++ [a] ∧ (a = '/' ∨ ∃ stops, (a, stops) ∈ quotes)) ∨
      (t.drop u.length).head?.all (· == '\n') = true := by
  cases h with
  | block hrest =>
    obtain ⟨-, v, rfl⟩ := exists_of_blockRest? hrest
    exact .inl ⟨'/' :: '*' :: (v ++ ['*']), '/', by simp, .inl rfl⟩
  | @string quote stops r u hquote hrest =>
    obtain ⟨-, v, rfl⟩ := exists_of_quotedRest? hrest
    exact .inl ⟨quote :: v, quote, rfl, .inr ⟨stops, hquote⟩⟩
  | line r =>
    right
    rw [List.length_cons, List.length_cons, List.drop_succ_cons, List.drop_succ_cons]
    exact Text.head?_drop_line r

end CodeTidy.Generic
