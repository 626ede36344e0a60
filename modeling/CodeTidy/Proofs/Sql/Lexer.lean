import CodeTidy.Proofs.Pattern.Shapes
import CodeTidy.Proofs.Text.Lines
import CodeTidy.Literal

/-!
# `CodeTidy.Proofs.Sql.Lexer`: the literals of a query, read character by character

The literals of a query are the matches of a pattern. `Sql.literal?` reads the
same literals by recursion on the text. It looks at nothing in front of them,
so two texts that go on in the same way hold the same literals from there on.
The theorems:

* `matchAt?_literal`: a literal is matched at a place if and only if
  `literal?` reads it there.
* `isLiteral_of_literal?`: the ways in which a literal can be read, each of
  which is a case of `IsLiteral`.
* `IsLiteral.ends`: a literal ends with its quote or, if it is a comment,
  where its line ends.
-/

set_option autoImplicit false

namespace CodeTidy.Sql

open Pattern

/-- The rest of a string, up to its closing quote. Two quotes in a row stand for one, unless no
closing quote comes after them: then the first of them closes the string. -/
def stringRest? : Text → Option Text
  | [] => none
  | '\'' :: '\'' :: r =>
    match stringRest? r with
    | some u => some ('\'' :: '\'' :: u)
    | none => some ['\'']
  | a :: r =>
    if a == '\'' then some ['\'']
    else match stringRest? r with
      | some u => some (a :: u)
      | none => none

/-- A character other than the quote belongs to the string. -/
theorem stringRest?_cons {a : Char} (ha : a ≠ '\'') (r : Text) :
    stringRest? (a :: r) =
      match stringRest? r with
      | some u => some (a :: u)
      | none => none := by
  rw [stringRest?]
  · rw [beq_false_of_ne ha, if_neg Bool.false_ne_true]
  · intro r' h
    exact absurd h ha

/-- A quote that no other follows closes the string. -/
theorem stringRest?_quote {r : Text} (h : ∀ r', r = '\'' :: r' → False) :
    stringRest? ('\'' :: r) = some ['\''] := by
  rw [stringRest?, if_pos (beq_self_eq_true _)]
  intro r' _ hr
  exact h r' hr

/-- What is no text with a quote in front does not begin with one. -/
theorem head?_ne_quote {r : Text} (h : ∀ r', r = '\'' :: r' → False) : r.head? ≠ some '\'' := by
  cases r with
  | nil => exact fun hhead => nomatch hhead
  | cons b r =>
    intro hhead
    rw [List.head?_cons, Option.some.injEq] at hhead
    exact h r (by rw [hhead])

/-- The rest of a quoted name, up to its closing quote. -/
def nameRest? (quote : Char) : Text → Option Text
  | [] => none
  | a :: r =>
    if a == quote then some [quote]
    else match nameRest? quote r with
      | some u => some (a :: u)
      | none => none

/-- A character other than the quote belongs to the name. -/
theorem nameRest?_cons {quote a : Char} (ha : a ≠ quote) (r : Text) :
    nameRest? quote (a :: r) = (nameRest? quote r).map (a :: ·) := by
  rw [nameRest?, beq_false_of_ne ha, if_neg Bool.false_ne_true]
  cases nameRest? quote r <;> rfl

/-- The literal that the text begins with. -/
def literal? : Text → Option Text
  | [] => none
  | a :: r =>
    if a == '\'' then (stringRest? r).map ('\'' :: ·)
    else if a == '"' then (nameRest? '"' r).map ('"' :: ·)
    else if a == '`' then (nameRest? '`' r).map ('`' :: ·)
    else if a == '-' && r.head? == some '-' then some (a :: r.takeWhile (· != '\n'))
    else none

/-! ### Strings -/

/-- The rest of a string is a start of the text and ends with a quote. -/
theorem stringRest?_spec {t u : Text} (h : stringRest? t = some u) :
    u <+: t ∧ ∃ v, u = v ++ ['\''] := by
  induction t using stringRest?.induct generalizing u with
  | case1 => cases h
  | case2 r w hw ih =>
    rw [stringRest?, hw] at h
    cases h
    obtain ⟨hstart, v, rfl⟩ := ih hw
    exact ⟨by simpa using hstart, '\'' :: '\'' :: v, rfl⟩
  | case3 r hr ih =>
    rw [stringRest?, hr] at h
    cases h
    exact ⟨by simp, [], rfl⟩
  | case4 a r hr ha =>
    rw [stringRest?.eq_3 a r hr, if_pos ha] at h
    cases h
    have hquote : a = '\'' := by simpa using ha
    subst hquote
    exact ⟨by simp, [], rfl⟩
  | case5 a r hr ha w hw ih =>
    rw [stringRest?_cons (by simpa using ha), hw] at h
    cases h
    obtain ⟨hstart, v, rfl⟩ := ih hw
    exact ⟨by simpa using hstart, a :: v, rfl⟩
  | case6 a r hr ha hw ih =>
    rw [stringRest?_cons (by simpa using ha), hw] at h
    cases h

/-- One round of the body of a string. -/
def stringUnit : Pattern := .either (.one (CharSet.except ['\''])) (text ['\'', '\''])

/-- The first way to match a round of the body of a string. -/
def stringStep (c : Cursor) (caps : Captures) : Option (Cursor × Captures) :=
  run? stringUnit c caps first

/-- The body of a string takes any character but the quote. -/
theorem stringStep_plain {a : Char} (ha : a ≠ '\'') (before r : Text) (pos : Nat)
    (caps : Captures) :
    stringStep ⟨before, a :: r, pos⟩ caps = some (⟨a :: before, r, pos + 1⟩, caps) := by
  simp [stringStep, stringUnit, run?, Cursor.next?, CharSet.except, ha, first]

/-- The body of a string takes a doubled quote. -/
theorem stringStep_double (before r : Text) (pos : Nat) (caps : Captures) :
    stringStep ⟨before, '\'' :: '\'' :: r, pos⟩ caps =
      some (⟨'\'' :: '\'' :: before, r, pos + 2⟩, caps) := by
  simp [stringStep, stringUnit, text, run?, Cursor.next?, CharSet.except, first]

/-- The body of a string does not take a single quote. -/
theorem stringStep_quote {r : Text} (hr : r.head? ≠ some '\'') (before : Text) (pos : Nat)
    (caps : Captures) : stringStep ⟨before, '\'' :: r, pos⟩ caps = none := by
  cases r with
  | nil => simp [stringStep, stringUnit, text, run?, Cursor.next?, CharSet.except]
  | cons b r =>
    have hb : b ≠ '\'' := by simpa using hr
    simp [stringStep, stringUnit, text, run?, Cursor.next?, CharSet.except, hb]

section Answer

variable {α : Type} (k : Cursor → Captures → Option α)

/-- The ends of the rounds of a string are tried from the last one on, and the closing quote is
behind the first that has a quote behind it. -/
theorem findSome?_closing (hk : ∀ c caps, (k c caps).isSome = true) (after left : Text)
    (before : Text) (pos : Nat) (caps : Captures) (seen : List (Cursor × Captures))
    (hleft : after.length ≤ left.length) :
    (roundEnds stringStep left ⟨before, after, pos⟩ caps seen).findSome? (closing k '\'') =
      match stringRest? after with
      | none => seen.findSome? (closing k '\'')
      | some u => k (Cursor.behind ⟨before, after, pos⟩ u) caps := by
  -- By the recursion of `stringRest?`: a doubled quote may be followed by an end of the string, or
  -- else the string ends with its first quote.
  induction after using stringRest?.induct generalizing left before pos seen with
  | case1 =>
    rw [roundEnds_stop rfl]
    rfl
  | case2 r u hu ih =>
    obtain _ | ⟨b, left⟩ := left
    · cases hleft
    · rw [roundEnds_more (stringStep_double before r pos caps) (by dsimp only; omega), ih left]
      · rw [stringRest?, hu]
        simp [Cursor.behind, Nat.add_assoc, Nat.add_comm 2]
      · simp only [List.length_cons] at hleft
        omega
  | case3 r hu ih =>
    obtain _ | ⟨b, left⟩ := left
    · cases hleft
    · rw [roundEnds_more (stringStep_double before r pos caps) (by dsimp only; omega), ih left]
      · rw [stringRest?, hu, List.findSome?_cons, closing_cons]
        obtain ⟨x, hx⟩ := Option.isSome_iff_exists.mp (hk ⟨'\'' :: before, '\'' :: r, pos + 1⟩ caps)
        simp [Cursor.behind, hx]
      · simp only [List.length_cons] at hleft
        omega
  | case4 a r hr ha =>
    have hquote : a = '\'' := by simpa using ha
    subst hquote
    have hlone : ∀ r', r = '\'' :: r' → False := fun r' => hr r' rfl
    rw [roundEnds_stop (stringStep_quote (head?_ne_quote hlone) before pos caps),
      List.findSome?_cons, closing_cons]
    obtain ⟨x, hx⟩ := Option.isSome_iff_exists.mp (hk ⟨'\'' :: before, r, pos + 1⟩ caps)
    rw [stringRest?_quote hlone]
    simp [Cursor.behind, hx]
  | case5 a r hr ha u hu ih =>
    have hplain : a ≠ '\'' := by simpa using ha
    obtain _ | ⟨b, left⟩ := left
    · cases hleft
    · rw [roundEnds_more (stringStep_plain hplain before r pos caps) (by dsimp only; omega),
        ih left]
      · rw [stringRest?_cons hplain, hu]
        simp [Cursor.behind, Nat.add_assoc, Nat.add_comm 1]
      · simpa using hleft
  | case6 a r hr ha hu ih =>
    have hplain : a ≠ '\'' := by simpa using ha
    obtain _ | ⟨b, left⟩ := left
    · cases hleft
    · rw [roundEnds_more (stringStep_plain hplain before r pos caps) (by dsimp only; omega),
        ih left]
      · rw [stringRest?_cons hplain, hu, List.findSome?_cons, closing_cons]
        simp [hplain]
      · simpa using hleft

/-- What the pattern for the rest of a string matches is `stringRest?`: the rounds take doubled
quotes, and if no quote is left to close the string, they go back to the last doubled one. -/
theorem run?_string (hk : ∀ c caps, (k c caps).isSome = true) (c : Cursor) (caps : Captures) :
    run? (.both (.rounds .most stringUnit) (text ['\''])) c caps k =
      (stringRest? c.after).bind (fun u => k (c.behind u) caps) := by
  obtain ⟨before, after, pos⟩ := c
  have h := findSome?_closing k hk after after before pos caps [] (Nat.le_refl _)
  cases hrest : stringRest? after with
  | none =>
    rw [hrest] at h
    exact h
  | some u =>
    rw [hrest] at h
    exact h

/-! ### Quoted names -/

/-- The rest of a quoted name goes up to the first quote, and is found if there is one. -/
theorem nameRest?_eq_some_iff {quote : Char} {t u : Text} :
    nameRest? quote t = some u ↔ u <+: t ∧ ∃ v, quote ∉ v ∧ u = v ++ [quote] := by
  induction t generalizing u with
  | nil =>
    constructor
    · intro h
      cases h
    · rintro ⟨hstart, v, -, rfl⟩
      simp at hstart
  | cons a r ih =>
    rw [nameRest?]
    -- The name ends at this character, or goes on with it.
    by_cases ha : a = quote
    · subst ha
      rw [if_pos (beq_self_eq_true a), Option.some.injEq]
      constructor
      · rintro rfl
        exact ⟨by simp, [], by simp, rfl⟩
      · rintro ⟨hstart, v, hv, rfl⟩
        cases v with
        | nil => rfl
        | cons b v =>
          rw [List.cons_append, List.cons_prefix_cons] at hstart
          exact absurd hstart.1 (fun h => hv (h ▸ List.mem_cons_self))
    · rw [beq_false_of_ne ha, if_neg Bool.false_ne_true]
      constructor
      · intro h
        cases hrest : nameRest? quote r with
        | none =>
          rw [hrest] at h
          cases h
        | some w =>
          rw [hrest] at h
          cases h
          obtain ⟨hstart, v, hv, rfl⟩ := ih.mp hrest
          refine ⟨by simpa using hstart, a :: v, ?_, rfl⟩
          simpa [hv] using fun h : quote = a => ha h.symm
      · rintro ⟨hstart, v, hv, rfl⟩
        cases v with
        | nil => exact absurd (List.cons_prefix_cons.mp hstart).1.symm ha
        | cons b v =>
          rw [List.cons_append, List.cons_prefix_cons] at hstart
          obtain ⟨rfl, hstart⟩ := hstart
          rw [ih.mpr ⟨hstart, v, fun h => hv (List.mem_cons_of_mem b h), rfl⟩]
          rfl

/-- What the pattern for the rest of a quoted name matches is `nameRest?`. -/
theorem run?_name (hk : ∀ c caps, (k c caps).isSome = true) (quote : Char) (c : Cursor)
    (caps : Captures) :
    run? (.both (many (CharSet.except [quote])) (text [quote])) c caps k =
      (nameRest? quote c.after).bind (fun u => k (c.behind u) caps) := by
  -- What the pattern takes is the only stretch of its form.
  refine run?_eq_bind k hk (fun u hu => (nameRest?_eq_some_iff.mp hu).1) (fun c' caps' => ?_)
  constructor
  · rintro ⟨c₁, caps₁, ⟨v, hv, -, hreads, rfl⟩, hquote⟩
    obtain ⟨hread, rfl⟩ := takes_text_iff.mp hquote
    have hreads' := hreads.trans hread
    refine ⟨v ++ [quote], nameRest?_eq_some_iff.mpr ⟨⟨c'.after, hreads'.after_eq.symm⟩, v, ?_, rfl⟩,
      hreads', rfl⟩
    intro hmem
    have := List.all_eq_true.mp hv quote hmem
    simp [CharSet.except] at this
  · rintro ⟨u, hu, hreads, rfl⟩
    obtain ⟨-, v, hv, rfl⟩ := nameRest?_eq_some_iff.mp hu
    obtain ⟨c₁, hreads₁, hread⟩ := hreads.split
    refine ⟨c₁, caps', ⟨v, ?_, Nat.zero_le _, hreads₁, rfl⟩, takes_text_iff.mpr ⟨hread, rfl⟩⟩
    rw [List.all_eq_true]
    intro a ha
    have hne : a ≠ quote := fun h => hv (h ▸ ha)
    simpa [CharSet.except] using hne

/-! ### All literals -/

end Answer

/-- The literal that the pattern matches at a cursor is the one that is read there. -/
theorem matchAt?_literal (c : Cursor) :
    LiteralGrammar.sql.pattern.matchAt? c =
      (literal? c.after).map (fun u => ⟨c, c.behind u, []⟩) := by
  let k : Cursor → Captures → Option Match := fun c' groups => some ⟨c, c', groups⟩
  have hk : ∀ c caps, (k c caps).isSome = true := fun c caps => rfl
  have hpattern : LiteralGrammar.sql.pattern.matchAt? c =
      run? (.either (.both (text ['\'']) (.both (.rounds .most stringUnit) (text ['\''])))
        (.either (.both (text ['"']) (.both (many (CharSet.except ['"'])) (text ['"'])))
          (.either (.both (text ['`']) (.both (many (CharSet.except ['`'])) (text ['`'])))
            (.both (text ['-', '-']) restOfLine)))) c [] k := rfl
  rw [hpattern]
  obtain ⟨before, after, pos⟩ := c
  cases after with
  | nil => rfl
  | cons a r =>
    -- The alternatives begin with different characters, so the first one says which it is.
    rw [run?_either, run?_either, run?_either, run?_opening, run?_opening, run?_opening,
      run?_pair, literal?]
    by_cases hstring : a = '\''
    · subst hstring
      rw [if_pos (beq_self_eq_true _), run?_string k hk]
      cases stringRest? r <;> simp [k, Cursor.behind, Nat.add_assoc, Nat.add_comm 1]
    · rw [beq_false_of_ne hstring, if_neg Bool.false_ne_true, if_neg Bool.false_ne_true,
        Option.none_or]
      by_cases hname : a = '"'
      · subst hname
        rw [if_pos (beq_self_eq_true _), if_pos (beq_self_eq_true _), run?_name k hk]
        cases nameRest? '"' r <;> simp [k, Cursor.behind, Nat.add_assoc, Nat.add_comm 1]
      · rw [beq_false_of_ne hname, if_neg Bool.false_ne_true, if_neg Bool.false_ne_true,
          Option.none_or]
        by_cases htick : a = '`'
        · subst htick
          rw [if_pos (beq_self_eq_true _), if_pos (beq_self_eq_true _), run?_name k hk]
          cases nameRest? '`' r <;> simp [k, Cursor.behind, Nat.add_assoc, Nat.add_comm 1]
        · rw [beq_false_of_ne htick, if_neg Bool.false_ne_true, if_neg Bool.false_ne_true,
            Option.none_or]
          by_cases hcomment : (a == '-' && r.head? == some '-') = true
          · rw [if_pos hcomment, if_pos hcomment, run?_restOfLine k hk]
            rw [Bool.and_eq_true, beq_iff_eq, beq_iff_eq] at hcomment
            obtain ⟨rfl, hhead⟩ := hcomment
            obtain _ | ⟨b, r⟩ := r
            · cases hhead
            · cases hhead
              simp [k, Cursor.behind, Nat.add_assoc, Nat.add_comm 2]
          · rw [if_neg hcomment, if_neg hcomment]
            rfl

/-- The literals, each by the way it is read. -/
inductive IsLiteral : Text → Text → Prop where
  | string {r u : Text} (hrest : stringRest? r = some u) : IsLiteral ('\'' :: r) ('\'' :: u)
  | name {quote : Char} {r u : Text} (hquote : quote = '"' ∨ quote = '`')
      (hrest : nameRest? quote r = some u) : IsLiteral (quote :: r) (quote :: u)
  | comment (r : Text) : IsLiteral ('-' :: '-' :: r) ('-' :: '-' :: r.takeWhile (· != '\n'))

/-- The literal that is found is one that the text begins with. -/
theorem isLiteral_of_literal? {t u : Text} (h : literal? t = some u) : IsLiteral t u := by
  -- The first character decides which kind of literal it is.
  cases t with
  | nil => cases h
  | cons a r =>
    rw [literal?] at h
    by_cases hstring : (a == '\'') = true
    · rw [if_pos hstring] at h
      obtain ⟨w, hw, rfl⟩ := Option.map_eq_some_iff.mp h
      rw [beq_iff_eq] at hstring
      subst hstring
      exact .string hw
    · rw [if_neg hstring] at h
      by_cases hdouble : (a == '"') = true
      · rw [if_pos hdouble] at h
        obtain ⟨w, hw, rfl⟩ := Option.map_eq_some_iff.mp h
        rw [beq_iff_eq] at hdouble
        subst hdouble
        exact .name (.inl rfl) hw
      · rw [if_neg hdouble] at h
        by_cases htick : (a == '`') = true
        · rw [if_pos htick] at h
          obtain ⟨w, hw, rfl⟩ := Option.map_eq_some_iff.mp h
          rw [beq_iff_eq] at htick
          subst htick
          exact .name (.inr rfl) hw
        · rw [if_neg htick] at h
          by_cases hcomment : (a == '-' && r.head? == some '-') = true
          · rw [if_pos hcomment] at h
            rw [Bool.and_eq_true, beq_iff_eq, beq_iff_eq] at hcomment
            obtain ⟨rfl, hhead⟩ := hcomment
            obtain _ | ⟨b, r⟩ := r
            · cases hhead
            · cases hhead
              cases h
              exact .comment r
          · rw [if_neg hcomment] at h
            cases h

/-- The literal is a start of the text. -/
theorem IsLiteral.begins {t u : Text} (h : IsLiteral t u) : u <+: t := by
  cases h with
  | string hrest => simpa using (stringRest?_spec hrest).1
  | name hquote hrest => simpa using (nameRest?_eq_some_iff.mp hrest).1
  | comment r => simpa using List.takeWhile_prefix (· != '\n')

/-- A literal ends with its quote or, if it is a comment, where its line ends. -/
theorem IsLiteral.ends {t u : Text} (h : IsLiteral t u) :
    (u.head? ≠ some '-' ∧ ∃ v a, u = v ++ [a] ∧ Text.isWord a = false) ∨
      (t.drop u.length).head?.all (· == '\n') = true := by
  cases h with
  | string hrest =>
    obtain ⟨-, v, rfl⟩ := stringRest?_spec hrest
    exact .inl ⟨by simp, '\'' :: v, '\'', rfl, by decide⟩
  | @name quote r u hquote hrest =>
    obtain ⟨-, v, -, rfl⟩ := nameRest?_eq_some_iff.mp hrest
    rcases hquote with rfl | rfl
    · exact .inl ⟨by simp, '"' :: v, '"', rfl, by decide⟩
    · exact .inl ⟨by simp, '`' :: v, '`', rfl, by decide⟩
  | comment r =>
    right
    rw [List.length_cons, List.length_cons, List.drop_succ_cons, List.drop_succ_cons]
    exact Text.head?_drop_line r

end CodeTidy.Sql
