import CodeTidy.Proofs.Generic.Lexer

/-!
# `CodeTidy.Proofs.Python.Lexer`: strings and comments, read character by character

The strings and comments of a script are the matches of a pattern.
`Python.literal?` reads the same literals by recursion on the text. Where three
quotes open a string that is never closed, the first two of them are an empty
string. The theorems:

* `matchAt?_literal`: a literal is matched at a place if and only if
  `literal?` reads it there.
* `isLiteral_of_literal?`: the ways in which a literal can be read, each of
  which is a case of `IsLiteral`.
* `IsLiteral.ends`: a literal ends with its quote or, if it is a comment,
  where its line ends.
-/

set_option autoImplicit false

namespace CodeTidy.Python

open Pattern

/-- The quotes around a string that may go on over several lines. -/
def triple (quote : Char) : Text := [quote, quote, quote]

/-- The rest of a string after three quotes, up to the next three in a row. A character behind a
backslash is passed. -/
def blockRest? (quote : Char) : (isEscaped : Bool) → Text → Option Text
  | _, [] => none
  | true, a :: r => (blockRest? quote false r).map (a :: ·)
  | false, a :: r =>
    if (triple quote).isPrefixOf (a :: r) then some (triple quote)
    else (blockRest? quote (a == '\\') r).map (a :: ·)

/-- The string that the text begins with, three quotes around it. -/
def block? (quote : Char) (t : Text) : Option Text :=
  if (triple quote).isPrefixOf t then
    (blockRest? quote false (t.drop 3)).map (triple quote ++ ·)
  else none

/-- The rest of a string after one quote. It ends on its line, unless the line feed is escaped. -/
def lineRest? (quote : Char) (t : Text) : Option Text :=
  Generic.quotedRest? [quote, '\n'] quote false t

/-- The literal that the text begins with. -/
def literal? : Text → Option Text
  | [] => none
  | a :: r =>
    if a == '"' || a == '\'' then (block? a (a :: r)).or ((lineRest? a r).map (a :: ·))
    else if a == '#' then some (a :: r.takeWhile (· != '\n'))
    else none

/-! ### Strings -/

section Answer

variable {α : Type} (k : Cursor → Captures → Option α)

/-- A text is matched where it begins the rest. -/
theorem run?_text (w : Text) (c : Cursor) (caps : Captures) :
    run? (text w) c caps k = if w.isPrefixOf c.after then k (c.behind w) caps else none := by
  induction w generalizing c with
  | nil => rfl
  | cons b w ih =>
    obtain ⟨before, after, pos⟩ := c
    cases after with
    | nil => rfl
    | cons a r =>
      show (if a == b then run? (text w) ⟨a :: before, r, pos + 1⟩ caps k else none) = _
      rw [ih, List.isPrefixOf_cons_cons]
      by_cases hab : a = b
      · subst hab
        simp [Cursor.behind, Nat.add_assoc, Nat.add_comm 1]
      · simp [hab, Ne.symm hab]

/-- The rounds of a string are tried from the first one on, so it ends where it can for the first
time. -/
theorem roundsLeast_closing (hk : ∀ c caps, (k c caps).isSome = true) (quote : Char)
    (after left before : Text) (pos : Nat) (caps : Captures) (hleft : after.length ≤ left.length) :
    roundsLeast (Generic.quotedStep []) (fun c caps => run? (text (triple quote)) c caps k) left
        ⟨before, after, pos⟩ caps =
      (blockRest? quote false after).bind
        (fun u => k (Cursor.behind ⟨before, after, pos⟩ u) caps) := by
  -- An escape takes two characters at once, so the induction is on the length that is left.
  generalize hn : after.length = n
  induction n using Nat.strongRecOn generalizing after left before pos with
  | ind n ih =>
    obtain _ | ⟨a, r⟩ := after
    · cases left <;> rfl
    · obtain _ | ⟨b, left⟩ := left
      · cases hleft
      have hleft' : r.length ≤ left.length := Nat.le_of_succ_le_succ hleft
      rw [roundsLeast, run?_text, blockRest?]
      by_cases hclose : (triple quote).isPrefixOf (a :: r) = true
      · obtain ⟨x, hx⟩ := Option.isSome_iff_exists.mp
          (hk (Cursor.behind ⟨before, a :: r, pos⟩ (triple quote)) caps)
        rw [if_pos hclose, if_pos hclose, Option.bind_some, hx]
      · rw [if_neg hclose, if_neg hclose]
        by_cases ha : a = '\\'
        · subst ha
          obtain _ | ⟨b', r⟩ := r
          · rw [Generic.quotedStep_lone before pos caps]
            rfl
          · rw [Generic.quotedStep_escape before b' r pos caps]
            show (if pos < pos + 2 then roundsLeast _ _ left ⟨_, r, pos + 2⟩ caps else none) = _
            rw [if_pos (by omega), ih r.length (by rw [← hn]; simp only [List.length_cons]; omega)
              r left _ _ (Nat.le_of_succ_le hleft') rfl, beq_self_eq_true, blockRest?]
            cases blockRest? quote false r <;>
              simp [Cursor.behind, Nat.add_assoc, Nat.add_comm 2]
        · rw [Generic.quotedStep_plain ha List.not_mem_nil before r pos caps]
          show (if pos < pos + 1 then roundsLeast _ _ left ⟨_, r, pos + 1⟩ caps else none) = _
          rw [if_pos (by omega), ih r.length (by rw [← hn]; simp only [List.length_cons]; omega)
            r left _ _ hleft' rfl, beq_false_of_ne ha]
          cases blockRest? quote false r <;> simp [Cursor.behind, Nat.add_assoc, Nat.add_comm 1]

/-- What the pattern for a triple-quoted string matches is `block?`. -/
theorem run?_block (hk : ∀ c caps, (k c caps).isSome = true) (quote : Char) (c : Cursor)
    (caps : Captures) :
    run? (LiteralGrammar.blockString quote) c caps k =
      (block? quote c.after).bind (fun u => k (c.behind u) caps) := by
  show run? (text (triple quote)) c caps
    (fun c caps => run? (.both (.rounds .least (LiteralGrammar.unit [])) (text (triple quote)))
      c caps k) = _
  rw [run?_text, block?]
  split
  · show roundsLeast (Generic.quotedStep []) _ (c.behind (triple quote)).after
      (c.behind (triple quote)) caps = _
    rw [roundsLeast_closing k hk quote _ _ _ _ _ (Nat.le_refl _)]
    show (blockRest? quote false (c.after.drop 3)).bind _ = _
    cases blockRest? quote false (c.after.drop 3) with
    | none => rfl
    | some u => simp [Cursor.behind, triple, Nat.add_assoc, Nat.add_comm 3]
  · rfl

/-- What the pattern for a plain string matches is `lineRest?` behind its quote. -/
theorem run?_line (hk : ∀ c caps, (k c caps).isSome = true) {quote : Char} (hquote : quote ≠ '\\')
    (before : Text) (a : Char) (r : Text) (pos : Nat) (caps : Captures) :
    run? (LiteralGrammar.lineString quote) ⟨before, a :: r, pos⟩ caps k =
      if a == quote then
        ((lineRest? quote r).map (a :: ·)).bind
          (fun u => k (Cursor.behind ⟨before, a :: r, pos⟩ u) caps)
      else none := by
  show (if a == quote then run? (.both (.rounds .most (LiteralGrammar.unit [quote, '\n']))
    (text [quote])) ⟨a :: before, r, pos + 1⟩ caps k else none) = _
  rw [Generic.run?_quoted k hk hquote List.mem_cons_self]
  split
  · show (lineRest? quote r).bind _ = _
    cases lineRest? quote r <;> simp [Cursor.behind, Nat.add_assoc, Nat.add_comm 1]
  · rfl

end Answer

/-- No triple-quoted string begins with another character. -/
theorem block?_eq_none {quote a : Char} (ha : a ≠ quote) (r : Text) :
    block? quote (a :: r) = none := by
  rw [block?, triple, List.isPrefixOf_cons_cons, beq_false_of_ne (Ne.symm ha), Bool.false_and,
    if_neg Bool.false_ne_true]

/-! ### All literals -/

/-- The literal that the pattern matches at a cursor is the one that is read there. -/
theorem matchAt?_literal (c : Cursor) :
    LiteralGrammar.python.pattern.matchAt? c =
      (literal? c.after).map (fun u => ⟨c, c.behind u, []⟩) := by
  let k : Cursor → Captures → Option Match := fun c' groups => some ⟨c, c', groups⟩
  have hk : ∀ c caps, (k c caps).isSome = true := fun c caps => rfl
  have hpattern : LiteralGrammar.python.pattern.matchAt? c =
      run? (.either (LiteralGrammar.blockString '"')
        (.either (LiteralGrammar.blockString '\'')
          (.either (LiteralGrammar.lineString '"')
            (.either (LiteralGrammar.lineString '\'')
              (.both (text ['#']) restOfLine))))) c [] k := rfl
  rw [hpattern]
  obtain ⟨before, after, pos⟩ := c
  cases after with
  | nil => rfl
  | cons a r =>
    rw [run?_either, run?_either, run?_either, run?_either, run?_block k hk, run?_block k hk,
      run?_line k hk (by decide), run?_line k hk (by decide), run?_opening, literal?]
    -- A string of its quote is a block of lines if it can be one, and otherwise ends on its line.
    have hstring : ((block? a (a :: r)).bind
          (fun u => k (Cursor.behind ⟨before, a :: r, pos⟩ u) [])).or
        (((lineRest? a r).map (a :: ·)).bind
          (fun u => k (Cursor.behind ⟨before, a :: r, pos⟩ u) [])) =
        ((block? a (a :: r)).or ((lineRest? a r).map (a :: ·))).map
          (fun u => ⟨⟨before, a :: r, pos⟩, Cursor.behind ⟨before, a :: r, pos⟩ u, []⟩) := by
      cases block? a (a :: r) <;> cases lineRest? a r <;> rfl
    -- The first character tells which of the alternatives can match.
    by_cases hdouble : a = '"'
    · subst hdouble
      have hother : '"' ≠ '\'' := by decide
      rw [block?_eq_none hother]
      simpa using hstring
    · by_cases hsingle : a = '\''
      · subst hsingle
        rw [block?_eq_none hdouble]
        simpa using hstring
      · rw [block?_eq_none hdouble, block?_eq_none hsingle]
        by_cases hmark : a = '#'
        · subst hmark
          have hrun := run?_restOfLine k hk ⟨'#' :: before, r, pos + 1⟩ []
          simp [hrun, k, Cursor.behind, Nat.add_assoc, Nat.add_comm 1]
        · simp [hdouble, hsingle, hmark]

/-- The quotes. -/
def quotes : List Char := ['"', '\'']

/-- The literals, each by the way it is read. -/
inductive IsLiteral : Text → Text → Prop where
  | block {quote : Char} {r u : Text} (hquote : quote ∈ quotes)
      (hrest : blockRest? quote false r = some u) :
      IsLiteral (triple quote ++ r) (triple quote ++ u)
  | line {quote : Char} {r u : Text} (hquote : quote ∈ quotes)
      (hblock : block? quote (quote :: r) = none) (hrest : lineRest? quote r = some u) :
      IsLiteral (quote :: r) (quote :: u)
  | comment (r : Text) : IsLiteral ('#' :: r) ('#' :: r.takeWhile (· != '\n'))

/-- A triple-quoted string is its opening quotes and the rest of a string. -/
theorem block?_eq_some_iff {quote : Char} {t u : Text} :
    block? quote t = some u ↔
      ∃ r w, t = triple quote ++ r ∧ blockRest? quote false r = some w ∧ u = triple quote ++ w := by
  rw [block?]
  constructor
  · intro h
    split at h
    · next hopen =>
      obtain ⟨r, rfl⟩ := List.isPrefixOf_iff_prefix.mp hopen
      obtain ⟨w, hw, rfl⟩ := Option.map_eq_some_iff.mp h
      exact ⟨r, w, rfl, hw, rfl⟩
    · cases h
  · rintro ⟨r, w, rfl, hw, rfl⟩
    rw [if_pos (List.isPrefixOf_iff_prefix.mpr (List.prefix_append _ r))]
    show (blockRest? quote false r).map _ = _
    rw [hw]
    rfl

/-- The literal that is found is one that the text begins with. -/
theorem isLiteral_of_literal? {t u : Text} (h : literal? t = some u) : IsLiteral t u := by
  cases t with
  | nil => cases h
  | cons a r =>
    rw [literal?] at h
    split at h
    · next hquote =>
      have hmem : a ∈ quotes := by simpa [quotes] using hquote
      -- r) with :: Three quotes open a block, and fewer a string on its line.
      cases hblock : block? a (a :: r) with
      | some w =>
        rw [hblock, Option.some_or] at h
        cases h
        obtain ⟨r', w', heq, hrest, rfl⟩ := block?_eq_some_iff.mp hblock
        rw [heq]
        exact .block hmem hrest
      | none =>
        rw [hblock, Option.none_or] at h
        obtain ⟨w, hw, rfl⟩ := Option.map_eq_some_iff.mp h
        exact .line hmem hblock hw
    · split at h
      · next hmark =>
        rw [beq_iff_eq] at hmark
        subst hmark
        cases h
        exact .comment r
      · cases h

/-- The rest of a triple-quoted string is a start of the text and ends with the closing quotes. -/
theorem exists_of_blockRest? {quote : Char} {isEscaped : Bool} {t u : Text}
    (h : blockRest? quote isEscaped t = some u) : u <+: t ∧ ∃ v, u = v ++ triple quote := by
  induction t generalizing isEscaped u with
  | nil => cases isEscaped <;> cases h
  | cons a r ih =>
    have hmore {isEscaped : Bool} (h : (blockRest? quote isEscaped r).map (a :: ·) = some u) :
        u <+: a :: r ∧ ∃ v, u = v ++ triple quote := by
      obtain ⟨w, hw, rfl⟩ := Option.map_eq_some_iff.mp h
      obtain ⟨hstart, v, rfl⟩ := ih hw
      exact ⟨List.cons_prefix_cons.mpr ⟨rfl, hstart⟩, a :: v, rfl⟩
    cases isEscaped with
    | true => exact hmore h
    | false =>
      rw [blockRest?] at h
      split at h
      · next hclose =>
        cases h
        exact ⟨List.isPrefixOf_iff_prefix.mp hclose, [], rfl⟩
      · exact hmore h

/-- The literal is a start of the text. -/
theorem IsLiteral.begins {t u : Text} (h : IsLiteral t u) : u <+: t := by
  cases h with
  | block hquote hrest => exact (List.prefix_append_right_inj _).mpr (exists_of_blockRest? hrest).1
  | line hquote hblock hrest =>
    exact List.cons_prefix_cons.mpr ⟨rfl, (Generic.exists_of_quotedRest? hrest).1⟩
  | comment r => exact List.cons_prefix_cons.mpr ⟨rfl, List.takeWhile_prefix (· != '\n')⟩

/-- A literal ends with its quote or, if it is a comment, where its line ends. -/
theorem IsLiteral.ends {t u : Text} (h : IsLiteral t u) :
    (∃ v a, u = v ++ [a] ∧ a ∈ quotes) ∨ (t.drop u.length).head?.all (· == '\n') = true := by
  cases h with
  | @block quote r u hquote hrest =>
    obtain ⟨-, v, rfl⟩ := exists_of_blockRest? hrest
    exact .inl ⟨triple quote ++ (v ++ [quote, quote]), quote, by simp [triple], hquote⟩
  | @line quote r u hquote hblock hrest =>
    obtain ⟨-, v, rfl⟩ := Generic.exists_of_quotedRest? hrest
    exact .inl ⟨quote :: v, quote, rfl, hquote⟩
  | comment r =>
    right
    rw [List.length_cons, List.drop_succ_cons]
    exact Text.head?_drop_line r

end CodeTidy.Python
