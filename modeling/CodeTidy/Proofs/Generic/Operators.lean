import CodeTidy.Proofs.Generic.Lexer
import CodeTidy.Proofs.Generic.Spacing
import CodeTidy.Proofs.Json.Relaid

/-!
# `CodeTidy.Proofs.Generic.Operators`: JSON holds operators in strings only

The strings of a JSON text are literals of the grammar of C, and outside of
them there are no equals signs. So no operator gets spaces around it:
`spaceOperators_eq_self`.
-/

set_option autoImplicit false

namespace CodeTidy.Generic

open Json Pattern

/-! ### The strings are literals -/

/-- The string of JSON is a string of the formatter's grammar. -/
theorem quotedRest?_body {body : Text} (h : StringBody body) (t : Text) :
    quotedRest? ['"', '\n'] '"' false (body ++ '"' :: t) = some (body ++ ['"']) := by
  induction h with
  | nil => exact quotedRest?_quote (by decide) t
  | @plain c body hc _ ih =>
    have hfeed : c ≠ '\n' := by
      rintro rfl
      cases hc
    simp only [isPlain, Bool.and_eq_true, bne_iff_ne, ne_eq] at hc
    rw [List.cons_append, quotedRest?_plain hc.1.2 hc.1.1 (by simp [hc.1.1, hfeed]), ih]
    rfl
  | escape _ _ ih =>
    rw [List.cons_append, List.cons_append, quotedRest?_escape, quotedRest?, ih]
    rfl

/-- A string is matched as a whole. -/
theorem exists_matchAt?_string {c : Cursor} {body t : Text} (h : StringBody body)
    (hc : c.after = '"' :: (body ++ '"' :: t)) :
    ∃ m, LiteralGrammar.cStyle.pattern.matchAt? c = some m ∧ m.start = c ∧ m.stop.after = t ∧
      m.stop.pos = c.pos + body.length + 2 := by
  have hliteral : IsLiteral c.after ('"' :: (body ++ ['"'])) := by
    rw [hc]
    exact .string (by decide) (quotedRest?_body h t)
  have hreads := Cursor.reads_behind hliteral.begins
  refine ⟨⟨c, c.behind ('"' :: (body ++ ['"'])), []⟩, ?_, rfl, ?_, ?_⟩
  · rw [matchAt?_literal, literal?_eq_some_iff.mpr hliteral]
    rfl
  · have hafter := hc.symm.trans hreads.after_eq
    simpa using hafter.symm
  · rw [hreads.pos_eq, List.length_cons, List.length_append, List.length_singleton]
    omega

/-- What begins a literal is no mark. -/
theorem matchAt?_other {c : Cursor} {a : Char} {t : Text}
    (ha : isMark a = true ∨ isSpace a = true) (hc : c.after = a :: t) :
    LiteralGrammar.cStyle.pattern.matchAt? c = none := by
  have hne : isMark a = false ∧ isSpace a = false → False := by
    rintro ⟨hmark, hspace⟩
    rw [hmark, hspace] at ha
    rcases ha with ha | ha <;> cases ha
  rw [matchAt?_literal, hc, Option.map_eq_none_iff, Option.eq_none_iff_forall_ne_some]
  intro u hu
  rcases (literal?_eq_some_iff.mp hu).head with ⟨rfl, -⟩ | ⟨stops, hquote⟩
  · exact hne ⟨rfl, rfl⟩
  · have hquotes : ∀ q ∈ quotes, isMark q.1 = false ∧ isSpace q.1 = false := by decide
    exact hne (hquotes _ hquote)

section Hits

variable {c : Cursor} {segments : List Segment}

/-- A literal is found where it is matched. -/
theorem cuts_of_string (h : Cuts LiteralGrammar.cStyle.pattern c segments) {body t : Text}
    (hbody : StringBody body) (hc : c.after = '"' :: (body ++ '"' :: t)) :
    ∃ m rest, segments = .gap [] :: .hit m :: rest ∧ m.start = c ∧ m.stop.after = t ∧
      m.stop.pos = c.pos + body.length + 2 ∧ Cuts LiteralGrammar.cStyle.pattern m.stop rest := by
  obtain ⟨m, hmatch, hstart, hafter, hpos⟩ := exists_matchAt?_string hbody hc
  cases h with
  | stop hend =>
    rw [hc] at hend
    cases hend
  | pass hread hnone =>
    rw [hmatch] at hnone
    cases hnone
  | hit hm hrest =>
    rw [hmatch] at hm
    cases hm
    exact ⟨m, _, rfl, hstart, hafter, hpos, hrest⟩

/-- Marks and white space are passed. -/
theorem cuts_of_other (h : Cuts LiteralGrammar.cStyle.pattern c segments) {a : Char} {t : Text}
    (ha : isMark a = true ∨ isSpace a = true) (hc : c.after = a :: t) :
    ∃ c' segments', c'.after = t ∧ c'.pos = c.pos + 1 ∧ hitsOf segments = hitsOf segments' ∧
      Cuts LiteralGrammar.cStyle.pattern c' segments' := by
  cases h with
  | stop hend =>
    rw [hc] at hend
    cases hend
  | @pass _ c' b g rest hread hnone hrest =>
    have hafter := (List.cons.inj (hread.after_eq.symm.trans hc)).2
    exact ⟨c', .gap g :: rest, hafter, hread.pos_eq, rfl, hrest⟩
  | hit hm =>
    rw [matchAt?_other ha hc] at hm
    cases hm

/-- Each string of a lexed text is one of its literals. -/
theorem exists_hit {t₀ body t₁ : Text} (ht₀ : Lexed t₀) (hbody : StringBody body)
    (h : Cuts LiteralGrammar.cStyle.pattern c segments)
    (hc : c.after = t₀ ++ '"' :: (body ++ '"' :: t₁)) :
    ∃ m ∈ hitsOf segments, m.start.pos = c.pos + t₀.length ∧
      m.stop.pos = c.pos + t₀.length + body.length + 2 := by
  induction ht₀ generalizing c segments with
  | nil =>
    obtain ⟨m, rest, rfl, hstart, -, hstop, -⟩ := cuts_of_string h hbody hc
    exact ⟨m, by simp [hitsOf], by rw [hstart]; rfl, hstop⟩
  | mark ha _ ih =>
    obtain ⟨c', segments', hafter, hpos, hhits, hcuts⟩ := cuts_of_other h (.inl ha) hc
    obtain ⟨m, hm, hstart, hstop⟩ := ih hcuts hafter
    rw [hhits]
    refine ⟨m, hm, ?_, ?_⟩
    · rw [hstart, hpos, List.length_cons]
      omega
    · rw [hstop, hpos, List.length_cons]
      omega
  -- An earlier string is a literal of its own, and the cuts go on behind it.
  | @string body' t hbody' _ ih =>
    have hc' : c.after = '"' :: (body' ++ '"' :: (t ++ '"' :: (body ++ '"' :: t₁))) := by
      rw [hc]
      simp
    obtain ⟨m₁, rest, rfl, -, hafter, hpos, hcuts⟩ := cuts_of_string h hbody' hc'
    obtain ⟨m, hm, hstart, hstop⟩ := ih hcuts hafter
    refine ⟨m, List.mem_cons_of_mem m₁ hm, ?_, ?_⟩
    · rw [hstart, hpos, List.length_cons, List.length_append, List.length_cons]
      omega
    · rw [hstop, hpos, List.length_cons, List.length_append, List.length_cons]
      omega
  | space ha _ ih =>
    obtain ⟨c', segments', hafter, hpos, hhits, hcuts⟩ := cuts_of_other h (.inr ha) hc
    obtain ⟨m, hm, hstart, hstop⟩ := ih hcuts hafter
    rw [hhits]
    refine ⟨m, hm, ?_, ?_⟩
    · rw [hstart, hpos, List.length_cons]
      omega
    · rw [hstop, hpos, List.length_cons]
      omega

end Hits

/-! ### Where equals signs stand -/

/-- What is no mark stands in a string. -/
theorem exists_string {t : Text} (ht : Lexed t) {v r : Text} {x : Char} (h : t = v ++ x :: r)
    (hx : isMark x = false ∧ isSpace x = false ∧ x ≠ '"') :
    ∃ t₀ body t₁, t = t₀ ++ '"' :: (body ++ '"' :: t₁) ∧ Lexed t₀ ∧ StringBody body ∧
      t₀.length < v.length ∧ v.length < t₀.length + body.length + 1 := by
  induction ht generalizing v with
  | nil => simp at h
  | @mark c t hc _ ih =>
    cases v with
    | nil =>
      obtain ⟨rfl, -⟩ := List.cons.inj h
      rw [hx.1] at hc
      cases hc
    | cons d v =>
      obtain ⟨t₀, body, t₁, rfl, ht₀, hbody, hlt, hlt'⟩ := ih (List.cons.inj h).2
      refine ⟨c :: t₀, body, t₁, rfl, .mark hc ht₀, hbody, ?_, ?_⟩
      · simpa using hlt
      · simp only [List.length_cons]
        omega
  | @string body t hbody _ ih =>
    -- The character stands in this string, or behind it.
    have heq : '"' :: (body ++ ['"']) ++ t = v ++ x :: r := by
      rw [← h]
      simp
    have hbehind {z : Text} (hv : v = '"' :: (body ++ ['"']) ++ z) (hz : t = z ++ x :: r) :
        ∃ t₀ body' t₁, '"' :: (body ++ '"' :: t) = t₀ ++ '"' :: (body' ++ '"' :: t₁) ∧ Lexed t₀ ∧
          StringBody body' ∧ t₀.length < v.length ∧
          v.length < t₀.length + body'.length + 1 := by
      obtain ⟨t₀, body', t₁, rfl, ht₀, hbody', hlt, hlt'⟩ := ih hz
      refine ⟨'"' :: (body ++ '"' :: t₀), body', t₁, by simp, .string hbody ht₀, hbody', ?_, ?_⟩
      · simp only [hv, List.length_cons, List.length_append, List.length_nil]
        omega
      · simp only [hv, List.length_cons, List.length_append, List.length_nil]
        omega
    rcases Text.append_eq_append_cons heq with ⟨z, hz, -⟩ | ⟨z, hv, hz⟩
    · have hlength := congrArg List.length hz
      simp only [List.length_cons, List.length_append, List.length_nil] at hlength
      have hv : v ≠ [] := by
        rintro rfl
        exact hx.2.2 (List.cons.inj hz).1.symm
      have hlast : z ≠ [] := by
        rintro rfl
        rw [← List.cons_append] at hz
        exact hx.2.2 (List.append_inj_right' hz rfl |> List.cons.inj).1.symm
      have hv' := List.length_pos_iff.mpr hv
      have hlast' := List.length_pos_iff.mpr hlast
      exact ⟨[], body, t, rfl, .nil, hbody, hv', by rw [List.length_nil]; omega⟩
    · exact hbehind hv hz
  | @space c t hc _ ih =>
    cases v with
    | nil =>
      obtain ⟨rfl, -⟩ := List.cons.inj h
      rw [hx.2.1] at hc
      cases hc
    | cons d v =>
      obtain ⟨t₀, body, t₁, rfl, ht₀, hbody, hlt, hlt'⟩ := ih (List.cons.inj h).2
      refine ⟨c :: t₀, body, t₁, rfl, .space hc ht₀, hbody, ?_, ?_⟩
      · simpa using hlt
      · simp only [List.length_cons]
        omega

/-- What an operator with the blanks in front of it matches up to its equals sign. -/
theorem reads_spacedOperator {c : Cursor} {m : Match} (h : spacedOperator.matchAt? c = some m) :
    ∃ w c', c.Reads (w ++ ['=']) c' ∧ '"' ∉ w := by
  obtain ⟨-, s, s', hop, hreads⟩ := exists_isOperation h
  obtain ⟨v, hv⟩ := hop.exists_sign
  have hsign := hop.sign_all
  rw [hv] at hreads hsign
  rw [List.append_assoc, ← List.append_assoc, ← List.append_assoc] at hreads
  obtain ⟨c', hread, -⟩ := hreads.split
  refine ⟨s ++ v, c', hread, ?_⟩
  rw [List.mem_append, not_or]
  constructor
  · intro hmem
    cases List.all_eq_true.mp hop.left _ hmem
  · intro hmem
    cases List.all_eq_true.mp hsign _ (List.mem_append_left _ hmem)

/-- In a lexed text no operator gets spaces around it. -/
theorem spaceOperators_eq_self {t : Text} (ht : Lexed t) : spaceOperators t = t := by
  rw [spaceOperators]
  split
  · refine replace_eq_self (isSolid_spec rfl) (fun v m hm => ?_)
    obtain ⟨w, c', hread, hquote⟩ := reads_spacedOperator hm.2
    have hafter := (hm.1.trans hread).after_eq
    have heq : t = (v ++ w) ++ '=' :: c'.after := by
      simpa [Cursor.start] using hafter
    obtain ⟨t₀, body, t₁, hstring, ht₀, hbody, hlt, hlt'⟩ := exists_string ht heq
      ⟨rfl, rfl, by decide⟩
    obtain ⟨hit, hmem, hstart, hstop⟩ :=
      exists_hit ht₀ hbody (cuts_segments (isSolid_spec rfl) t) hstring
    rw [hitsOf_segments] at hmem
    -- The quote in front of the string stands in front of the match, as none stands in it.
    have hbefore : t₀.length < v.length := by
      by_contra hle
      have hopen : t[t₀.length]? = some '"' := by
        rw [hstring, List.getElem?_append_right (Nat.le_refl _), Nat.sub_self]
        rfl
      rw [heq, List.getElem?_append_left hlt, List.getElem?_append_right (by omega)] at hopen
      exact hquote (List.mem_of_getElem? hopen)
    have hpos : m.start.pos = v.length := by
      have h := hm.1.pos_eq
      rwa [Cursor.start, Nat.zero_add] at h
    have hcovers : LiteralGrammar.covers (LiteralGrammar.cStyle.literals t) m.start.pos = true := by
      rw [LiteralGrammar.covers, List.any_eq_true]
      refine ⟨hit, hmem, ?_⟩
      rw [List.length_append] at hlt hlt'
      rw [hstart, hstop, hpos, Cursor.start, Bool.and_eq_true, decide_eq_true_eq,
        decide_eq_true_eq]
      dsimp only
      omega
    rw [if_pos hcovers]
  · rfl

end CodeTidy.Generic
