import CodeTidy.Proofs.Pattern.Places
import CodeTidy.Proofs.Python.Quoting
import CodeTidy.Proofs.Python.Reading
import CodeTidy.Proofs.Rule.Nesting

/-!
# `CodeTidy.Proofs.Python.PercentFields`: the values of the `%` operator as fields

The rule for the `%` operator puts the values between braces, one for each percent sign
with a letter of a conversion behind it, and then makes one percent sign of two. It looks
for the letters without regard to what is in front of the percent sign, and it makes one
percent sign of two in the values as well. The theorems:

* `fills_of_cuts`: what the values are put in place of.
* `length_expressions_le`: not more conversions than that.
* `replaceAll_append`, `replaceAll_append_inj`: two percent signs in the values.
* `replaceAll_eq_iff`: when what is put in is what the pieces are written as.
* `percentToFString_readsAs_iff`: when the f-string is read as what the operator does.
-/

set_option autoImplicit false

namespace CodeTidy.Python

open Pattern Text

/-! ### What the operator does -/

/-- The letter behind a percent sign asks for a value. -/
def isDirective : CharSet := CharSet.of "sdr"

/-- The conversion of a field that a letter stands for. A number is written as it is without one. -/
def directiveConversion (c : Char) : Text := if c == 'r' then "!r" else []

/-- The pieces that the `%` operator makes of a format string and values. Two percent signs are
one; a letter of a conversion without a value stays as it is. -/
def percentItems : Text → List Text → List Item
  | [], _ => []
  | [c], _ => [.char c]
  | c :: d :: r, values =>
    if c == '%' && d == '%' then .char '%' :: percentItems r values
    else match c == '%' && isDirective d, values with
      | true, value :: values => .field value (directiveConversion d) [] :: percentItems r values
      | _, _ => .char c :: percentItems (d :: r) values

/-- A character other than the sign is read as itself. -/
theorem percentItems_char {c : Char} (hc : c ≠ '%') (r : Text) (values : List Text) :
    percentItems (c :: r) values = .char c :: percentItems r values := by
  cases r with
  | nil => rfl
  | cons d r => simp [percentItems, hc]

/-- A doubled sign is read as one. -/
theorem percentItems_doubled (r : Text) (values : List Text) :
    percentItems ('%' :: '%' :: r) values = .char '%' :: percentItems r values := by
  simp [percentItems]

/-- A conversion takes the next value. -/
theorem percentItems_value {d : Char} (hd : isDirective d = true) (r v : Text)
    (values : List Text) :
    percentItems ('%' :: d :: r) (v :: values) =
      .field v (directiveConversion d) [] :: percentItems r values := by
  have hne : d ≠ '%' := by
    rintro rfl
    cases hd
  simp [percentItems, hne, hd]

/-- A conversion without a value is read as it stands. -/
theorem percentItems_nil {d : Char} (hd : isDirective d = true) (r : Text) :
    percentItems ('%' :: d :: r) [] = .char '%' :: percentItems (d :: r) [] := by
  have hne : d ≠ '%' := by
    rintro rfl
    cases hd
  simp [percentItems, hne, hd]

/-! ### What the rule does -/

/-- The values are put in place of all percent signs with a letter of a conversion behind them. -/
inductive Fills : Text → List Text → Text → Prop where
  | done : Fills [] [] []
  | char {c : Char} {r o : Text} {values : List Text}
      (hc : c ≠ '%' ∨ r.head?.any isDirective = false) (hrest : Fills r values o) :
      Fills (c :: r) values (c :: o)
  | value {d : Char} {r v o : Text} {values : List Text} (hd : isDirective d = true)
      (hrest : Fills r values o) :
      Fills ('%' :: d :: r) (v :: values)
        ('\x7b' :: (v ++ (directiveConversion d ++ '\x7d' :: o)))

/-- A character that is no conversion is filled with itself. -/
theorem Fills.of_char {c : Char} {r o : Text} {values : List Text} (h : Fills (c :: r) values o)
    (hc : c ≠ '%' ∨ r.head?.any isDirective = false) :
    ∃ o', o = c :: o' ∧ Fills r values o' := by
  cases h with
  | char _ hrest => exact ⟨_, rfl, hrest⟩
  | value hd =>
    rcases hc with hc | hc
    · exact absurd rfl hc
    · rw [List.head?_cons, Option.any_some, hd] at hc
      cases hc

/-- A conversion is filled with the next value. -/
theorem Fills.of_value {d : Char} {r o : Text} {values : List Text} (hd : isDirective d = true)
    (h : Fills ('%' :: d :: r) values o) :
    ∃ v values' o', values = v :: values' ∧
      o = '\x7b' :: (v ++ (directiveConversion d ++ '\x7d' :: o')) ∧ Fills r values' o' := by
  cases h with
  | char hc =>
    rcases hc with hc | hc
    · exact absurd rfl hc
    · rw [List.head?_cons, Option.any_some, hd] at hc
      cases hc
  | value _ hrest => exact ⟨_, _, _, rfl, rfl, hrest⟩

/-- The pattern for conversions matches a percent sign with a letter behind it. -/
theorem takes_percentSpec_iff {c c' : Cursor} {caps caps' : Captures} :
    Takes percentSpec c caps c' caps' ↔
      ∃ d, isDirective d = true ∧ c.Reads ['%', d] c' ∧ caps' = caps := by
  constructor
  · rintro ⟨c₁, caps₁, htext, d, hd, hletter, rfl⟩
    obtain ⟨hsign, rfl⟩ := takes_text_iff.mp htext
    exact ⟨d, hd, hsign.trans hletter, rfl⟩
  · rintro ⟨d, hd, hread, rfl⟩
    obtain ⟨c₁, hsign, hletter⟩ := Cursor.Reads.split (u := ['%']) hread
    exact ⟨c₁, _, takes_text_iff.mpr ⟨hsign, rfl⟩, d, hd, hletter, rfl⟩

/-- A field is the value with its conversion between braces. -/
theorem percentField_eq (d : Char) (v o : Text) :
    percentField ['%', d] v ++ o = '\x7b' :: (v ++ (directiveConversion d ++ '\x7d' :: o)) := by
  by_cases hd : d = 'r'
  · subst hd
    simp [percentField, directiveConversion]
  · simp [percentField, directiveConversion, hd]

/-- The walk over the conversions fills them one by one. -/
theorem fills_of_cuts {c : Cursor} {segments : List Segment} (h : Cuts percentSpec c segments)
    {values : List Text} (hvalues : (hitsOf segments).length = values.length) :
    Fills c.after values (fillConversions segments values) := by
  induction h generalizing values with
  | stop hend =>
    obtain rfl : values = [] := List.length_eq_zero_iff.mp hvalues.symm
    rw [hend]
    exact .done
  | @pass c c' a g rest hread hnone hrest ih =>
    rw [matchAt?_eq_none_iff] at hnone
    have hafter : c.after = a :: c'.after := hread.after_eq
    rw [hafter]
    refine .char ?_ (ih hvalues)
    -- A sign in front of a conversion would be a match.
    by_contra hdirective
    rw [not_or, Decidable.not_not, Bool.not_eq_false, Option.any_eq_true] at hdirective
    obtain ⟨rfl, d, hd, hdirective⟩ := hdirective
    obtain ⟨r, hr⟩ := List.head?_eq_some_iff.mp hd
    obtain ⟨c₂, hletter, -⟩ := Cursor.exists_reads (u := [d]) hr
    exact hnone c₂ [] (takes_percentSpec_iff.mpr ⟨d, hdirective, hread.trans hletter, rfl⟩)
  | @hit c m rest hmatch hrest ih =>
    obtain ⟨hstart, htakes⟩ := takes_of_matchAt? hmatch
    obtain ⟨d, hd, hread, -⟩ := takes_percentSpec_iff.mp htakes
    have htext : m.text = ['%', d] := Match.text_of_reads (hstart ▸ hread)
    have hafter : c.after = '%' :: d :: m.stop.after := hread.after_eq
    cases values with
    | nil => cases hvalues
    | cons v values =>
      rw [hafter, fillConversions, fillConversions, htext, percentField_eq]
      exact .value hd (ih (Nat.succ.inj hvalues))

/-! ### Percent signs -/

/-- Every percent sign has another one or the letter of a conversion behind it. -/
inductive IsPercentBody : Text → Prop where
  | nil : IsPercentBody []
  | char {c : Char} {r : Text} (hc : c ≠ '%') (hrest : IsPercentBody r) : IsPercentBody (c :: r)
  | value {d : Char} {r : Text} (hd : isDirective d = true) (hrest : IsPercentBody r) :
      IsPercentBody ('%' :: d :: r)
  | doubled {r : Text} (hrest : IsPercentBody ('%' :: r)) : IsPercentBody ('%' :: '%' :: r)

/-- The letter of a conversion is no sign. -/
theorem ne_percent_of_isDirective {d : Char} (hd : isDirective d = true) : d ≠ '%' := by
  rintro rfl
  cases hd

/-- Where every sign is doubled or has a conversion behind it, the text is read sign by sign. -/
theorem isPercentBody_of_occursIn {body : Text} (h : otherPercent.occursIn body = false) :
    IsPercentBody body := by
  -- A sign with anything else behind it would be found by the pattern.
  have hbehind : ∀ u r, body = u ++ '%' :: r →
      ∃ d r', r = d :: r' ∧ CharSet.of "sdr%" d = true := by
    intro u r hbody
    obtain ⟨c, hu, hc⟩ := Cursor.exists_reads (c := Cursor.start body) hbody
    obtain ⟨c₁, hsign, rfl⟩ := Cursor.exists_reads (u := ['%']) hc
    by_contra hnone
    have hahead : ∀ c₂ caps, ¬Takes (.one (CharSet.of "sdr%")) c₁ [] c₂ caps := by
      rintro c₂ caps ⟨d, hd, hread, -⟩
      exact hnone ⟨d, c₂.after, hread.after_eq, hd⟩
    have htakes : Takes otherPercent c [] c₁ [] :=
      ⟨c₁, [], takes_text_iff.mpr ⟨hsign, rfl⟩, rfl, rfl, run?_first_eq_none_iff.mpr hahead⟩
    rw [occursIn_of_takes hu htakes] at h
    cases h
  clear h
  induction body with
  | nil => exact .nil
  | cons c r ih =>
    have hrest := ih fun u r' hr => hbehind (c :: u) r' (by rw [hr]; rfl)
    by_cases hc : c = '%'
    · subst hc
      obtain ⟨d, r', rfl, hd⟩ := hbehind [] r rfl
      by_cases hpercent : d = '%'
      · subst hpercent
        exact .doubled hrest
      · have hdirective : isDirective d = true := by
          simpa [isDirective, CharSet.of, hpercent] using hd
        cases hrest with
        | char _ hrest => exact .value hdirective hrest
        | value => exact absurd rfl hpercent
        | doubled => exact absurd rfl hpercent
    · exact .char hc hrest

/-- The operator has not more conversions than the rule has values. -/
theorem length_expressions_le {body o : Text} {values : List Text} (hbody : IsPercentBody body)
    (h : Fills body values o) (given : List Text) :
    ((percentItems body given).filterMap Item.expression?).length ≤ values.length := by
  -- Behind two percent signs the operator is one character further than the rule.
  induction hn : body.length using Nat.strongRecOn generalizing body o values given with
  | ind n ih =>
    subst hn
    cases hbody with
    | nil => exact Nat.zero_le _
    | @char c r hc hrest =>
      obtain ⟨o', -, hfills⟩ := h.of_char (.inl hc)
      rw [percentItems_char hc]
      exact ih r.length (Nat.lt_succ_self _) hrest hfills given rfl
    | @value d r hd hrest =>
      obtain ⟨v, values', o', rfl, -, hfills⟩ := h.of_value hd
      have hle (given : List Text) := ih r.length (Nat.lt_succ_of_lt (Nat.lt_succ_self _)) hrest
        hfills given rfl
      cases given with
      | nil =>
        rw [percentItems_nil hd, percentItems_char (ne_percent_of_isDirective hd)]
        exact Nat.le_succ_of_le (hle [])
      | cons w given =>
        rw [percentItems_value hd]
        exact Nat.succ_le_succ (hle given)
    | @doubled r hrest =>
      obtain ⟨o', -, hfills⟩ := h.of_char (.inr rfl)
      rw [percentItems_doubled]
      cases hrest with
      | char hc => exact absurd rfl hc
      | @value d r hd hrest =>
        obtain ⟨v, values', o', rfl, -, hfills⟩ := hfills.of_value hd
        rw [percentItems_char (ne_percent_of_isDirective hd)]
        have hle := ih r.length (by simp; omega) hrest hfills given rfl
        exact Nat.le_succ_of_le hle
      | @doubled r hrest =>
        obtain ⟨o', -, hfills⟩ := hfills.of_char (.inr rfl)
        exact ih ('%' :: r).length (by simp) hrest hfills given rfl

/-- One percent sign for two of them. -/
abbrev collapse (t : Text) : Text := replaceAll "%%" "%" t

/-- A text does not begin with a doubled sign if its first or its second character is none. -/
theorem isPrefixOf_percent {c : Char} {r : Text} (h : c ≠ '%' ∨ r.head? ≠ some '%') :
    "%%".toList.isPrefixOf (c :: r) = false := by
  rw [← Bool.not_eq_true, List.isPrefixOf_iff_prefix]
  rintro ⟨z, hz⟩
  obtain ⟨rfl, rfl⟩ : '%' = c ∧ '%' :: z = r := List.cons.inj hz
  exact h.elim (absurd rfl) (absurd rfl)

/-- A character that begins no doubled sign stays. -/
theorem collapse_char {c : Char} {r : Text} (h : c ≠ '%' ∨ r.head? ≠ some '%') :
    collapse (c :: r) = c :: collapse r := by
  show replaceFrom "%%" "%" 0 (c :: r) = _
  rw [replaceFrom, isPrefixOf_percent h, if_neg Bool.false_ne_true]
  rfl

/-- A doubled sign becomes one. -/
theorem collapse_doubled (r : Text) : collapse ('%' :: '%' :: r) = '%' :: collapse r := by
  show replaceFrom "%%" "%" 0 ('%' :: '%' :: r) = _
  rw [replaceFrom]
  rfl

/-- Induction over the characters as they are read from left to right: two percent signs at once,
and any other character on its own. -/
theorem percent_induction {P : Text → Prop} (nil : P [])
    (char : ∀ c u, (c ≠ '%' ∨ u.head? ≠ some '%') → P u → P (c :: u))
    (doubled : ∀ u, P u → P ('%' :: '%' :: u)) (u : Text) : P u := by
  induction hn : u.length using Nat.strongRecOn generalizing u with
  | ind n ih =>
    subst hn
    cases u with
    | nil => exact nil
    | cons c u =>
      by_cases hc : c ≠ '%' ∨ u.head? ≠ some '%'
      · exact char c u hc (ih u.length (Nat.lt_succ_self _) u rfl)
      · rw [not_or, not_not, not_not] at hc
        obtain ⟨rfl, hu⟩ := hc
        obtain ⟨u, rfl⟩ := List.head?_eq_some_iff.mp hu
        exact doubled u (ih u.length (Nat.lt_succ_of_lt (Nat.lt_succ_self _)) u rfl)

/-- A single percent sign stays one in front of any other character. -/
theorem collapse_append {r : Text} (hr : r.head? ≠ some '%') (u : Text) :
    collapse (u ++ r) = collapse u ++ collapse r := by
  induction u using percent_induction with
  | nil => rfl
  | char c u hc ih =>
    have hc' : c ≠ '%' ∨ (u ++ r).head? ≠ some '%' := by
      cases u with
      | nil => exact .inr hr
      | cons d u => exact hc
    rw [List.cons_append, collapse_char hc', ih, collapse_char hc]
    rfl
  | doubled u ih =>
    rw [List.cons_append, List.cons_append, collapse_doubled, ih, collapse_doubled]
    rfl

/-- The first character stays. -/
theorem head?_collapse (u : Text) : (collapse u).head? = u.head? := by
  cases u using percent_induction with
  | nil => rfl
  | char c u hc => rw [collapse_char hc]; rfl
  | doubled u => rw [collapse_doubled]; rfl

/-- A text without doubled signs stays. -/
theorem collapse_eq_self {u : Text} (h : holds u "%%" = false) : collapse u = u := by
  induction u using percent_induction with
  | nil => rfl
  | char c u hc ih =>
    rw [holds, Bool.or_eq_false_iff] at h
    rw [collapse_char hc, ih h.2]
  | doubled u _ => cases h

/-- Percent signs are not made more. -/
theorem collapse_append_ne {r r' : Text} (hr : r.head? ≠ some '%') (k : Nat) (u : Text) :
    collapse u ++ r ≠ List.replicate (k + 1) '%' ++ (u ++ r') := by
  induction u using percent_induction generalizing k with
  | nil =>
    rintro rfl
    exact hr rfl
  | char c u hc _ =>
    intro h
    rw [collapse_char hc] at h
    obtain ⟨rfl, hrest⟩ := List.cons.inj h
    -- A percent sign would have to come next, and neither the text nor what follows begins with one
    -- there.
    have hhead : (collapse u ++ r).head? = some '%' := by
      rw [show collapse u ++ r = List.replicate k '%' ++ ('%' :: (u ++ r')) from hrest]
      cases k <;> rfl
    rw [List.head?_append, head?_collapse] at hhead
    cases hu : u.head? with
    | none => exact hr (by simpa [hu] using hhead)
    | some d =>
      obtain rfl : d = '%' := by simpa [hu] using hhead
      exact hc.elim (absurd rfl) (absurd hu)
  | doubled u ih =>
    intro h
    rw [collapse_doubled] at h
    refine ih (k + 1) ((List.cons.inj h).2.trans ?_)
    simp [List.replicate_succ']

/-- If the text in front of another one stays as it is, it has no two percent signs. -/
theorem eq_of_collapse_append {u r r' : Text} (hr : r.head? ≠ some '%')
    (h : collapse u ++ r = u ++ r') : holds u "%%" = false ∧ r = r' := by
  induction u using percent_induction with
  | nil => exact ⟨rfl, h⟩
  | char c u hc ih =>
    rw [collapse_char hc] at h
    obtain ⟨hholds, hrest⟩ := ih (List.cons.inj h).2
    rw [holds, isPrefixOf_percent hc, hholds]
    exact ⟨rfl, hrest⟩
  | doubled u ih =>
    rw [collapse_doubled] at h
    exact absurd (List.cons.inj h).2 (collapse_append_ne hr 0 u)

/-! ### The f-string of the rule -/

/-- No percent sign begins what stands behind the value in a field. -/
theorem head?_directiveConversion (d : Char) (r : Text) :
    (directiveConversion d ++ '\x7d' :: r).head? ≠ some '%' := by
  rw [directiveConversion]
  split <;> simp

/-- A field is collapsed by its value, whatever letter of a conversion it stands for. -/
theorem collapse_field (v : Text) (d : Char) (o : Text) :
    collapse ('\x7b' :: (v ++ (directiveConversion d ++ '\x7d' :: o))) =
      '\x7b' :: (collapse v ++ (directiveConversion d ++ '\x7d' :: collapse o)) := by
  have hbrace (c : Char) (hc : c ≠ '%') (u : Text) : collapse (c :: u) = c :: collapse u :=
    collapse_char (.inl hc)
  have hclosing : collapse (directiveConversion d ++ '\x7d' :: o) =
      directiveConversion d ++ '\x7d' :: collapse o := by
    rw [directiveConversion]
    split
    · show collapse ('!' :: 'r' :: '\x7d' :: o) = _
      rw [hbrace _ (by decide), hbrace _ (by decide), hbrace _ (by decide)]
      rfl
    · exact hbrace _ (by decide) o
  rw [hbrace _ (by decide), collapse_append (head?_directiveConversion d o), hclosing]

/-- The field of a value is what it is written as exactly if the value holds no two percent
signs. -/
theorem collapse_field_eq_iff {v o r : Text} {d : Char} :
    collapse ('\x7b' :: (v ++ (directiveConversion d ++ '\x7d' :: o))) =
        (Item.field v (directiveConversion d) []).text ++ r ↔
      holds v "%%" = false ∧ collapse o = r := by
  have htext : (Item.field v (directiveConversion d) []).text ++ r =
      '\x7b' :: (v ++ (directiveConversion d ++ '\x7d' :: r)) := by simp [Item.text]
  rw [collapse_field, htext, List.cons.injEq]
  constructor
  · rintro ⟨-, heq⟩
    obtain ⟨hholds, hrest⟩ := eq_of_collapse_append (head?_directiveConversion d _) heq
    exact ⟨hholds, (List.cons.inj (List.append_cancel_left hrest)).2⟩
  · rintro ⟨hholds, rfl⟩
    exact ⟨rfl, by rw [collapse_eq_self hholds]⟩

/-- What the rule puts between the quotes is what the pieces are written as exactly if the operator
uses all values, and none of these holds two percent signs. -/
theorem collapse_eq_iff {body o : Text} {values : List Text} (hbody : IsPercentBody body)
    (h : Fills body values o) (hopening : '\x7b' ∉ body) (hclosing : '\x7d' ∉ body) :
    collapse o = (percentItems body values).flatMap Item.text ↔
      (percentItems body values).filterMap Item.expression? = values ∧
        ∀ v ∈ values, holds v "%%" = false := by
  induction hn : body.length using Nat.strongRecOn generalizing body o values with
  | ind n ih =>
    subst hn
    cases hbody with
    | nil =>
      cases h
      simp [percentItems, collapse, replaceAll, replaceFrom]
    | @char c r hc hrest =>
      obtain ⟨o', rfl, hfills⟩ := h.of_char (.inl hc)
      rw [List.mem_cons, not_or] at hopening hclosing
      rw [percentItems_char hc, collapse_char (.inl hc), List.flatMap_cons,
        Item.text_char (Ne.symm hopening.1) (Ne.symm hclosing.1), List.singleton_append,
        List.cons.injEq, expressions_char]
      rw [← ih r.length (Nat.lt_succ_self _) hrest hfills hopening.2 hclosing.2 rfl]
      exact and_iff_right rfl
    | @value d r hd hrest =>
      obtain ⟨v, values', o', rfl, rfl, hfills⟩ := h.of_value hd
      have hsub : ∀ c ∈ r, c ∈ '%' :: d :: r := fun c hc =>
        List.mem_cons_of_mem _ (List.mem_cons_of_mem _ hc)
      rw [percentItems_value hd, List.flatMap_cons, collapse_field_eq_iff,
        ih r.length (Nat.lt_succ_of_lt (Nat.lt_succ_self _)) hrest hfills (mt (hsub _) hopening)
          (mt (hsub _) hclosing) rfl,
        expressions_field, List.cons_inj_right, List.forall_mem_cons]
      exact and_left_comm
    | @doubled r hrest =>
      obtain ⟨o', rfl, hfills⟩ := h.of_char (.inr rfl)
      rw [percentItems_doubled, List.flatMap_cons]
      cases hrest with
      | char hc => exact absurd rfl hc
      | @value d r hd hrest =>
        obtain ⟨v, values', o', rfl, rfl, hrest'⟩ := hfills.of_value hd
        have hd' : d ≠ '\x7b' ∧ d ≠ '\x7d' := by
          constructor
          · rintro rfl
            cases hd
          · rintro rfl
            cases hd
        -- The rule takes for a conversion what is a percent sign and a letter.
        rw [percentItems_char (ne_percent_of_isDirective hd), List.flatMap_cons,
          Item.text_char hd'.1 hd'.2, collapse_char (.inr (by simp)), collapse_field]
        constructor
        · intro heq
          exact absurd (List.cons.inj (List.cons.inj heq).2).1.symm hd'.1
        · rintro ⟨heq, -⟩
          have hle := length_expressions_le hrest hrest' (v :: values')
          rw [expressions_char, expressions_char] at heq
          rw [heq, List.length_cons] at hle
          exact absurd hle (Nat.not_succ_le_self _)
      | @doubled r hrest =>
        obtain ⟨o', rfl, hrest'⟩ := hfills.of_char (.inr rfl)
        have hsub : ∀ c ∈ '%' :: r, c ∈ '%' :: '%' :: '%' :: r := fun c hc =>
          List.mem_cons_of_mem _ (List.mem_cons_of_mem _ hc)
        rw [collapse_doubled, expressions_char,
          ← ih ('%' :: r).length (by simp) hrest hrest' (mt (hsub _) hopening)
            (mt (hsub _) hclosing) rfl]
        exact (List.cons_inj_right '%')

/-- The operand of the operator is written with the values: a list of them in parentheses, or a
value that does not begin with one. -/
inductive IsOperand : List Text → Text → Prop where
  | list {values : List Text} {u : Text} (hlist : Lists values u) :
      IsOperand values ('(' :: (u ++ [')']))
  | single {v : Text} (hv : v.head? ≠ some '(') : IsOperand [v] v

/-- The values are read back from the operand that is written with them. -/
theorem percentArguments_eq {values : List Text} {operand : Text} (h : IsOperand values operand) :
    percentArguments operand = values := by
  cases h with
  | @list _ u hlist =>
    have hstart : startsWith ('(' :: (u ++ [')'])) "(" = true := rfl
    rw [percentArguments, if_pos hstart, List.drop_one, List.tail_cons, List.dropLast_concat,
      splitParams_of_lists hlist]
  | single hv =>
    have hstart : startsWith operand "(" = false := by
      rw [← Bool.not_eq_true, startsWith, List.isPrefixOf_iff_prefix]
      rintro ⟨z, rfl⟩
      exact hv rfl
    rw [percentArguments, hstart, if_neg Bool.false_ne_true]

/-- The pieces are sound if their expressions are. -/
theorem isSound_percentItems_iff (body : Text) (values : List Text) :
    (∀ item ∈ percentItems body values, item.IsSound) ↔
      ∀ e ∈ (percentItems body values).filterMap Item.expression?, IsExpression e := by
  -- Characters are sound, so only the fields count.
  have hchar (c : Char) (items : List Item) :
      (∀ item ∈ .char c :: items, item.IsSound) ↔ ∀ item ∈ items, item.IsSound := by
    rw [List.forall_mem_cons]
    exact and_iff_right trivial
  have hconversion (d : Char) : IsConversion (directiveConversion d) := by
    rw [directiveConversion, IsConversion]
    split <;> decide
  fun_induction percentItems body values with
  | case1 => simp
  | case2 c => simp [Item.IsSound, Item.expression?]
  | case3 c d r values _ ih =>
    rw [hchar, expressions_char]
    exact ih
  | case4 c d r _ _ v values ih =>
    rw [List.forall_mem_cons, expressions_field, List.forall_mem_cons]
    have hformat : IsFormat [] := ⟨rfl, List.not_mem_nil, List.not_mem_nil⟩
    exact and_congr ⟨fun h => h.1, fun h => ⟨h, hconversion d, hformat⟩⟩ ih
  | case5 c d r values _ _ ih =>
    rw [hchar, expressions_char]
    exact ih

/-- An f-string between the quotes of a match is read as what is between them. -/
theorem IsQuoted.stringReadsAs_iff {m : Match} (h : IsQuoted m) {filled : Text}
    (hwell : IsWellQuoted ("f" ++ m.group 1 ++ filled ++ m.group 1)) {items : List Item} :
    StringReadsAs ("f" ++ m.group 1 ++ filled ++ m.group 1) items ↔ ReadsAs filled items := by
  obtain ⟨q, u', hq, -, hgroup⟩ := h.exists_quote
  rw [h.isWellQuoted_iff, hgroup, ← Bool.not_eq_true, holds_singleton_iff] at hwell
  have ho : "f" ++ m.group 1 ++ filled ++ m.group 1 = 'f' :: q :: (filled ++ [q]) := by
    rw [hgroup]
    simp
  rw [ho]
  constructor
  · rintro ⟨q', inner, -, heq, -, hreads⟩
    simp only [List.cons.injEq, true_and] at heq
    obtain ⟨rfl, heq⟩ := heq
    rwa [List.append_cancel_right heq]
  · exact fun hreads => ⟨q, filled, hq, rfl, hwell, hreads⟩

section

variable {t v : Text} {m : Match}

/-- The f-string is read as what the operator makes of the format string and the values exactly if
each value is used for a conversion, is read as an expression, and holds no two percent signs. -/
theorem percentToFString_readsAs_iff (h : MatchesBehind percentFormat t v m)
    (hchange : percentToFString m ≠ m.text) {values : List Text}
    (hoperand : IsOperand values (m.group 3)) :
    StringReadsAs (percentToFString m) (percentItems (m.group 2) values) ↔
      (percentItems (m.group 2) values).filterMap Item.expression? = values ∧
        ∀ v ∈ values, IsExpression v ∧ holds v "%%" = false := by
  obtain ⟨hopening, hclosing, hother, hlength, -, hresult⟩ := percentToFString_of_ne hchange
  have hwell := percentToFString_isWellQuoted h hchange
  rw [percentArguments_eq hoperand] at hlength hresult
  -- There are as many conversions as values, so all of them are filled.
  have hfills : Fills (m.group 2) values
      (fillConversions (percentSpec.segments (m.group 2)) values) :=
    fills_of_cuts (cuts_segments (isSolid_spec rfl) _) (by rw [hitsOf_segments, hlength]; rfl)
  rw [hresult] at hwell ⊢
  rw [(isQuoted_percent h).stringReadsAs_iff hwell, readsAs_iff, isSound_percentItems_iff,
    collapse_eq_iff (isPercentBody_of_occursIn hother) hfills hopening hclosing]
  constructor
  · rintro ⟨⟨hused, hholds⟩, hsound⟩
    rw [hused] at hsound
    exact ⟨hused, fun v hv => ⟨hsound v hv, hholds v hv⟩⟩
  · rintro ⟨hused, hvalues⟩
    refine ⟨⟨hused, fun v hv => (hvalues v hv).2⟩, fun v hv => (hvalues v ?_).1⟩
    rwa [hused] at hv

end

end CodeTidy.Python
