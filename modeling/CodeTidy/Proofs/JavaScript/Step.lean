import CodeTidy.Proofs.JavaScript.Operand
import CodeTidy.Proofs.JavaScript.Sweep
import CodeTidy.Proofs.Pattern.Places

/-!
# `CodeTidy.Proofs.JavaScript.Step`: a step on the text of a sum

The seven steps look for operands of two kinds with a plus sign between them. On the
text of a sum such a step is a sweep over its terms: its pattern matches where an
operand of the first kind stands in front of one of the second kind, and nowhere else.
The theorems:

* `templateRules_eq`: the steps, by the kinds of operands that they put together.
* `exists_of_match`, `matchAt?_ne_none`: where a step's pattern matches.
* `merged_eq`: what a step writes.
* `replace_textOf`: a step rewrites the text of a sum as a sweep rewrites its terms.
-/

set_option autoImplicit false

namespace CodeTidy.JavaScript

open Pattern Text

/-! ### The steps, by the kinds of operands that they put together -/

/-- A character that no operand begins behind. -/
def endsOperand : CharSet := isNamePart.or (CharSet.of ".])'\"`")

/-- What an operand goes on with, or what takes it from a sum. -/
def goesOn : Pattern :=
  oneOf [.one (isNamePart.or (CharSet.of ".([")), seq [space, .one (CharSet.of "*/%")]]

namespace Kind

/-- An operand of the kind, remembered from group `n` on. -/
def pattern : Kind → Nat → Pattern
  | name, n => .group n operand
  | quoted, n => plainString n
  | template, n => JavaScript.template n

/-- How many groups an operand of the kind takes. -/
def groups : Kind → Nat
  | quoted => 2
  | _ => 1

/-- What is asked of the place in front of an operand of the kind. -/
def guardBefore : Kind → List Pattern
  | name => [notAfterOperand]
  | _ => []

/-- What is asked of the place behind an operand of the kind. -/
def guardBehind : Kind → List Pattern
  | name => [.notAhead goesOn]
  | _ => []

/-- What an operand that is remembered from group `n` on puts into a template. -/
def put : Kind → Nat → Match → Text
  | name, n, m => JavaScript.hole (m.group n)
  | quoted, n, m => m.group (n + 1)
  | template, n, m => m.group n

end Kind

/-- An operand of the first kind in front of one of the second kind. -/
def pair (A B : Kind) : Pattern :=
  seq (A.guardBefore ++ ([A.pattern 1, plus, B.pattern (1 + A.groups)] ++ B.guardBehind))

/-- The two operands of a match in one. -/
def merged : Kind → Kind → Match → Text
  | .quoted, .quoted, m => m.group 1 ++ m.group 2 ++ m.group 4 ++ m.group 1
  | .name, B, m =>
    unlessTaken (fun m => inTemplate (Kind.put .name 1 m ++ B.put 2 m)) m
  | A, B, m => inTemplate (A.put 1 m ++ B.put (1 + A.groups) m)

/-- The kinds of operands that the steps put together, in order. -/
def kindPairs : List (Kind × Kind) :=
  [(.quoted, .quoted), (.quoted, .name), (.template, .quoted), (.name, .quoted),
    (.quoted, .template), (.template, .template), (.name, .template)]

/-- The rules for templates are one for each pair of kinds. -/
theorem templateRules_eq :
    templateRules = kindPairs.map (fun k => (pair k.1 k.2, merged k.1 k.2)) := rfl

section Parts

variable {c c' : Cursor} {caps caps' : Captures} {A B k : Kind} {n : Nat}

/-- The pattern takes a plus sign with the white space around it. -/
theorem takes_plus_iff : Takes plus c caps c' caps' ↔ ∃ b b', b.all isBlank = true ∧
    b'.all isBlank = true ∧ c.Reads (b ++ '+' :: b') c' ∧ caps' = caps := by
  constructor
  · rintro ⟨c₁, caps₁, ⟨b, hb, -, hread, rfl⟩, c₂, caps₂, htext, b', hb', -, hread', rfl⟩
    obtain ⟨hplus, rfl⟩ := takes_text_iff.mp htext
    exact ⟨b, b', hb, hb', hread.trans (hplus.trans hread'), rfl⟩
  · rintro ⟨b, b', hb, hb', hreads, rfl⟩
    obtain ⟨c₁, hread, hrest⟩ := hreads.split
    obtain ⟨c₂, hplus, hread'⟩ := Cursor.Reads.split (u := ['+']) hrest
    exact ⟨c₁, caps', ⟨b, hb, Nat.zero_le _, hread, rfl⟩, c₂, caps',
      takes_text_iff.mpr ⟨hplus, rfl⟩, b', hb', Nat.zero_le _, hread', rfl⟩

/-- In front of an operand only a name asks for something, and nothing is passed over. -/
theorem takes_guardBefore_iff : Takes (seq A.guardBefore) c caps c' caps' ↔
    (A = .name → c.follows endsOperand = false) ∧ c' = c ∧ caps' = caps := by
  cases A with
  | name =>
    rw [show seq Kind.name.guardBefore = notAfter endsOperand from rfl, takes_notAfter_iff]
    simp
  | quoted => simp [Kind.guardBefore, seq, Takes]
  | template => simp [Kind.guardBefore, seq, Takes]

/-- Behind an operand only a name asks for something, and nothing is passed over. -/
theorem takes_guardBehind_iff : Takes (seq B.guardBehind) c caps c' caps' ↔
    (B = .name → run? goesOn c caps first = none) ∧ c' = c ∧ caps' = caps := by
  cases B with
  | name => simp [Kind.guardBehind, seq, Takes, and_comm, and_assoc]
  | quoted => simp [Kind.guardBehind, seq, Takes]
  | template => simp [Kind.guardBehind, seq, Takes]

/-- What a step looks for: two operands, a plus sign between them, and what is asked of the places
around them. -/
theorem takes_pair_iff : Takes (pair A B) c caps c' caps' ↔
    (A = .name → c.follows endsOperand = false) ∧
    (∃ c₁ caps₁ c₂, Takes (A.pattern 1) c caps c₁ caps₁ ∧ Takes plus c₁ caps₁ c₂ caps₁ ∧
      Takes (B.pattern (1 + A.groups)) c₂ caps₁ c' caps') ∧
    (B = .name → run? goesOn c' caps' first = none) := by
  rw [pair, takes_seq_append]
  constructor
  · rintro ⟨c₀, caps₀, hbefore, h⟩
    obtain ⟨hfollows, rfl, rfl⟩ := takes_guardBefore_iff.mp hbefore
    obtain ⟨c₃, caps₃, ⟨c₁, caps₁, hA, c₂, caps₂, hplus, hB⟩, hbehind⟩ := takes_seq_append.mp h
    obtain ⟨hgoes, rfl, rfl⟩ := takes_guardBehind_iff.mp hbehind
    obtain ⟨b, b', hb, hb', hreads, rfl⟩ := takes_plus_iff.mp hplus
    exact ⟨hfollows, ⟨c₁, caps₂, c₂, hA, hplus, hB⟩, hgoes⟩
  · rintro ⟨hfollows, ⟨c₁, caps₁, c₂, hA, hplus, hB⟩, hgoes⟩
    refine ⟨c, caps, takes_guardBefore_iff.mpr ⟨hfollows, rfl, rfl⟩, takes_seq_append.mpr ?_⟩
    exact ⟨c', caps', ⟨c₁, caps₁, hA, c₂, caps₁, hplus, hB⟩,
      takes_guardBehind_iff.mpr ⟨hgoes, rfl, rfl⟩⟩

end Parts

/-! ### What the pattern for a kind spells -/

/-- What is remembered of an operand, from group `n` on. -/
def Operand.groups (n : Nat) : Operand → Groups
  | .name x => [(n, x)]
  | .str q s => [(n + 1, s), (n, [q])]
  | .template ps => [(n, ps.flatMap Piece.text)]

section Spelled

variable {e e' : Groups} {x y r z : Text} {k : Kind} {n : Nat} {o : Operand}

/-- The pattern spells a string of plain characters between equal quotes, and remembers both. -/
theorem spells_plainString : Spells (plainString n) e x e' ↔ ∃ q s,
    CharSet.of "'\"" q = true ∧ s.all isPlain = true ∧ x = q :: (s ++ [q]) ∧
      e' = (n + 1, s) :: (n, [q]) :: e := by
  simp only [plainString, spells_group_then, spells_seq_one, quote, spells_one, many, spells_run,
    spells_again]
  constructor
  · rintro ⟨_, _, ⟨q, hq, rfl, rfl⟩, w, rfl, s, _, ⟨hs, -, rfl⟩, v, rfl, hlookup, rfl⟩
    refine ⟨q, s, hq, hs, ?_, rfl⟩
    have hne : (n == n + 1) = false := by simp
    rw [List.lookup_cons, hne, List.lookup_cons, beq_self_eq_true] at hlookup
    rw [← Option.some.inj hlookup]
    rfl
  · rintro ⟨q, s, hq, hs, rfl, rfl⟩
    refine ⟨[q], e, ⟨q, hq, rfl, rfl⟩, _, rfl, s, _, ⟨hs, Nat.zero_le _, rfl⟩, [q], rfl, ?_, rfl⟩
    have hne : (n == n + 1) = false := by simp
    rw [List.lookup_cons, hne, List.lookup_cons, beq_self_eq_true]

/-- The pattern spells a template without another one in it, and remembers what it holds. -/
theorem spells_template : Spells (JavaScript.template n) e x e' ↔ ∃ s, '\x60' ∉ s ∧
    x = '\x60' :: (s ++ ['\x60']) ∧ e' = (n, s) :: e := by
  simp only [JavaScript.template, spells_text_then, spells_group_then, spells_seq_one, many,
    spells_run, spells_text]
  constructor
  · rintro ⟨w, rfl, s, _, ⟨hs, -, rfl⟩, v, rfl, rfl, rfl⟩
    exact ⟨s, not_mem_of_all hs (by decide), rfl, rfl⟩
  · rintro ⟨s, hs, rfl, rfl⟩
    refine ⟨s ++ ['\x60'], rfl, s, e, ⟨?_, Nat.zero_le _, rfl⟩, _, rfl, rfl, rfl⟩
    refine List.all_eq_true.mpr fun a ha => ?_
    have hne : a ≠ '\x60' := fun h => hs (h ▸ ha)
    simpa [CharSet.except] using hne

/-- A string and a template stand between delimiters. -/
theorem delimited_of_spells (hk : k ≠ .name) (h : Spells (k.pattern n) e x e') :
    ∃ d s, isDelimiter d = true ∧ d ∉ s ∧ x = d :: (s ++ [d]) := by
  cases k with
  | name => exact absurd rfl hk
  | quoted =>
    obtain ⟨q, s, hq, hs, rfl, -⟩ := spells_plainString.mp h
    have hquote : q = '\'' ∨ q = '"' := by simpa [CharSet.of] using hq
    refine ⟨q, s, ?_, not_mem_of_all hs ?_, rfl⟩ <;> rcases hquote with rfl | rfl <;> rfl
  | template =>
    obtain ⟨s, hs, rfl, -⟩ := spells_template.mp h
    exact ⟨'\x60', s, rfl, hs, rfl⟩

/-- An operand begins as a name does, which no string and no template does. -/
theorem exists_cons_of_spells (h : Spells operand e x e') :
    ∃ a w, x = a :: w ∧ isNameStart a = true := by
  obtain ⟨m, e₁, hm, v, rfl, -⟩ := spells_operand.mp h
  obtain ⟨a, w, rfl, ha, -⟩ := exists_cons_of_isName (spells_name.mp hm).1
  exact ⟨a, w ++ v, rfl, ha⟩

/-- No name begins with a delimiter. -/
theorem isNameStart_of_isDelimiter {d : Char} (hd : isDelimiter d = true) :
    isNameStart d = false := by
  rcases isDelimiter_iff.mp hd with rfl | rfl | rfl <;> rfl

/-- A name and what the pattern for names finds in it. -/
theorem isVariable_iff_of_spells (ho : o.isWell = true) (h : Spells (k.pattern n) e o.text e') :
    o.isVariable = true ↔ k = .name := by
  constructor
  · intro hv
    by_contra hk
    obtain ⟨d, s, hd, -, htext⟩ := delimited_of_spells hk h
    refine not_mem_of_isVariable ho hv hd ?_
    rw [htext]
    simp
  · rintro rfl
    rw [← Bool.not_eq_false]
    intro hv
    obtain ⟨q, s, htext, hq, -, -⟩ := exists_enclosed ho hv
    obtain ⟨e₁, hoperand, -⟩ := h
    obtain ⟨a, w, htext', ha⟩ := exists_cons_of_spells hoperand
    obtain ⟨rfl, -⟩ := List.cons.inj (htext.symm.trans htext')
    rw [isNameStart_of_isDelimiter hq] at ha
    cases ha

/-- An operand is spelled by the pattern for its own kind only, and is remembered by it. -/
theorem kind_of_spells (ho : o.isWell = true) (h : Spells (k.pattern n) e o.text e') :
    o.kind = k ∧ e' = o.groups n ++ e := by
  -- The delimiter that an operand begins with tells the kinds apart.
  have hvariable := isVariable_iff_of_spells ho h
  cases o with
  | name m =>
    obtain rfl := hvariable.mp rfl
    obtain ⟨e₁, hoperand, rfl⟩ := h
    rw [hoperand.groups_eq (show operand.isGroupless = true from rfl)]
    exact ⟨rfl, rfl⟩
  | str q s =>
    cases k with
    | name => cases hvariable.mpr rfl
    | quoted =>
      obtain ⟨q', s', -, -, htext, rfl⟩ := spells_plainString.mp h
      obtain ⟨rfl, hrest⟩ := List.cons.inj htext
      obtain ⟨rfl, -⟩ := List.append_inj' hrest rfl
      exact ⟨rfl, rfl⟩
    | template =>
      obtain ⟨s', -, htext, -⟩ := spells_template.mp h
      obtain ⟨rfl, -⟩ := List.cons.inj htext
      simp only [Operand.isWell, Bool.and_eq_true] at ho
      cases ho.1.1
  | template ps =>
    cases k with
    | name => cases hvariable.mpr rfl
    | quoted =>
      obtain ⟨q, s, hq, -, htext, -⟩ := spells_plainString.mp h
      obtain ⟨rfl, -⟩ := List.cons.inj htext
      cases hq
    | template =>
      obtain ⟨s', -, htext, rfl⟩ := spells_template.mp h
      obtain ⟨-, hrest⟩ := List.cons.inj htext
      obtain ⟨rfl, -⟩ := List.append_inj' hrest rfl
      exact ⟨rfl, rfl⟩

end Spelled

/-! ### An operand is found by the pattern for its kind -/

section Found

variable {c c' : Cursor} {o : Operand}

/-- The pattern for its kind takes an operand. -/
theorem exists_takes_pattern (ho : o.isWell = true) (h : c.Reads o.text c') (n : Nat)
    (caps : Captures) : ∃ caps', Takes (o.kind.pattern n) c caps c' caps' := by
  cases o with
  | name m =>
    have hname : Takes name c caps c' caps := takes_name_iff.mpr ⟨m, ho, h, rfl⟩
    exact ⟨_, caps, ⟨c', caps, hname, .none c' caps⟩, rfl⟩
  | str q s =>
    simp only [Operand.isWell, Bool.and_eq_true] at ho
    obtain ⟨c₁, hopen, hrest⟩ := Cursor.Reads.split (u := [q]) h
    obtain ⟨c₂, hs, hclose⟩ := hrest.split
    -- The pattern asks for the quote that it remembers.
    have htext : Capture.text ⟨c, c₁⟩ = [q] := Capture.text_of_reads hopen
    have hne : (n == n + 1) = false := by simp
    refine ⟨(n + 1, ⟨c₁, c₂⟩) :: (n, ⟨c, c₁⟩) :: caps,
      c₁, _, ⟨caps, ⟨q, ho.1.1, hopen, rfl⟩, rfl⟩,
      c₂, _, ⟨_, ⟨s, ho.1.2, Nat.zero_le _, hs, rfl⟩, rfl⟩, ⟨c, c₁⟩, ?_, htext.symm ▸ hclose, rfl⟩
    rw [List.lookup_cons, hne, List.lookup_cons, beq_self_eq_true]
  | template ps =>
    simp only [Operand.isWell, Bool.and_eq_true] at ho
    obtain ⟨c₁, hopen, hrest⟩ := Cursor.Reads.split (u := ['\x60']) h
    obtain ⟨c₂, hs, hclose⟩ := hrest.split
    have hall : (ps.flatMap Piece.text).all (CharSet.except "`") = true := by
      refine List.all_eq_true.mpr fun a ha => ?_
      have hmark : a ≠ '\x60' := by
        rintro rfl
        exact not_mem_of_all (all_of_isWell ho.1) (by decide) ha
      simpa [CharSet.except] using hmark
    exact ⟨_, c₁, caps, takes_text_iff.mpr ⟨hopen, rfl⟩,
      c₂, _, ⟨caps, ⟨_, hall, Nat.zero_le _, hs, rfl⟩, rfl⟩, takes_text_iff.mpr ⟨hclose, rfl⟩⟩

/-- Behind an operand of a sum nothing takes it from the sum. -/
theorem run?_goesOn_eq_none {ts : List Term} (hts : ts.all Term.isWell = true)
    (h : c.after = textOf ts) (caps : Captures) : run? goesOn c caps first = none := by
  rw [run?_first_eq_none_iff]
  rintro c' caps' (⟨a, ha, hread, -⟩ | ⟨c₁, caps₁, ⟨b, hb, -, hblank, rfl⟩, a, ha, hread, -⟩)
  · -- Behind the operand comes the gap of the next term, with a plus sign in it.
    have hhead := head?_textOf hts
    rw [← h, hread.after_eq] at hhead
    have hgap : isBlank a = true ∨ a = '+' := by simpa using hhead
    have hpart := isNamePart_of_isGapPart hgap
    have hopening : a = '.' ∨ a = '(' ∨ a = '[' := by simpa [CharSet.or, hpart, CharSet.of] using ha
    rcases hopening with rfl | rfl | rfl <;> simp [isBlank] at hgap
  · cases ts with
    | nil =>
      have hafter := hblank.after_eq
      rw [h, hread.after_eq] at hafter
      simp [textOf] at hafter
    | cons t ts =>
      rw [List.all_cons, Bool.and_eq_true] at hts
      obtain ⟨-, b₁, b₁', hb₁, -, hgap⟩ := exists_of_isWell hts.1
      have hafter := hblank.after_eq
      rw [h, hread.after_eq, textOf, List.flatMap_cons, hgap, List.append_assoc,
        List.append_assoc, List.cons_append] at hafter
      have hsign : a = '*' ∨ a = '/' ∨ a = '%' := by simpa [CharSet.of] using ha
      obtain ⟨-, hsame, -⟩ := eq_of_first hb₁ hb rfl
        (by rcases hsign with rfl | rfl | rfl <;> rfl) hafter
      subst hsame
      simp at hsign

end Found

/-! ### A match takes an operand and the next one -/

section Matches

variable {A B : Kind} {o : Operand} {ts : List Term} {u w x y b b' r z : Text}
  {e₁ e₂ : Groups} {n : Nat} {c : Cursor} {m : Match}

/-- The first operand of a match that begins in an operand of the sum is that operand as a whole,
and the plus sign is the one behind it. -/
theorem first_of_spells (hAB : A ≠ .name ∨ B ≠ .name) (ho : o.isWell = true)
    (hts : ts.all Term.isWell = true) (htext : o.text = u ++ w) (hw : w ≠ [])
    (hu : A = .name → o.isVariable = true → u = []) (hx : Spells (A.pattern 1) [] x e₁)
    (hy : Spells (B.pattern n) e₁ y e₂) (hb : b.all isBlank = true) (hb' : b'.all isBlank = true)
    (h : w ++ textOf ts = x ++ (b ++ '+' :: (b' ++ (y ++ r)))) :
    u = [] ∧ o.text = x ∧ textOf ts = b ++ '+' :: (b' ++ (y ++ r)) := by
  by_cases hA : A = .name
  · subst hA
    obtain ⟨d, s, hd, -, rfl⟩ := delimited_of_spells (hAB.resolve_left (absurd rfl)) hy
    obtain ⟨e, hoperand, -⟩ := hx
    obtain ⟨hnil, -, hsame, hbehind⟩ :=
      name_of_spells ho hts htext hw (hu rfl) hoperand hb hb' hd h
    exact ⟨hnil, hsame, hbehind⟩
  · obtain ⟨d, s, hd, hs, rfl⟩ := delimited_of_spells hA hx
    have hplus := beginsWithPlus_blank hb (b' ++ (y ++ r))
    exact opens_of_delimited ho hts htext hw hd hs hplus (by simpa using h)

/-- What stands behind a plus sign is the next operand. -/
theorem exists_term (hts : ts.all Term.isWell = true) (hb : b.all isBlank = true)
    (hb' : b'.all isBlank = true) {a : Char} (ha : isBlank a = false)
    (h : textOf ts = b ++ '+' :: (b' ++ a :: z)) :
    ∃ t ts', ts = t :: ts' ∧ t.operand.text ++ textOf ts' = a :: z := by
  cases ts with
  | nil => simp [textOf] at h
  | cons t ts =>
    rw [List.all_cons, Bool.and_eq_true] at hts
    obtain ⟨ho, b₁, b₁', hb₁, hb₁', hgap⟩ := exists_of_isWell hts.1
    obtain ⟨a', r, htext, ha', -⟩ := exists_cons_of_isWell ho
    rw [textOf, List.flatMap_cons, ← textOf, hgap, htext, List.append_assoc, List.append_assoc,
      List.cons_append] at h
    obtain ⟨-, -, hrest⟩ := eq_of_first hb₁ hb rfl rfl h
    obtain ⟨-, rfl, rfl⟩ := eq_of_first hb₁' hb' ha' ha hrest
    exact ⟨t, ts, rfl, by rw [htext]; rfl⟩

/-- The second operand of a match is the operand that begins there, as a whole. -/
theorem second_of_spells (ho : o.isWell = true) (hts : ts.all Term.isWell = true)
    (hy : Spells (B.pattern n) e₁ y e₂) (h : o.text ++ textOf ts = y ++ r)
    (hr : B = .name → r.head?.all (fun a => !isNamePart a) = true) :
    y = o.text ∧ r = textOf ts := by
  by_cases hB : B = .name
  · subst hB
    obtain ⟨e, hoperand, -⟩ := hy
    obtain ⟨a, w, hya, ha⟩ := exists_cons_of_spells hoperand
    cases hv : o.isVariable with
    | true =>
      cases o with
      | name m => exact eq_of_spells ho hoperand h.symm (head?_textOf hts) (hr rfl)
      | str q s => cases hv
      | template ps => cases hv
    | false =>
      obtain ⟨q, s, htext, hq, -, -⟩ := exists_enclosed ho hv
      rw [htext, hya] at h
      obtain ⟨rfl, -⟩ := List.cons.inj h
      rw [isNameStart_of_isDelimiter hq] at ha
      cases ha
  · -- A string or a template is delimited, so both are read up to the same delimiter.
    obtain ⟨d, s, hd, hs, rfl⟩ := delimited_of_spells hB hy
    obtain ⟨htext, hrest⟩ := eq_of_delimited ho hd hs (by simpa using h)
    exact ⟨htext.symm, hrest.symm⟩

/-- The texts that a match is made of. -/
theorem exists_of_takes_pair {c' : Cursor} {caps' : Captures}
    (h : Takes (pair A B) c [] c' caps') :
    (A = .name → c.follows endsOperand = false) ∧
    (B = .name → c'.after.head?.all (fun a => !isNamePart a) = true) ∧
    ∃ x b b' y e₁, Spells (A.pattern 1) [] x e₁ ∧
      Spells (B.pattern (1 + A.groups)) e₁ y (textsOf caps') ∧ b.all isBlank = true ∧
      b'.all isBlank = true ∧ c.after = x ++ (b ++ '+' :: (b' ++ (y ++ c'.after))) := by
  obtain ⟨hfollows, ⟨c₁, caps₁, c₂, hA, hplus, hB⟩, hgoes⟩ := takes_pair_iff.mp h
  obtain ⟨x, hx, hspells⟩ := hA.spells
  obtain ⟨b, b', hb, hb', hbb, -⟩ := takes_plus_iff.mp hplus
  obtain ⟨y, hy, hspells'⟩ := hB.spells
  refine ⟨hfollows, fun hname => ?_, x, b, b', y, _, hspells, hspells', hb, hb', ?_⟩
  · -- Behind a name the pattern looks for what would go on with it.
    have hnone := run?_first_eq_none_iff.mp (hgoes hname)
    cases hafter : c'.after with
    | nil => rfl
    | cons a r =>
      obtain ⟨c₃, hread, -⟩ := Cursor.exists_reads (c := c') (u := [a]) hafter
      rw [List.head?_cons, Option.all_some, Bool.not_eq_true', Bool.eq_false_iff]
      intro ha
      exact hnone c₃ caps' (.inl ⟨a, by simp [CharSet.or, ha], hread, rfl⟩)
  · rw [hx.after_eq, hbb.after_eq, hy.after_eq]
    simp

/-- A match begins where something can be seen that is no plus sign. -/
theorem exists_cons_of_match (hm : (pair A B).matchAt? c = some m) :
    ∃ a r, c.after = a :: r ∧ isBlank a = false ∧ a ≠ '+' := by
  obtain ⟨-, -, x, b, b', y, e₁, hx, -, -, -, hafter⟩ :=
    exists_of_takes_pair (takes_of_matchAt? hm).2
  rw [hafter]
  by_cases hA : A = .name
  · subst hA
    obtain ⟨e, hoperand, -⟩ := hx
    obtain ⟨a, w, rfl, ha⟩ := exists_cons_of_spells hoperand
    refine ⟨a, _, rfl, isBlank_of_isNamePart (isNamePart_of_isNameStart ha), ?_⟩
    rintro rfl
    cases ha
  · obtain ⟨d, s, hd, -, rfl⟩ := delimited_of_spells hA hx
    obtain ⟨hblank, hplus, -⟩ := isDelimiter_spec hd
    exact ⟨d, _, rfl, hblank, hplus⟩

/-- A match at a place in an operand starts in front of it, and takes it and the next one. -/
theorem exists_of_match (hAB : A ≠ .name ∨ B ≠ .name) (ho : o.isWell = true)
    (hts : ts.all Term.isWell = true) (htext : o.text = u ++ w) (hw : w ≠ [])
    (hafter : c.after = w ++ textOf ts)
    (hu : c.follows endsOperand = false → o.isVariable = true → u = [])
    (hm : (pair A B).matchAt? c = some m) :
    u = [] ∧ ∃ t ts', ts = t :: ts' ∧ o.kind = A ∧ t.operand.kind = B ∧
      m.stop.after = textOf ts' ∧
      textsOf m.groups = t.operand.groups (1 + A.groups) ++ o.groups 1 := by
  obtain ⟨hfollows, hbehind, x, b, b', y, e₁, hx, hy, hb, hb', hsplit⟩ :=
    exists_of_takes_pair (takes_of_matchAt? hm).2
  rw [hafter] at hsplit
  obtain ⟨rfl, rfl, hterms⟩ := first_of_spells hAB ho hts htext hw (fun hA => hu (hfollows hA)) hx
    hy hb hb' hsplit
  -- The second operand of the match begins visibly, so it begins where the next term does.
  obtain ⟨a, y', hya, ha⟩ : ∃ a y', y = a :: y' ∧ isBlank a = false := by
    by_cases hB : B = .name
    · subst hB
      obtain ⟨e, hoperand, -⟩ := hy
      obtain ⟨a, w, rfl, ha⟩ := exists_cons_of_spells hoperand
      exact ⟨a, w, rfl, isBlank_of_isNamePart (isNamePart_of_isNameStart ha)⟩
    · obtain ⟨d, s, hd, -, rfl⟩ := delimited_of_spells hB hy
      exact ⟨d, _, rfl, (isDelimiter_spec hd).1⟩
  obtain ⟨t, ts', rfl, hnext⟩ := exists_term hts hb hb' ha (by rw [hterms, hya]; rfl)
  rw [List.all_cons, Bool.and_eq_true] at hts
  have ho' := (exists_of_isWell hts.1).1
  obtain ⟨rfl, hstop⟩ := second_of_spells ho' hts.2 hy (by rw [hnext, hya]; rfl) hbehind
  obtain ⟨hkind, rfl⟩ := kind_of_spells ho hx
  obtain ⟨hkind', hgroups⟩ := kind_of_spells ho' hy
  exact ⟨rfl, t, ts', rfl, hkind, hkind', hstop, by rw [hgroups, List.append_nil]⟩

/-- Operands of the two kinds with a plus sign between them are matched. -/
theorem matchAt?_ne_none {t : Term} (ho : o.isWell = true) (hts : (t :: ts).all Term.isWell = true)
    (hfollows : c.follows endsOperand = false) (hafter : c.after = o.text ++ textOf (t :: ts)) :
    (pair o.kind t.operand.kind).matchAt? c ≠ none := by
  rw [List.all_cons, Bool.and_eq_true] at hts
  obtain ⟨ho', b, b', hb, hb', hgap⟩ := exists_of_isWell hts.1
  obtain ⟨c₁, hread, hafter₁⟩ := Cursor.exists_reads hafter
  rw [textOf, List.flatMap_cons, ← textOf, List.append_assoc] at hafter₁
  obtain ⟨c₂, hplus, hafter₂⟩ := Cursor.exists_reads hafter₁
  obtain ⟨c', hread', hafter'⟩ := Cursor.exists_reads hafter₂
  obtain ⟨caps₁, hA⟩ := exists_takes_pattern ho hread 1 []
  obtain ⟨caps', hB⟩ := exists_takes_pattern ho' hread' (1 + o.kind.groups) caps₁
  intro hnone
  refine matchAt?_eq_none_iff.mp hnone c' caps' (takes_pair_iff.mpr ⟨fun _ => hfollows,
    ⟨c₁, caps₁, c₂, hA, takes_plus_iff.mpr ⟨b, b', hb, hb', hgap ▸ hplus, rfl⟩, hB⟩, fun _ => ?_⟩)
  exact run?_goesOn_eq_none hts.2 hafter' caps'

/-- A step writes the two operands of a match in one. -/
theorem merged_eq {o o' : Operand}
    (hgroups : textsOf m.groups = o'.groups (1 + o.kind.groups) ++ o.groups 1)
    (hleft : m.leftContext.head?.any (CharSet.of "*/%-") = false) :
    merged o.kind o'.kind m = (joined o o').text := by
  have hgroup : ∀ n, m.group n = ((o'.groups (1 + o.kind.groups) ++ o.groups 1).lookup n).getD [] :=
    fun n => by rw [group_eq, hgroups]
  have hfree : ∀ f : Match → Text, unlessTaken f m = f m := fun f => by
    rw [unlessTaken, hleft, if_neg Bool.false_ne_true]
  cases o <;> cases o' <;>
    simp [merged, Operand.kind, Kind.put, Kind.groups, hfree, hgroup, Operand.groups, joined,
      Operand.text, Operand.pieces, inTemplate, Piece.text, List.flatMap_map, List.lookup_cons]

end Matches

/-! ### A walk over the text of a sum -/

/-- Nothing stands in front of the place that an operand could end with or that takes one from a
sum. -/
structure IsFree (c : Cursor) : Prop where
  follows : c.follows endsOperand = false
  context : (c.before.dropWhile isBlank).head?.any (CharSet.of "*/%-") = false

/-- The place stands behind the first characters of an operand, and `w` is left of it. -/
structure IsWithin (c : Cursor) (w : Text) (ts : List Term) : Prop where
  operand : ∃ (o : Operand) (u : Text), o.isWell = true ∧ o.text = u ++ w ∧ u ≠ [] ∧
    (o.isVariable = true → w ≠ [] → c.follows isNamePart = true)
  terms : ts.all Term.isWell = true
  after_eq : c.after = w ++ textOf ts

/-- The place stands in front of a term, or behind the first characters of what stands between it
and the one before. -/
structure IsAhead (c : Cursor) (t : Term) (ts : List Term) : Prop where
  gap : t.gap.all (fun a => isBlank a || a == '+') = true
  operand : t.operand.isWell = true
  terms : ts.all Term.isWell = true
  after_eq : c.after = textOf (t :: ts)
  free : '+' ∉ t.gap → IsFree c

section Walk

variable {A B : Kind} {c c' : Cursor} {a : Char} {g w : Text} {o : Operand} {t : Term}
  {ts : List Term} {m : Match}

/-- At the start of a text nothing stands in front. -/
theorem IsFree.start (t : Text) : IsFree (Cursor.start t) := ⟨rfl, rfl⟩

/-- White space behind a free place leaves it free. -/
theorem IsFree.blank (h : IsFree c) (hread : c.Reads [a] c') (ha : isBlank a = true) :
    IsFree c' := by
  have hbefore : c'.before = a :: c.before := hread.before_eq
  constructor
  · have hends : endsOperand a = false := by
      have hpart := isNamePart_of_isBlank ha
      rw [Bool.eq_false_iff]
      intro hends
      have hmem : a = '.' ∨ a = ']' ∨ a = ')' ∨ a = '\'' ∨ a = '"' ∨ a = '\x60' := by
        simpa [endsOperand, CharSet.or, hpart, CharSet.of] using hends
      rcases hmem with rfl | rfl | rfl | rfl | rfl | rfl <;> cases ha
    rw [Cursor.follows, hbefore, List.head?_cons, Option.any_some, hends]
  · rw [hbefore, List.dropWhile_cons_of_pos ha]
    exact h.context

/-- Behind a plus sign a place is free. -/
theorem IsFree.plus (hread : c.Reads ['+'] c') : IsFree c' := by
  have hbefore : c'.before = '+' :: c.before := hread.before_eq
  constructor
  · rw [Cursor.follows, hbefore]
    rfl
  · rw [hbefore]
    rfl

/-- One more character of the operand is passed. -/
theorem IsWithin.pass (h : IsWithin c (a :: w) ts) (hread : c.Reads [a] c') :
    IsWithin c' w ts := by
  obtain ⟨o, u, ho, htext, -, -⟩ := h.operand
  refine ⟨⟨o, u ++ [a], ho, by rw [htext]; simp, by simp, fun hv _ => ?_⟩, h.terms, ?_⟩
  · cases o with
    | name n =>
      have hmem : a ∈ n := by
        rw [show n = u ++ a :: w from htext]
        simp
      have hpart := List.all_eq_true.mp (all_isNamePart_of_isName ho) a hmem
      rw [Cursor.follows, hread.before_eq]
      simpa using hpart
    | str q s => cases hv
    | template ps => cases hv
  · exact List.append_cancel_left (hread.after_eq.symm.trans h.after_eq)

/-- Behind an operand the walk goes on in front of the next one. -/
theorem IsWithin.leave (h : IsWithin c [] (t :: ts)) (hread : c.Reads [a] c') :
    ∃ g, t.gap = a :: g ∧ IsAhead c' ⟨g, t.operand⟩ ts := by
  have hterms := h.terms
  rw [List.all_cons, Bool.and_eq_true] at hterms
  obtain ⟨ho, b, b', hb, hb', hgap⟩ := exists_of_isWell hterms.1
  have hafter : a :: c'.after = t.gap ++ (t.operand.text ++ textOf ts) := by
    have := hread.after_eq.symm.trans h.after_eq
    simpa [textOf] using this
  -- The gap begins with its plus sign, or with white space in front of it.
  cases b with
  | nil =>
    rw [hgap] at hafter
    obtain ⟨rfl, hrest⟩ := List.cons.inj hafter
    refine ⟨b', hgap, ?_, ho, hterms.2, by simpa [textOf] using hrest, fun _ => .plus hread⟩
    exact List.all_eq_true.mpr fun x hx => by rw [List.all_eq_true.mp hb' x hx]; rfl
  | cons x b =>
    rw [hgap] at hafter
    obtain ⟨rfl, hrest⟩ := List.cons.inj hafter
    rw [List.all_cons, Bool.and_eq_true] at hb
    refine ⟨b ++ '+' :: b', hgap, ?_, ho, hterms.2, by simpa [textOf] using hrest,
      fun hplus => absurd (by simp) hplus⟩
    have hblank : ∀ v : Text, v.all isBlank = true →
        v.all (fun a => isBlank a || a == '+') = true := fun v hv =>
      List.all_eq_true.mpr fun x hx => by rw [List.all_eq_true.mp hv x hx]; rfl
    rw [List.all_append, hblank b hb.2, List.all_cons, hblank b' hb']
    rfl

/-- One more character in front of the term is passed. -/
theorem IsAhead.pass (h : IsAhead c ⟨a :: g, o⟩ ts) (hread : c.Reads [a] c') :
    IsAhead c' ⟨g, o⟩ ts := by
  have hgap := h.gap
  rw [List.all_cons, Bool.and_eq_true] at hgap
  refine ⟨hgap.2, h.operand, h.terms, ?_, fun hplus => ?_⟩
  · have hafter := hread.after_eq.symm.trans h.after_eq
    exact (List.cons.inj hafter).2
  · by_cases ha : a = '+'
    · subst ha
      exact .plus hread
    · have hblank : isBlank a = true := by simpa [ha] using hgap.1
      refine (h.free ?_).blank hread hblank
      rw [List.mem_cons, not_or]
      exact ⟨fun hsame => ha hsame.symm, hplus⟩

/-- Where nothing stands in front of the operand any more, its first character comes next. -/
theorem IsAhead.enter (h : IsAhead c ⟨[], o⟩ ts) (hread : c.Reads [a] c') :
    ∃ w, o.text = a :: w ∧ IsWithin c' w ts := by
  obtain ⟨x, w, htext, -, -⟩ := exists_cons_of_isWell h.operand
  have hafter : a :: c'.after = x :: (w ++ textOf ts) := by
    have := hread.after_eq.symm.trans h.after_eq
    rw [textOf, List.flatMap_cons, htext] at this
    exact this
  obtain ⟨rfl, hrest⟩ := List.cons.inj hafter
  refine ⟨w, htext, ⟨o, [a], h.operand, htext, by simp, fun hv _ => ?_⟩, h.terms, hrest⟩
  cases o with
  | name n =>
    have hmem : a ∈ n := by
      rw [show n = a :: w from htext]
      simp
    have hpart := List.all_eq_true.mp (all_isNamePart_of_isName h.operand) a hmem
    rw [Cursor.follows, hread.before_eq]
    simpa using hpart
  | str q s => cases hv
  | template ps => cases hv

/-- No match starts in an operand, or behind it. -/
theorem IsWithin.matchAt?_eq_none (hAB : A ≠ .name ∨ B ≠ .name) (h : IsWithin c w ts) :
    (pair A B).matchAt? c = none := by
  cases hm : (pair A B).matchAt? c with
  | none => rfl
  | some m =>
    exfalso
    obtain ⟨o, u, ho, htext, hne, hfollows⟩ := h.operand
    -- Behind an operand comes no other one. Within one the match would have to start in front of
    -- it.
    by_cases hw : w = []
    · subst hw
      obtain ⟨a, r, hafter, hblank, hplus⟩ := exists_cons_of_match hm
      have hhead := head?_textOf h.terms
      rw [← List.nil_append (textOf ts), ← h.after_eq, hafter] at hhead
      simp [hblank, hplus] at hhead
    · refine hne (exists_of_match hAB ho h.terms htext hw h.after_eq (fun hends hv => ?_) hm).1
      -- Within a name a part of it comes before, which ends an operand.
      have hpart := hfollows hv hw
      rw [Cursor.follows] at hends hpart
      cases hhead : c.before.head? with
      | none => rw [hhead] at hpart; cases hpart
      | some x =>
        rw [hhead, Option.any_some] at hpart hends
        simp [endsOperand, CharSet.or, hpart] at hends

/-- No match begins between two operands. -/
theorem IsAhead.matchAt?_eq_none (h : IsAhead c ⟨a :: g, o⟩ ts) :
    (pair A B).matchAt? c = none := by
  cases hm : (pair A B).matchAt? c with
  | none => rfl
  | some m =>
    exfalso
    obtain ⟨x, r, hafter, hblank, hplus⟩ := exists_cons_of_match hm
    rw [h.after_eq] at hafter
    obtain ⟨rfl, -⟩ := List.cons.inj hafter
    have hgap := h.gap
    simp [hblank, hplus] at hgap

/-- In front of an operand it is known whether there is a match: if there is none, the operand
stays. -/
theorem IsAhead.sweep_of_none (h : IsAhead c ⟨[], o⟩ ts)
    (hnone : (pair A B).matchAt? c = none) :
    sweep A B (⟨[], o⟩ :: ts) = ⟨[], o⟩ :: sweep A B ts := by
  cases ts with
  | nil => rfl
  | cons t ts =>
    rw [sweep, if_neg]
    rintro ⟨rfl, rfl⟩
    refine matchAt?_ne_none h.operand h.terms (h.free (by simp)).follows ?_ hnone
    simpa [textOf] using h.after_eq

/-- If there is one, it writes what the sweep does, and the walk goes on behind the second
operand. -/
theorem IsAhead.sweep_of_some (hAB : A ≠ .name ∨ B ≠ .name) (h : IsAhead c ⟨[], o⟩ ts)
    (hm : (pair A B).matchAt? c = some m) :
    ∃ ts', IsWithin m.stop [] ts' ∧
      textOf (sweep A B (⟨[], o⟩ :: ts)) = merged A B m ++ textOf (sweep A B ts') := by
  obtain ⟨a, r, htext, -, -⟩ := exists_cons_of_isWell h.operand
  have hne : o.text ≠ [] := by
    rw [htext]
    exact List.cons_ne_nil a r
  obtain ⟨-, t, ts', rfl, rfl, rfl, hstop, hgroups⟩ := exists_of_match hAB h.operand h.terms
    (u := []) (w := o.text) rfl hne (by simpa [textOf] using h.after_eq) (fun _ _ => rfl) hm
  have hterms := h.terms
  rw [List.all_cons, Bool.and_eq_true] at hterms
  have ho := (exists_of_isWell hterms.1).1
  have hfree := h.free (by simp)
  have hmerged := merged_eq hgroups (by
    rw [Match.leftContext, (takes_of_matchAt? hm).1]
    exact hfree.context)
  refine ⟨ts', ⟨⟨o, o.text, h.operand, by simp, hne, fun _ hnil => absurd rfl hnil⟩, hterms.2,
    hstop⟩, ?_⟩
  rw [sweep, if_pos ⟨rfl, rfl⟩, hmerged]
  simp [textOf]

/-- What stands in front of an operand stays there. -/
theorem textOf_sweep_cons (g : Text) (o : Operand) (ts : List Term) :
    textOf (sweep A B (⟨g, o⟩ :: ts)) = g ++ textOf (sweep A B (⟨[], o⟩ :: ts)) := by
  cases ts with
  | nil => simp [sweep, textOf]
  | cons t ts =>
    rw [sweep, sweep]
    split <;> simp [textOf]

/-- What a walk over the text of a sum writes. -/
theorem flatMap_rewrite (hAB : A ≠ .name ∨ B ≠ .name) {segments : List Segment}
    (h : Cuts (pair A B) c segments) :
    (∀ w ts, IsWithin c w ts →
      segments.flatMap (Segment.rewrite (merged A B)) = w ++ textOf (sweep A B ts)) ∧
    (∀ t ts, IsAhead c t ts →
      segments.flatMap (Segment.rewrite (merged A B)) = textOf (sweep A B (t :: ts))) := by
  induction h with
  -- At the end of the text nothing is left of the operand and no term comes.
  | @stop c hend =>
    constructor
    · intro w ts hwithin
      have hafter := hwithin.after_eq
      rw [hend] at hafter
      obtain ⟨rfl, hnil⟩ := List.append_eq_nil_iff.mp hafter.symm
      have hlength := length_le_textOf hwithin.terms
      rw [hnil] at hlength
      obtain rfl := List.eq_nil_of_length_eq_zero (Nat.le_zero.mp hlength)
      rfl
    · intro t ts hahead
      obtain ⟨a, r, htext, -, -⟩ := exists_cons_of_isWell hahead.operand
      have hafter := hahead.after_eq
      rw [hend] at hafter
      simp [textOf, htext] at hafter
  -- A character without a match belongs to the operand, to a gap, or begins an operand.
  | @pass c c' a g rest hread hnone hrest ih =>
    have hcons : (Segment.gap (a :: g) :: rest).flatMap (Segment.rewrite (merged A B)) =
        a :: (Segment.gap g :: rest).flatMap (Segment.rewrite (merged A B)) := rfl
    rw [hcons]
    constructor
    · intro w ts hwithin
      cases w with
      | nil =>
        cases ts with
        | nil =>
          have hafter := hread.after_eq.symm.trans hwithin.after_eq
          cases hafter
        | cons t ts =>
          obtain ⟨g', hgap, hahead⟩ := hwithin.leave hread
          rw [ih.2 _ _ hahead, textOf_sweep_cons, List.nil_append,
            show t = ⟨t.gap, t.operand⟩ from rfl, textOf_sweep_cons t.gap, hgap]
          rfl
      | cons b w =>
        have hafter := hread.after_eq.symm.trans hwithin.after_eq
        obtain ⟨rfl, -⟩ := List.cons.inj hafter
        rw [ih.1 _ _ (hwithin.pass hread)]
        rfl
    · rintro ⟨g', o⟩ ts hahead
      cases g' with
      | nil =>
        obtain ⟨w, htext, hwithin⟩ := hahead.enter hread
        rw [ih.1 _ _ hwithin, hahead.sweep_of_none hnone]
        simp [textOf, htext]
      | cons b g' =>
        have hafter := hread.after_eq.symm.trans hahead.after_eq
        obtain ⟨rfl, -⟩ := List.cons.inj hafter
        rw [ih.2 _ _ (hahead.pass hread), textOf_sweep_cons, textOf_sweep_cons (a :: g')]
        rfl
  -- A match starts in front of an operand only.
  | @hit c m rest hmatch hrest ih =>
    have hcons : (Segment.gap [] :: .hit m :: rest).flatMap (Segment.rewrite (merged A B)) =
        merged A B m ++ rest.flatMap (Segment.rewrite (merged A B)) := rfl
    rw [hcons]
    constructor
    · intro w ts hwithin
      rw [hwithin.matchAt?_eq_none hAB] at hmatch
      cases hmatch
    · rintro ⟨g, o⟩ ts hahead
      cases g with
      | nil =>
        obtain ⟨ts', hwithin, hsweep⟩ := hahead.sweep_of_some hAB hmatch
        rw [hsweep, ih.1 _ _ hwithin, List.nil_append]
      | cons b g =>
        rw [hahead.matchAt?_eq_none] at hmatch
        cases hmatch

/-- The pattern for a pair matches nothing empty. -/
theorem isSolid_pair : IsSolid (pair A B) :=
  isSolid_spec (by cases A <;> cases B <;> rfl)

/-- A step rewrites the text of a sum as a sweep rewrites its terms. -/
theorem replace_textOf (hAB : A ≠ .name ∨ B ≠ .name) (h : isSum ts = true) :
    (pair A B).replace (merged A B) (textOf ts) = textOf (sweep A B ts) := by
  obtain ⟨o, ts, rfl, ho, hts⟩ := exists_of_isSum h
  have hstart : IsAhead (Cursor.start (textOf (⟨[], o⟩ :: ts))) ⟨[], o⟩ ts :=
    ⟨rfl, ho, hts, rfl, fun _ => .start _⟩
  rw [replace_eq]
  exact (flatMap_rewrite hAB (cuts_segments isSolid_pair _)).2 _ _ hstart

end Walk

end CodeTidy.JavaScript
