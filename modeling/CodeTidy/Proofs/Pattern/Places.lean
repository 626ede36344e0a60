import CodeTidy.Proofs.Pattern.Stretch

/-!
# `CodeTidy.Proofs.Pattern.Places`: matches at a given place

A search finds a match at each place where the pattern matches, unless a match
that starts earlier runs over that place. The theorems:

* `occursIn_iff`: a pattern occurs in a text if it matches somewhere in it.
* `run?_first_eq_none_iff`: what it means that a pattern cannot be had.
* `exists_segments`: a match that no earlier match runs over is found.
* `puts_of_matchesBehind`: what a replacement writes at such a place.
* `Puts.replace_eq`, `Puts.unique`: the result around such a place, and that only one
  text is written there.
-/

set_option autoImplicit false

namespace CodeTidy

/-- What a text goes on with can be read. -/
theorem Cursor.exists_reads {c : Cursor} {u r : Text} (h : c.after = u ++ r) :
    ∃ c', c.Reads u c' ∧ c'.after = r := by
  have hreads : c.Reads u (c.behind u) := Cursor.reads_behind ⟨r, h.symm⟩
  exact ⟨c.behind u, hreads, List.append_cancel_left (hreads.after_eq.symm.trans h)⟩

/-- The character in front of a place is the last one that has been read. -/
theorem Cursor.Reads.follows_start {t v : Text} {c : Cursor} (h : (Cursor.start t).Reads v c)
    (set : Char → Bool) : c.follows set = v.getLast?.any set := by
  rw [Cursor.follows, h.before_eq, Cursor.start, List.append_nil, List.head?_reverse]

namespace Pattern

variable {p : Pattern}

/-- A condition that a pattern does not match fails where it can pass over something. -/
theorem run?_first_eq_none_iff {c : Cursor} {caps : Captures} :
    run? p c caps first = none ↔ ∀ c' caps', ¬Takes p c caps c' caps' := by
  constructor
  · intro h c' caps' htakes
    have hsome := isSome_run?_of_takes (k := first) htakes rfl
    rw [h] at hsome
    cases hsome
  · intro h
    cases hrun : run? p c caps first with
    | none => rfl
    | some e =>
      obtain ⟨c', caps', htakes, -⟩ := exists_takes_of_run? hrun
      exact absurd htakes (h c' caps')

/-- The condition holds where no character of the set stands in front, and passes over nothing. -/
theorem takes_notAfter_iff {set : CharSet} {c c' : Cursor} {caps caps' : Captures} :
    Takes (notAfter set) c caps c' caps' ↔ c.follows set = false ∧ c' = c ∧ caps' = caps := by
  simp [notAfter, Takes]

/-- A sequence that is put together from two passes over what the one and then the other does. -/
theorem takes_seq_append {ps qs : List Pattern} {c c' : Cursor} {caps caps' : Captures} :
    Takes (seq (ps ++ qs)) c caps c' caps' ↔
      ∃ c₁ caps₁, Takes (seq ps) c caps c₁ caps₁ ∧ Takes (seq qs) c₁ caps₁ c' caps' := by
  -- A sequence of one pattern is that pattern, so its case is the only one to tell apart.
  have hcons : ∀ (p : Pattern) (ps : List Pattern) {c c' : Cursor} {caps caps' : Captures},
      Takes (seq (p :: ps)) c caps c' caps' ↔
        ∃ c₁ caps₁, Takes p c caps c₁ caps₁ ∧ Takes (seq ps) c₁ caps₁ c' caps' := by
    intro p ps c c' caps caps'
    cases ps with
    | nil => simp [seq, Takes]
    | cons q ps => rfl
  induction ps generalizing c caps with
  | nil => simp [seq, Takes]
  | cons p ps ih =>
    rw [List.cons_append, hcons]
    simp only [hcons, ih]
    constructor
    · rintro ⟨c₁, caps₁, hp, c₂, caps₂, hps, hqs⟩
      exact ⟨c₂, caps₂, ⟨c₁, caps₁, hp, hps⟩, hqs⟩
    · rintro ⟨c₂, caps₂, ⟨c₁, caps₁, hp, hps⟩, hqs⟩
      exact ⟨c₁, caps₁, hp, c₂, caps₂, hps, hqs⟩

/-- A search from a place on finds a match if there is one behind some stretch of the text. -/
theorem isSome_findFrom?_iff {before after : Text} {pos : Nat} :
    (p.findFrom? before pos after).isSome = true ↔
      ∃ u c m, (⟨before, after, pos⟩ : Cursor).Reads u c ∧ p.matchAt? c = some m := by
  induction after generalizing before pos with
  | nil =>
    rw [findFrom?, Option.isSome_iff_exists]
    constructor
    · rintro ⟨m, hm⟩
      exact ⟨[], _, m, .refl _, hm⟩
    · rintro ⟨u, c, m, hu, hm⟩
      have hnil : u = [] := (List.append_eq_nil_iff.mp hu.after_eq.symm).1
      subst hnil
      rw [hu.unique (.refl _)] at hm
      exact ⟨m, hm⟩
  | cons a r ih =>
    rw [findFrom?]
    cases hm : p.matchAt? ⟨before, a :: r, pos⟩ with
    | some m =>
      simp only [Option.isSome_some, true_iff]
      exact ⟨[], _, m, .refl _, hm⟩
    -- No match is here, so the stretch in front of one is not empty.
    | none =>
      simp only
      rw [ih]
      constructor
      · rintro ⟨u, c, m, hu, hmatch⟩
        exact ⟨a :: u, c, m, (Cursor.Reads.one before a r pos).cons hu, hmatch⟩
      · rintro ⟨u, c, m, hu, hmatch⟩
        cases u with
        | nil =>
          rw [hu.unique (.refl _), hm] at hmatch
          cases hmatch
        | cons b u =>
          obtain ⟨c₁, hb, hrest⟩ := Cursor.Reads.split (u := [b]) hu
          have hab : a = b ∧ r = c₁.after := by simpa using hb.after_eq
          obtain ⟨rfl, -⟩ := hab
          rw [hb.unique (.one before a r pos)] at hrest
          exact ⟨u, c, m, hrest, hmatch⟩

/-- A pattern occurs in a text if it matches somewhere in it. -/
theorem occursIn_iff {t : Text} : p.occursIn t = true ↔ ∃ v m, MatchesBehind p t v m := by
  rw [occursIn, find?, isSome_findFrom?_iff]
  constructor
  · rintro ⟨v, c, m, hv, hm⟩
    obtain ⟨rfl, -⟩ := takes_of_matchAt? hm
    exact ⟨v, m, hv, hm⟩
  · rintro ⟨v, m, hv, hm⟩
    exact ⟨v, _, m, hv, hm⟩

/-- Where a pattern can pass over something, it occurs. -/
theorem occursIn_of_takes {t v : Text} {c c' : Cursor} {caps : Captures}
    (hv : (Cursor.start t).Reads v c) (h : Takes p c [] c' caps) : p.occursIn t = true := by
  rw [occursIn_iff]
  cases hm : p.matchAt? c with
  | none => exact absurd h (matchAt?_eq_none_iff.mp hm c' caps)
  | some m =>
    obtain ⟨rfl, -⟩ := takes_of_matchAt? hm
    exact ⟨v, m, hv, hm⟩

/-- The replacement by `f` writes `o` for the match that takes `u` behind `v`. -/
def Puts (p : Pattern) (f : Match → Text) (t v u o : Text) : Prop :=
  ∃ before m after, p.segments t = before ++ .hit m :: after ∧
    before.flatMap Segment.text = v ∧ m.text = u ∧ f m = o

section

variable {f : Match → Text} {t v : Text} {m : Match}

/-- The result of the replacement is what becomes of the text before, what is put, and what becomes
of the text behind. -/
theorem Puts.replace_eq (hp : IsSolid p) {u o : Text} (h : Puts p f t v u o) :
    ∃ v' y y', t = v ++ u ++ y ∧ p.replace f t = v' ++ o ++ y' := by
  obtain ⟨before, m, after, hsegments, hv, hu, ho⟩ := h
  refine ⟨before.flatMap (Segment.rewrite f), after.flatMap Segment.text,
    after.flatMap (Segment.rewrite f), ?_, ?_⟩
  · rw [← flatten_segments hp t, hsegments, List.flatMap_append, List.flatMap_cons, hv, ← hu,
      Segment.text, List.append_assoc]
  · rw [Pattern.replace_eq, hsegments, List.flatMap_append, List.flatMap_cons, ← ho,
      Segment.rewrite, List.append_assoc]

/-- A match that no match before it runs over is found. -/
theorem exists_segments (hp : IsSolid p) (h : MatchesBehind p t v m)
    (hclear : ∀ v' m', MatchesBehind p t v' m' → v'.length < v.length →
      v'.length + m'.text.length ≤ v.length) :
    ∃ before after, p.segments t = before ++ .hit m :: after ∧
      before.flatMap Segment.text = v := by
  refine (cuts_segments hp t).exists_hit hp h.1 h.2 fun v' w d m' hv hw hd hm' => ?_
  obtain ⟨rfl, -⟩ := takes_of_matchAt? hm'
  have hpos := List.length_pos_of_ne_nil hw
  have hlength := congrArg List.length hv
  rw [List.length_append] at hlength
  have hle := hclear v' m' ⟨hd, hm'⟩ (by omega)
  omega

/-- A match that no match before it runs over is put in its place. -/
theorem puts_of_matchesBehind (hp : IsSolid p) (h : MatchesBehind p t v m)
    (hclear : ∀ v' m', MatchesBehind p t v' m' → v'.length < v.length →
      v'.length + m'.text.length ≤ v.length) :
    Puts p f t v m.text (f m) := by
  obtain ⟨before, after, hsegments, htext⟩ := exists_segments hp h hclear
  exact ⟨before, m, after, hsegments, htext, rfl, rfl⟩

/-- A match that no match before it runs over is listed. -/
theorem mem_hits_of_matchesBehind (hp : IsSolid p) (h : MatchesBehind p t v m)
    (hclear : ∀ v' m', MatchesBehind p t v' m' → v'.length < v.length →
      v'.length + m'.text.length ≤ v.length) : m ∈ p.hits t := by
  obtain ⟨before, after, hsegments, -⟩ := exists_segments hp h hclear
  rw [← hitsOf_segments, hsegments, hitsOf, List.mem_filterMap]
  exact ⟨.hit m, List.mem_append_right _ List.mem_cons_self, rfl⟩

/-- A match of a solid pattern is not empty. -/
theorem text_ne_nil (hp : IsSolid p) (h : .hit m ∈ p.segments t) : m.text ≠ [] := by
  obtain ⟨v, hv⟩ := exists_matchesBehind hp h
  obtain ⟨a, u, -, htext, -⟩ := exists_cons_reads_of_matchAt? hp hv.2
  rw [htext]
  exact List.cons_ne_nil a u

/-- Two matches that have the same text before them are the same, in whatever order they are
found. -/
theorem eq_of_flatMap_eq {before before' after after' : List Segment} {m m' : Match}
    (hm : m.text ≠ []) (hm' : m'.text ≠ [])
    (h : before ++ .hit m :: after = before' ++ .hit m' :: after')
    (htext : before.flatMap Segment.text = before'.flatMap Segment.text) : m = m' := by
  rcases List.append_eq_append_iff.mp h with ⟨a, ha, hrest⟩ | ⟨a, ha, hrest⟩
  · -- Either match would have to stand in the text in front of the other one, and neither is empty.
    cases a with
    | nil =>
      cases hrest
      rfl
    | cons s a =>
      obtain ⟨rfl, -⟩ := List.cons.inj hrest
      rw [ha, List.flatMap_append, List.self_eq_append_right, List.flatMap_cons,
        List.append_eq_nil_iff] at htext
      exact absurd htext.1 hm
  · cases a with
    | nil =>
      cases hrest
      rfl
    | cons s a =>
      obtain ⟨rfl, -⟩ := List.cons.inj hrest
      rw [ha, List.flatMap_append, List.append_right_eq_self, List.flatMap_cons,
        List.append_eq_nil_iff] at htext
      exact absurd htext.1 hm'

/-- Only one text is written behind `v`. -/
theorem Puts.unique (hp : IsSolid p) {u u' o o' : Text} (h : Puts p f t v u o)
    (h' : Puts p f t v u' o') : o = o' := by
  obtain ⟨before, m, after, hsegments, hv, -, rfl⟩ := h
  obtain ⟨before', m', after', hsegments', hv', -, rfl⟩ := h'
  have hm := text_ne_nil hp (m := m) (t := t) (by rw [hsegments]; simp)
  have hm' := text_ne_nil hp (m := m') (t := t) (by rw [hsegments']; simp)
  rw [eq_of_flatMap_eq hm hm' (hsegments.symm.trans hsegments') (hv.trans hv'.symm)]

end

end Pattern

end CodeTidy
