import CodeTidy.Proofs.Pattern.Takes

/-!
# `CodeTidy.Proofs.Pattern.Cuts`: searching as a walk over the text

`Pattern.segments` cuts a text at the matches of a pattern. `Pattern.Cuts` is
the same as a relation that walks over the text: a character goes to the gap
where the pattern does not match, and the walk goes on behind a match where it
does. It describes patterns that never match the empty stretch, which
`IsSolid` says and `isSolid` decides. The theorems:

* `cuts_segments`: the segments of a text are cut this way, so a property of
  a search is proved by induction on `Cuts`.
* `Cuts.flatten`: the segments make up the text.
* `matchAt?_eq_none_iff`, `takes_of_matchAt?`: what it means that the pattern
  matches at a place, or does not.
-/

set_option autoImplicit false

namespace CodeTidy.Pattern

/-- Every way to match the pattern passes over at least one character. -/
def IsSolid (p : Pattern) : Prop :=
  ∀ c caps c' caps', Takes p c caps c' caps' → c.pos < c'.pos

/-- A test for `IsSolid` that looks at the shape of the pattern only. -/
def isSolid : Pattern → Bool
  | .one _ => true
  | .both p q => p.isSolid || q.isSolid
  | .either p q => p.isSolid && q.isSolid
  | .run _ least _ => 0 < least
  | .group _ body => body.isSolid
  | _ => false

/-- No pattern goes back. -/
theorem Takes.pos_le {p : Pattern} {c c' : Cursor} {caps caps' : Captures}
    (h : Takes p c caps c' caps') : c.pos ≤ c'.pos := by
  obtain ⟨u, hu⟩ := h.reads
  exact hu.pos_le

/-- A pattern of the tested shape passes over at least one character. -/
theorem isSolid_spec {p : Pattern} (h : p.isSolid = true) : IsSolid p := by
  induction p with
  | one set =>
    rintro c caps c' caps' ⟨a, -, hreads, -⟩
    have hpos := hreads.pos_eq
    rw [List.length_singleton] at hpos
    omega
  | both p q ihp ihq =>
    rintro c caps c' caps' ⟨c₁, caps₁, hp, hq⟩
    rw [isSolid, Bool.or_eq_true] at h
    -- One of the two parts moves on, and the other one does not go back.
    rcases h with h | h
    · exact Nat.lt_of_lt_of_le (ihp h _ _ _ _ hp) hq.pos_le
    · exact Nat.lt_of_le_of_lt hp.pos_le (ihq h _ _ _ _ hq)
  | either p q ihp ihq =>
    rw [isSolid, Bool.and_eq_true] at h
    rintro c caps c' caps' (hp | hq)
    · exact ihp h.1 _ _ _ _ hp
    · exact ihq h.2 _ _ _ _ hq
  | run appetite least set =>
    rintro c caps c' caps' ⟨u, -, hleast, hreads, -⟩
    have hpos := hreads.pos_eq
    have hpositive : 0 < least := by simpa [isSolid] using h
    omega
  | group n body ih =>
    rintro c caps c' caps' ⟨caps₁, hbody, -⟩
    exact ih h _ _ _ _ hbody
  | _ => cases h

/-- A match begins at the cursor and is a way of the pattern. -/
theorem takes_of_matchAt? {p : Pattern} {c : Cursor} {m : Match} (h : p.matchAt? c = some m) :
    m.start = c ∧ Takes p c [] m.stop m.groups := by
  obtain ⟨c', caps', htakes, heq⟩ := exists_takes_of_run? h
  cases heq
  exact ⟨rfl, htakes⟩

/-- There is no match exactly if the pattern has no way. -/
theorem matchAt?_eq_none_iff {p : Pattern} {c : Cursor} :
    p.matchAt? c = none ↔ ∀ c' caps', ¬Takes p c [] c' caps' := by
  constructor
  · intro h c' caps' htakes
    have hsome : (p.matchAt? c).isSome = true := isSome_run?_of_takes htakes rfl
    rw [h] at hsome
    cases hsome
  · intro h
    cases hm : p.matchAt? c with
    | none => rfl
    | some m => exact absurd (takes_of_matchAt? hm).2 (h _ _)

/-- A match and the stretch that it is made of. -/
theorem exists_reads_of_matchAt? {p : Pattern} {c : Cursor} {m : Match}
    (h : p.matchAt? c = some m) : ∃ u, c.Reads u m.stop ∧ m.text = u ∧ m.length = u.length := by
  obtain ⟨rfl, htakes⟩ := takes_of_matchAt? h
  obtain ⟨u, hu⟩ := htakes.reads
  exact ⟨u, hu, hu.take_eq, hu.length_eq⟩

/-- A match of a solid pattern takes a first character. -/
theorem exists_cons_reads_of_matchAt? {p : Pattern} (hp : IsSolid p) {c : Cursor} {m : Match}
    (h : p.matchAt? c = some m) :
    ∃ a u, c.Reads (a :: u) m.stop ∧ m.text = a :: u ∧ m.length = u.length + 1 := by
  obtain ⟨u, hu, htext, hlen⟩ := exists_reads_of_matchAt? h
  have hprogress := hp _ _ _ _ (takes_of_matchAt? h).2
  have hpos := hu.pos_eq
  cases u with
  | nil =>
    rw [List.length_nil] at hpos
    omega
  | cons a u => exact ⟨a, u, hu, htext, hlen⟩

/-- The segments of the text behind a cursor. A character at which the pattern does not match
goes to the gap in front. -/
inductive Cuts (p : Pattern) : Cursor → List Segment → Prop where
  | stop {c : Cursor} (hend : c.after = []) : Cuts p c [.gap []]
  | pass {c c' : Cursor} {a : Char} {g : Text} {rest : List Segment} (hread : c.Reads [a] c')
      (hnone : p.matchAt? c = none) (hrest : Cuts p c' (.gap g :: rest)) :
      Cuts p c (.gap (a :: g) :: rest)
  | hit {c : Cursor} {m : Match} {rest : List Segment} (hmatch : p.matchAt? c = some m)
      (hrest : Cuts p m.stop rest) : Cuts p c (.gap [] :: .hit m :: rest)

/-- The segments make up the text behind the cursor. -/
theorem Cuts.flatten {p : Pattern} {c : Cursor} {segments : List Segment}
    (h : Cuts p c segments) : segments.flatMap Segment.text = c.after := by
  induction h with
  | stop hend => simp [Segment.text, hend]
  | @pass c c' a g rest hread hnone hrest ih =>
    rw [hread.after_eq, ← ih]
    simp [Segment.text]
  | @hit c m rest hmatch hrest ih =>
    obtain ⟨u, hu, htext, -⟩ := exists_reads_of_matchAt? hmatch
    rw [hu.after_eq, ← ih]
    simp [Segment.text, htext]

/-- Characters that a match covers are passed over. -/
theorem hitsFrom_skip (p : Pattern) (u r before : Text) (pos : Nat) :
    hitsFrom p before pos u.length (u ++ r) =
      hitsFrom p (u.reverse ++ before) (pos + u.length) 0 r := by
  induction u generalizing before pos with
  | nil => rfl
  | cons a u ih =>
    rw [List.length_cons, List.cons_append, hitsFrom, ih]
    simp [Nat.add_assoc, Nat.add_comm 1]

/-- A match begins at the place that was asked for. -/
theorem matchAt?_start {p : Pattern} {before after : Text} {pos : Nat} {m : Match}
    (h : p.matchAt? ⟨before, after, pos⟩ = some m) : m.start.pos = pos := by
  rw [(takes_of_matchAt? h).1]

/-- What a solid pattern does at a cursor behind which there is text. -/
theorem hitsFrom_cons {p : Pattern} (hp : IsSolid p) (before : Text) (pos : Nat) (a : Char)
    (r : Text) :
    hitsFrom p before pos 0 (a :: r) =
      match p.matchAt? ⟨before, a :: r, pos⟩ with
      | none => hitsFrom p (a :: before) (pos + 1) 0 r
      | some m => m :: hitsFrom p m.stop.before m.stop.pos 0 m.stop.after := by
  rw [hitsFrom]
  cases hm : p.matchAt? ⟨before, a :: r, pos⟩ with
  | none => rfl
  | some m =>
    -- The match takes a character, so its other characters are skipped and the search goes on
    -- behind it.
    obtain ⟨b, v, hu, -, hlen⟩ := exists_cons_reads_of_matchAt? hp hm
    have hafter := hu.after_eq
    simp only [List.cons_append, List.cons.injEq] at hafter
    obtain ⟨rfl, hr⟩ := hafter
    have hbefore := hu.before_eq
    simp only [List.reverse_cons, List.append_assoc, List.singleton_append] at hbefore
    have hpos := hu.pos_eq
    dsimp only
    rw [if_neg (by omega), hr, show m.length - 1 = v.length by omega, hitsFrom_skip, hbefore, hpos,
      List.length_cons, Nat.add_assoc, Nat.add_comm 1]

/-- Nothing matches in an empty text. -/
theorem hitsFrom_nil {p : Pattern} (hp : IsSolid p) (before : Text) (pos : Nat) :
    hitsFrom p before pos 0 [] = [] := by
  rw [hitsFrom]
  cases hm : p.matchAt? ⟨before, [], pos⟩ with
  | none => rfl
  | some m =>
    obtain ⟨b, v, hu, -, -⟩ := exists_cons_reads_of_matchAt? hp hm
    cases hu.after_eq

/-- The first match lies at the cursor or behind it. -/
theorem head?_hitsFrom {p : Pattern} (hp : IsSolid p) (before : Text) (pos : Nat) (after : Text)
    {m : Match} (h : (hitsFrom p before pos 0 after).head? = some m) :
    pos ≤ m.start.pos ∧ m.start.pos < m.stop.pos := by
  induction after generalizing before pos with
  | nil =>
    rw [hitsFrom_nil hp] at h
    cases h
  | cons a r ih =>
    rw [hitsFrom_cons hp] at h
    cases hm : p.matchAt? ⟨before, a :: r, pos⟩ with
    | none =>
      rw [hm] at h
      have := ih (a :: before) (pos + 1) h
      omega
    | some m' =>
      rw [hm] at h
      cases h
      obtain ⟨hstart, htakes⟩ := takes_of_matchAt? hm
      have hprogress := hp _ _ _ _ htakes
      rw [hstart]
      exact ⟨Nat.le_refl _, hprogress⟩

/-- A character before the first match goes to the gap before it. -/
theorem weave_cons (pos : Nat) (a : Char) (r : Text) (ms : List Match)
    (hms : ∀ m, ms.head? = some m → pos < m.start.pos ∧ m.start.pos < m.stop.pos) :
    ∃ g rest, weave (pos + 1) r ms = .gap g :: rest ∧
      weave pos (a :: r) ms = .gap (a :: g) :: rest := by
  cases ms with
  | nil => exact ⟨r, [], rfl, rfl⟩
  | cons m ms =>
    obtain ⟨hstart, hstop⟩ := hms m rfl
    refine ⟨r.take (m.start.pos - (pos + 1)), _, rfl, ?_⟩
    rw [weave, show m.start.pos - pos = m.start.pos - (pos + 1) + 1 by omega,
      show m.stop.pos - pos = m.stop.pos - (pos + 1) + 1 by omega]
    rfl

/-- The segments of the text behind a cursor are cut by a walk. -/
theorem cuts_weave {p : Pattern} (hp : IsSolid p) (n : Nat) (before after : Text) (pos : Nat)
    (hn : after.length ≤ n) :
    Cuts p ⟨before, after, pos⟩ (weave pos after (hitsFrom p before pos 0 after)) := by
  induction n generalizing before after pos with
  | zero =>
    have hafter : after = [] := by simpa using hn
    subst hafter
    rw [hitsFrom_nil hp]
    exact .stop rfl
  -- The induction is on a bound for the text that is left, as a match takes more than one character
  -- off it.
  | succ n ih =>
    cases after with
    | nil =>
      rw [hitsFrom_nil hp]
      exact .stop rfl
    | cons a r =>
      rw [List.length_cons] at hn
      rw [hitsFrom_cons hp]
      cases hm : p.matchAt? ⟨before, a :: r, pos⟩ with
      | none =>
        obtain ⟨g, rest, hrest, heq⟩ := weave_cons pos a r
          (hitsFrom p (a :: before) (pos + 1) 0 r) fun m h => by
            have := head?_hitsFrom hp _ _ _ h
            omega
        have hcuts := ih (a :: before) r (pos + 1) (by omega)
        rw [hrest] at hcuts
        dsimp only
        rw [heq]
        exact .pass (.one before a r pos) hm hcuts
      | some m =>
        obtain ⟨b, u, hu, -, -⟩ := exists_cons_reads_of_matchAt? hp hm
        have hlen := congrArg List.length hu.after_eq
        rw [List.length_cons, List.length_append, List.length_cons] at hlen
        dsimp only
        rw [weave, matchAt?_start hm, Nat.sub_self, hu.drop_eq]
        exact .hit hm (ih m.stop.before m.stop.after m.stop.pos (by omega))

/-- The segments of a text are cut by a walk from its start. -/
theorem cuts_segments {p : Pattern} (hp : IsSolid p) (t : Text) :
    Cuts p (Cursor.start t) (p.segments t) :=
  cuts_weave hp t.length [] t 0 (Nat.le_refl _)

/-- The segments of a text make it up. -/
theorem flatten_segments {p : Pattern} (hp : IsSolid p) (t : Text) :
    (p.segments t).flatMap Segment.text = t :=
  (cuts_segments hp t).flatten

/-- The matches among some segments. -/
def hitsOf (segments : List Segment) : List Match :=
  segments.filterMap (fun s => match s with
    | .gap _ => none
    | .hit m => some m)

/-- A match among the segments of the text behind a cursor starts there or later. -/
theorem Cuts.pos_le {p : Pattern} {c : Cursor} {segments : List Segment} {m : Match}
    (h : Cuts p c segments) (hm : m ∈ hitsOf segments) : c.pos ≤ m.start.pos := by
  induction h with
  | stop => cases hm
  | pass hread _ _ ih => exact Nat.le_trans hread.pos_le (ih hm)
  | @hit c m' rest hmatch _ ih =>
    obtain ⟨hstart, htakes⟩ := takes_of_matchAt? hmatch
    rcases List.mem_cons.mp hm with rfl | hm
    · exact Nat.le_of_eq (congrArg Cursor.pos hstart.symm)
    · exact Nat.le_trans htakes.pos_le (ih hm)

/-- The matches among the segments are those the segments were made of. -/
theorem hitsOf_weave (pos : Nat) (t : Text) (ms : List Match) : hitsOf (weave pos t ms) = ms := by
  induction ms generalizing pos t with
  | nil => rfl
  | cons m ms ih => simpa [hitsOf, weave] using ih m.stop.pos (t.drop (m.stop.pos - pos))

/-- The matches in a text are those among its segments. -/
theorem hitsOf_segments (p : Pattern) (t : Text) : hitsOf (p.segments t) = p.hits t :=
  hitsOf_weave 0 t (p.hits t)

end CodeTidy.Pattern
