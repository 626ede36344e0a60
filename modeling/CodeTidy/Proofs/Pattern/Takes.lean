import CodeTidy.Pattern.Search

/-!
# `CodeTidy.Proofs.Pattern.Takes`: what a pattern takes

`Pattern.run?` walks a pattern with a continuation. `Pattern.Takes` says the
same without one: from which cursor to which cursor the pattern leads, and
what it remembers. The theorems:

* `isFaithful`: each answer of `run?` comes from a way to match, and each way to
  match passes over a stretch. Each constructor has its lemma in `IsFaithful`.
* `exists_takes_of_run?`: an answer of `run?` comes from a way to match.
* `isSome_run?_of_takes`: if some way to match leads to an answer, there is
  one. Which of several ways is taken, these two leave open.
* `Takes.reads`: a pattern passes over a stretch of the text, which
  `Cursor.Reads` names.
-/

set_option autoImplicit false

namespace CodeTidy

/-- The cursor `c'` is reached from `c` by passing over the stretch `u`. -/
structure Cursor.Reads (c : Cursor) (u : Text) (c' : Cursor) : Prop where
  after_eq : c.after = u ++ c'.after
  before_eq : c'.before = u.reverse ++ c.before
  pos_eq : c'.pos = c.pos + u.length

namespace Cursor.Reads

variable {c c' c'' : Cursor} {u v : Text}

/-- Nothing is passed over to stay where one is. -/
theorem refl (c : Cursor) : c.Reads [] c := ⟨rfl, rfl, rfl⟩

/-- Two stretches in a row are one. -/
theorem trans (h : c.Reads u c') (h' : c'.Reads v c'') : c.Reads (u ++ v) c'' where
  after_eq := by rw [h.after_eq, h'.after_eq, List.append_assoc]
  before_eq := by rw [h'.before_eq, h.before_eq, List.reverse_append, List.append_assoc]
  pos_eq := by rw [h'.pos_eq, h.pos_eq, List.length_append, Nat.add_assoc]

/-- One character, and the stretch after it. -/
theorem cons {a : Char} (h : c.Reads [a] c') (h' : c'.Reads u c'') : c.Reads (a :: u) c'' :=
  h.trans h'

/-- The next character is passed over by one step. -/
theorem one (before : Text) (a : Char) (r : Text) (pos : Nat) :
    (⟨before, a :: r, pos⟩ : Cursor).Reads [a] ⟨a :: before, r, pos + 1⟩ := ⟨rfl, rfl, rfl⟩

/-- Two cursors behind the same stretch are the same. -/
theorem unique (h : c.Reads u c') (h' : c.Reads u c'') : c' = c'' := by
  have hafter := h.after_eq.symm.trans h'.after_eq
  have hbefore := h.before_eq.trans h'.before_eq.symm
  have hpos := h.pos_eq.trans h'.pos_eq.symm
  cases c'
  cases c''
  simp_all

/-- The place never goes back. -/
theorem pos_le (h : c.Reads u c') : c.pos ≤ c'.pos := by
  rw [h.pos_eq]
  exact Nat.le_add_right _ _

/-- A cursor goes on by as much as is no longer left of the text. -/
theorem pos_add_length (h : c.Reads u c') :
    c.pos + c.after.length = c'.pos + c'.after.length := by
  rw [h.after_eq, h.pos_eq, List.length_append, Nat.add_assoc]

/-- The place moves on by the length of the stretch. -/
theorem length_eq (h : c.Reads u c') : c'.pos - c.pos = u.length := by
  rw [h.pos_eq]
  omega

/-- What is read is what stands between the positions. -/
theorem take_eq (h : c.Reads u c') : c.after.take (c'.pos - c.pos) = u := by
  rw [h.length_eq, h.after_eq, List.take_left]

/-- Behind the stretch stands what is left of the text. -/
theorem drop_eq (h : c.Reads u c') : c.after.drop (c'.pos - c.pos) = c'.after := by
  rw [h.length_eq, h.after_eq, List.drop_left]

/-- A stretch that was read can be split again. -/
theorem split (h : c.Reads (u ++ v) c'') :
    ∃ c', c.Reads u c' ∧ c'.Reads v c'' := by
  refine ⟨⟨u.reverse ++ c.before, v ++ c''.after, c.pos + u.length⟩, ⟨?_, rfl, rfl⟩, rfl, ?_, ?_⟩
  · rw [h.after_eq, List.append_assoc]
  · rw [h.before_eq, List.reverse_append, List.append_assoc]
  · rw [h.pos_eq, List.length_append, Nat.add_assoc]

/-- One step back from the end of a stretch. -/
theorem back {b : Char} (h : c.Reads (u ++ [b]) c') : c.Reads u c'.back := by
  obtain ⟨before, after, pos⟩ := c'
  have hbefore : before = b :: (u.reverse ++ c.before) := by
    simpa using h.before_eq
  have hpos : pos = c.pos + u.length + 1 := by simpa [Nat.add_assoc] using h.pos_eq
  subst hbefore
  refine ⟨?_, rfl, ?_⟩
  · simpa [Cursor.back] using h.after_eq
  · simp [Cursor.back, hpos]

end Cursor.Reads

/-- The next character is the stretch of length one. -/
theorem Cursor.next?_eq_some_iff {c c' : Cursor} {a : Char} :
    c.next? = some (a, c') ↔ c.Reads [a] c' := by
  obtain ⟨before, after, pos⟩ := c
  cases after with
  | nil =>
    simp only [Cursor.next?, reduceCtorEq, false_iff]
    intro h
    simpa using h.after_eq
  | cons b r =>
    simp only [Cursor.next?, Option.some.injEq, Prod.mk.injEq]
    constructor
    · rintro ⟨rfl, rfl⟩
      exact .one before b r pos
    · intro h
      have hafter := h.after_eq
      simp only [List.singleton_append, List.cons.injEq] at hafter
      obtain ⟨rfl, -⟩ := hafter
      exact ⟨rfl, (Cursor.Reads.one before b r pos).unique h⟩

namespace Pattern

/-- The relation of a step repeated any number of times; each round passes over something. -/
inductive Rounds (step : Cursor → Captures → Cursor → Captures → Prop) :
    Cursor → Captures → Cursor → Captures → Prop where
  | none (c : Cursor) (caps : Captures) : Rounds step c caps c caps
  | more {c c₁ c' : Cursor} {caps caps₁ caps' : Captures} (round : step c caps c₁ caps₁)
      (progress : c.pos < c₁.pos) (rest : Rounds step c₁ caps₁ c' caps') :
      Rounds step c caps c' caps'

/-- The relation of a step that gives at most one cursor. -/
def Follows (step : Cursor → Captures → Option (Cursor × Captures)) :
    Cursor → Captures → Cursor → Captures → Prop :=
  fun c caps c' caps' => step c caps = some (c', caps')

/-- The pattern leads from one cursor to another, and from one memory to another. -/
def Takes : Pattern → Cursor → Captures → Cursor → Captures → Prop
  | .empty, c, caps, c', caps' => c' = c ∧ caps' = caps
  | .one set, c, caps, c', caps' => ∃ a, set a = true ∧ c.Reads [a] c' ∧ caps' = caps
  | .both p q, c, caps, c', caps' =>
    ∃ c₁ caps₁, Takes p c caps c₁ caps₁ ∧ Takes q c₁ caps₁ c' caps'
  | .either p q, c, caps, c', caps' => Takes p c caps c' caps' ∨ Takes q c caps c' caps'
  | .run _ least set, c, caps, c', caps' =>
    ∃ u, u.all set = true ∧ least ≤ u.length ∧ c.Reads u c' ∧ caps' = caps
  | .star _ body, c, caps, c', caps' => Rounds (Takes body) c caps c' caps'
  | .rounds _ body, c, caps, c', caps' =>
    Rounds (Follows (fun c caps => run? body c caps first)) c caps c' caps'
  | .group n body, c, caps, c', caps' =>
    ∃ caps₁, Takes body c caps c' caps₁ ∧ caps' = (n, ⟨c, c'⟩) :: caps₁
  | .again n, c, caps, c', caps' =>
    ∃ capture, caps.lookup n = some capture ∧ c.Reads capture.text c' ∧ caps' = caps
  | .place condition, c, caps, c', caps' => condition c = true ∧ c' = c ∧ caps' = caps
  | .ahead body, c, caps, c', caps' =>
    c' = c ∧ ∃ c₁, run? body c caps first = some (c₁, caps')
  | .notAhead body, c, caps, c', caps' =>
    c' = c ∧ caps' = caps ∧ run? body c caps first = none

/-! ### Runs of characters -/

/-- The end of a run lies behind all characters of the set, and behind it comes another one. -/
theorem runEnd_spec (set : CharSet) (before : Text) (pos count : Nat) (after : Text) :
    ∃ u r, after = u ++ r ∧ u.all set = true ∧ r.head?.all (fun a => !set a) = true ∧
      runEnd set before pos count after =
        (count + u.length, ⟨u.reverse ++ before, r, pos + u.length⟩) := by
  induction after generalizing before pos count with
  | nil => exact ⟨[], [], by simp [runEnd]⟩
  | cons a r ih =>
    cases ha : set a with
    | false => exact ⟨[], a :: r, by simp [runEnd, ha]⟩
    | true =>
      obtain ⟨u, r', rfl, hu, hr, heq⟩ := ih (a :: before) (pos + 1) (count + 1)
      refine ⟨a :: u, r', rfl, by simp [ha, hu], hr, ?_⟩
      rw [runEnd, if_pos ha, heq]
      simp [Nat.add_assoc, Nat.add_comm 1]

/-- An answer while backing off comes from a cursor in the last part of the run. -/
theorem exists_reads_of_backOff {α : Type} {k : Cursor → Option α} {c far : Cursor} {u : Text}
    {n : Nat} {a : α} (hu : c.Reads u far) (hn : n ≤ u.length) (h : backOff k n far = some a) :
    ∃ v w c', u = v ++ w ∧ w.length ≤ n ∧ c.Reads v c' ∧ k c' = some a := by
  induction n generalizing u far with
  | zero => exact ⟨u, [], far, by simp, by simp, hu, h⟩
  | succ n ih =>
    rw [backOff] at h
    split at h
    · rename_i a' ha
      cases h
      exact ⟨u, [], far, by simp, by simp, hu, ha⟩
    · have hne : u ≠ [] := by
        rintro rfl
        simp at hn
      obtain ⟨u', b, rfl⟩ : ∃ u' b, u = u' ++ [b] := ⟨_, _, (List.dropLast_concat_getLast hne).symm⟩
      rw [List.length_append, List.length_singleton] at hn
      obtain ⟨v, w, c', rfl, hw, hv, hk⟩ := ih hu.back (by omega) h
      exact ⟨v, w ++ [b], c', by simp, by simpa using hw, hv, hk⟩

/-- Backing off finds an answer if there is one in the last part of the run. -/
theorem isSome_backOff {α : Type} {k : Cursor → Option α} {c c' far : Cursor} {v w : Text}
    {n : Nat} (hu : c.Reads (v ++ w) far) (hn : w.length ≤ n) (hv : c.Reads v c')
    (hk : (k c').isSome = true) : (backOff k n far).isSome = true := by
  induction n generalizing w far with
  | zero =>
    have hw : w = [] := by simpa using hn
    subst hw
    rw [List.append_nil] at hu
    rw [backOff, hu.unique hv]
    exact hk
  | succ n ih =>
    rw [backOff]
    split
    · rfl
    · rename_i hfar
      -- The far end has no answer, so at least one character is given back.
      have hne : w ≠ [] := by
        rintro rfl
        rw [List.append_nil] at hu
        rw [← hu.unique hv, hfar] at hk
        cases hk
      obtain ⟨w', b, rfl⟩ : ∃ w' b, w = w' ++ [b] :=
        ⟨_, _, (List.dropLast_concat_getLast hne).symm⟩
      rw [← List.append_assoc] at hu
      rw [List.length_append, List.length_singleton] at hn
      exact ih hu.back (by omega)

/-- The longest run that works is a run, and the continuation gives its answer behind it. -/
theorem exists_takes_of_runMost {α : Type} {set : CharSet} {least : Nat} {c : Cursor}
    {k : Cursor → Option α} {a : α} (h : runMost set least c k = some a) :
    ∃ u c', u.all set = true ∧ least ≤ u.length ∧ c.Reads u c' ∧ k c' = some a := by
  obtain ⟨before, after, pos⟩ := c
  obtain ⟨u, r, rfl, hu, -, heq⟩ := runEnd_spec set before pos 0 after
  have hreads : (⟨before, u ++ r, pos⟩ : Cursor).Reads u ⟨u.reverse ++ before, r, pos + u.length⟩ :=
    ⟨rfl, rfl, rfl⟩
  simp only [runMost, heq, Nat.zero_add] at h
  split at h
  · cases h
  · rename_i hleast
    obtain ⟨v, w, c', rfl, hw, hv, hk⟩ := exists_reads_of_backOff hreads (by omega) h
    rw [List.all_append, Bool.and_eq_true] at hu
    rw [List.length_append] at hw hleast
    exact ⟨v, c', hu.1, by omega, hv, hk⟩

/-- If some run works, one is found; the search goes back from the longest run, so it comes past
this one. -/
theorem isSome_runMost {α : Type} {set : CharSet} {least : Nat} {c c' : Cursor} {u : Text}
    {k : Cursor → Option α} (hu : u.all set = true) (hleast : least ≤ u.length)
    (hreads : c.Reads u c') (hk : (k c').isSome = true) :
    (runMost set least c k).isSome = true := by
  obtain ⟨before, after, pos⟩ := c
  obtain ⟨v, r, rfl, hv, hr, heq⟩ := runEnd_spec set before pos 0 after
  have hfar : (⟨before, v ++ r, pos⟩ : Cursor).Reads v ⟨v.reverse ++ before, r, pos + v.length⟩ :=
    ⟨rfl, rfl, rfl⟩
  -- The stretch `u` cannot go beyond the longest run `v`.
  obtain ⟨w, rfl⟩ : ∃ w, v = u ++ w := by
    have happ : v ++ r = u ++ c'.after := hreads.after_eq
    rcases List.append_eq_append_iff.mp happ with ⟨w, rfl, hw⟩ | ⟨w, rfl, -⟩
    · cases w with
      | nil => exact ⟨[], by simp⟩
      | cons b w =>
        subst hw
        simp [List.all_append] at hu hr
        simp_all
    · exact ⟨w, rfl⟩
  simp only [runMost, heq, Nat.zero_add]
  have hlen : (u ++ w).length = u.length + w.length := List.length_append
  have hw : w.length ≤ (u ++ w).length - least := by omega
  rw [if_neg (by omega)]
  exact isSome_backOff hfar hw hreads hk

/-- The shortest run that works is a run, and the continuation gives its answer behind it. -/
theorem exists_takes_of_runLeast {α : Type} {set : CharSet} {k : Cursor → Option α} {least : Nat}
    {before after : Text} {pos : Nat} {a : α} (h : runLeast set k least before pos after = some a) :
    ∃ u c', u.all set = true ∧ least ≤ u.length ∧ (⟨before, after, pos⟩ : Cursor).Reads u c' ∧
      k c' = some a := by
  induction after generalizing least before pos with
  | nil =>
    cases least with
    | zero => exact ⟨[], _, rfl, Nat.le_refl _, .refl _, h⟩
    | succ n => cases h
  | cons b r ih =>
    cases least with
    | zero =>
      rw [runLeast] at h
      split at h
      · rename_i hk
        cases h
        exact ⟨[], _, rfl, Nat.le_refl _, .refl _, hk⟩
      · -- Behind enough characters the continuation is asked first, and one more is taken only if
        -- it has no answer.
        split at h
        · rename_i hb
          obtain ⟨u, c', hu, -, hreads, hk⟩ := ih h
          exact ⟨b :: u, c', by simp [hb, hu], by simp, (Cursor.Reads.one ..).cons hreads, hk⟩
        · cases h
    | succ n =>
      rw [runLeast] at h
      split at h
      · rename_i hb
        obtain ⟨u, c', hu, hn, hreads, hk⟩ := ih h
        exact ⟨b :: u, c', by simp [hb, hu], by simpa using hn,
          (Cursor.Reads.one ..).cons hreads, hk⟩
      · cases h

/-- If some run works, one is found; the search goes on from the shortest run, so it comes past this
one. -/
theorem isSome_runLeast {α : Type} {set : CharSet} {k : Cursor → Option α} {least : Nat}
    {before after : Text} {pos : Nat} {u : Text} {c' : Cursor} (hu : u.all set = true)
    (hleast : least ≤ u.length) (hreads : (⟨before, after, pos⟩ : Cursor).Reads u c')
    (hk : (k c').isSome = true) : (runLeast set k least before pos after).isSome = true := by
  induction u generalizing least before pos after with
  | nil =>
    have hc : (⟨before, after, pos⟩ : Cursor) = c' := (Cursor.Reads.refl _).unique hreads
    subst hc
    have hzero : least = 0 := by simpa using hleast
    subst hzero
    cases after with
    | nil => exact hk
    | cons b r =>
      rw [runLeast]
      split
      · rfl
      · simp_all
  | cons b u ih =>
    have hafter : after = b :: (u ++ c'.after) := hreads.after_eq
    subst hafter
    obtain ⟨c₁, hb, hrest⟩ := Cursor.Reads.split (u := [b]) hreads
    have hc₁ := hb.unique (Cursor.Reads.one before b (u ++ c'.after) pos)
    subst hc₁
    simp only [List.all_cons, Bool.and_eq_true] at hu
    -- With enough characters passed, the continuation is tried before the next one is taken.
    cases least with
    | zero =>
      rw [runLeast]
      split
      · rfl
      · rw [if_pos hu.1]
        exact ih hu.2 (Nat.zero_le _) hrest
    | succ n =>
      rw [runLeast, if_pos hu.1]
      exact ih hu.2 (by simpa using hleast) hrest

/-! ### Repetitions of a pattern -/

/-- Rounds of a step are rounds of any step that allows more. -/
theorem Rounds.mono {step step' : Cursor → Captures → Cursor → Captures → Prop}
    (hstep : ∀ c caps c' caps', step c caps c' caps' → step' c caps c' caps') {c c' : Cursor}
    {caps caps' : Captures} (h : Rounds step c caps c' caps') : Rounds step' c caps c' caps' := by
  induction h with
  | none c caps => exact .none c caps
  | more round progress _ ih => exact .more (hstep _ _ _ _ round) progress ih

/-- Rounds pass over a stretch, if each of them does. -/
theorem Rounds.reads {step : Cursor → Captures → Cursor → Captures → Prop}
    (hstep : ∀ c caps c' caps', step c caps c' caps' → ∃ u, c.Reads u c') {c c' : Cursor}
    {caps caps' : Captures} (h : Rounds step c caps c' caps') : ∃ u, c.Reads u c' := by
  induction h with
  | none c => exact ⟨[], .refl c⟩
  | more round _ _ ih =>
    obtain ⟨u, hu⟩ := hstep _ _ _ _ round
    obtain ⟨v, hv⟩ := ih
    exact ⟨u ++ v, hu.trans hv⟩

/-- A way to match that gives its continuation only what the relation allows. -/
def Sound {α : Type} (way : Way α) (step : Cursor → Captures → Cursor → Captures → Prop) : Prop :=
  ∀ c caps k a, way c caps k = some a → ∃ c' caps', step c caps c' caps' ∧ k c' caps' = some a

/-- A way to match that finds an answer whenever the relation leads to one. -/
def Complete {α : Type} (way : Way α) (step : Cursor → Captures → Cursor → Captures → Prop) :
    Prop :=
  ∀ c caps k c' caps', step c caps c' caps' → (k c' caps').isSome = true →
    (way c caps k).isSome = true

section Star

variable {α : Type} {way : Way α} {step : Cursor → Captures → Cursor → Captures → Prop}
  {k : Cursor → Captures → Option α}

/-- A repetition that goes as far as it can gives an answer only behind some rounds. -/
theorem exists_rounds_of_starMost (hway : Sound way step) {left : Text} {c : Cursor}
    {caps : Captures} {a : α} (h : starMost way k left c caps = some a) :
    ∃ c' caps', Rounds step c caps c' caps' ∧ k c' caps' = some a := by
  induction left generalizing c caps with
  | nil => exact ⟨c, caps, .none c caps, h⟩
  | cons _ left ih =>
    rw [starMost] at h
    split at h
    · rename_i a' ha
      cases h
      obtain ⟨c₁, caps₁, hround, hk⟩ := hway _ _ _ _ ha
      split at hk
      · rename_i hprogress
        obtain ⟨c', caps', hrest, hk'⟩ := ih hk
        exact ⟨c', caps', .more hround hprogress hrest, hk'⟩
      · cases hk
    · exact ⟨c, caps, .none c caps, h⟩

/-- A repetition that stops as soon as it can gives an answer only behind some rounds. -/
theorem exists_rounds_of_starLeast (hway : Sound way step) {left : Text} {c : Cursor}
    {caps : Captures} {a : α} (h : starLeast way k left c caps = some a) :
    ∃ c' caps', Rounds step c caps c' caps' ∧ k c' caps' = some a := by
  induction left generalizing c caps with
  | nil => exact ⟨c, caps, .none c caps, h⟩
  | cons _ left ih =>
    rw [starLeast] at h
    split at h
    · rename_i hk
      cases h
      exact ⟨c, caps, .none c caps, hk⟩
    · obtain ⟨c₁, caps₁, hround, hk⟩ := hway _ _ _ _ h
      split at hk
      · rename_i hprogress
        obtain ⟨c', caps', hrest, hk'⟩ := ih hk
        exact ⟨c', caps', .more hround hprogress hrest, hk'⟩
      · cases hk

/-- The text that is left bounds the rounds, as each passes over a character. -/
theorem isSome_starMost (hway : Complete way step)
    (hreads : ∀ c caps c' caps', step c caps c' caps' → ∃ u, c.Reads u c') {left : Text}
    {c c' : Cursor} {caps caps' : Captures} (h : Rounds step c caps c' caps')
    (hleft : c.after.length ≤ left.length) (hk : (k c' caps').isSome = true) :
    (starMost way k left c caps).isSome = true := by
  induction h generalizing left with
  | none c caps =>
    cases left with
    | nil => exact hk
    | cons b left =>
      rw [starMost]
      split
      · rfl
      · exact hk
  | @more c c₁ c' caps caps₁ caps' round progress rest ih =>
    obtain ⟨u, hu⟩ := hreads _ _ _ _ round
    have hleftover := hu.pos_add_length
    cases left with
    | nil =>
      rw [List.length_nil] at hleft
      omega
    | cons b left =>
      rw [List.length_cons] at hleft
      -- A round that makes progress leaves less text, so the bound is large enough for the rounds
      -- behind it.
      have hnext : (way c caps (fun c' caps' =>
          if c.pos < c'.pos then starMost way k left c' caps' else none)).isSome = true := by
        refine hway _ _ _ _ _ round ?_
        rw [if_pos progress]
        exact ih (by omega) hk
      rw [starMost]
      obtain ⟨a, ha⟩ := Option.isSome_iff_exists.mp hnext
      rw [ha]
      rfl

/-- If some rounds lead to an answer, a repetition that stops as soon as it can finds one. -/
theorem isSome_starLeast (hway : Complete way step)
    (hreads : ∀ c caps c' caps', step c caps c' caps' → ∃ u, c.Reads u c') {left : Text}
    {c c' : Cursor} {caps caps' : Captures} (h : Rounds step c caps c' caps')
    (hleft : c.after.length ≤ left.length) (hk : (k c' caps').isSome = true) :
    (starLeast way k left c caps).isSome = true := by
  induction h generalizing left with
  | none c caps =>
    -- Each round moves on, so the text that bounds the repetition does not run out first.
    cases left with
    | nil => exact hk
    | cons b left =>
      rw [starLeast]
      split
      · rfl
      · simp_all
  | @more c c₁ c' caps caps₁ caps' round progress rest ih =>
    obtain ⟨u, hu⟩ := hreads _ _ _ _ round
    have hleftover := hu.pos_add_length
    cases left with
    | nil =>
      rw [List.length_nil] at hleft
      omega
    | cons b left =>
      rw [List.length_cons] at hleft
      rw [starLeast]
      split
      · rfl
      · refine hway _ _ _ _ _ round ?_
        rw [if_pos progress]
        exact ih (by omega) hk

end Star

section RoundsOfFirst

variable {α : Type} {step : Cursor → Captures → Option (Cursor × Captures)}

/-- From a cursor at which no further round makes progress only that cursor is reached. -/
theorem rounds_of_stuck {c c' : Cursor} {caps caps' : Captures}
    (hstop : ∀ c₁ caps₁, Follows step c caps c₁ caps₁ → ¬c.pos < c₁.pos) :
    Rounds (Follows step) c caps c' caps' ↔ (c', caps') = (c, caps) := by
  constructor
  · intro h
    cases h with
    | none => rfl
    | more round progress _ => exact absurd progress (hstop _ _ round)
  · intro h
    cases h
    exact .none c caps

/-- From a cursor at which a round makes progress that cursor is reached, and those after it. -/
theorem rounds_of_step {c c₁ c' : Cursor} {caps caps₁ caps' : Captures}
    (hstep : step c caps = some (c₁, caps₁)) (progress : c.pos < c₁.pos) :
    Rounds (Follows step) c caps c' caps' ↔
      (c', caps') = (c, caps) ∨ Rounds (Follows step) c₁ caps₁ c' caps' := by
  constructor
  · intro h
    cases h with
    | none => exact .inl rfl
    | more round _ rest =>
      rw [Follows, hstep] at round
      cases round
      exact .inr rest
  · rintro (h | h)
    · cases h
      exact .none c caps
    · exact .more hstep progress h

/-- The places listed are those that rounds lead to. -/
theorem mem_roundEnds_iff {left : Text} {c : Cursor} {caps : Captures}
    {seen : List (Cursor × Captures)} {e : Cursor × Captures}
    (hreads : ∀ c caps c' caps', Follows step c caps c' caps' → ∃ u, c.Reads u c')
    (hleft : c.after.length ≤ left.length) :
    e ∈ roundEnds step left c caps seen ↔ e ∈ seen ∨ Rounds (Follows step) c caps e.1 e.2 := by
  induction left generalizing c caps seen with
  | nil =>
    have hstop : ∀ c₁ caps₁, Follows step c caps c₁ caps₁ → ¬c.pos < c₁.pos := by
      intro c₁ caps₁ hround
      -- Nothing is left of the text that a round could pass over.
      obtain ⟨u, hu⟩ := hreads _ _ _ _ hround
      have hleftover := hu.pos_add_length
      rw [List.length_nil] at hleft
      omega
    rw [roundEnds, List.mem_cons, rounds_of_stuck hstop, or_comm]
  | cons b left ih =>
    rw [roundEnds]
    split
    · rename_i hnone
      have hstop : ∀ c₁ caps₁, Follows step c caps c₁ caps₁ → ¬c.pos < c₁.pos := by
        intro c₁ caps₁ hround
        rw [Follows, hnone] at hround
        cases hround
      rw [List.mem_cons, rounds_of_stuck hstop, or_comm]
    · rename_i c₁ caps₁ hsome
      split
      · rename_i progress
        obtain ⟨u, hu⟩ := hreads _ _ _ _ hsome
        have hleftover := hu.pos_add_length
        rw [List.length_cons] at hleft
        rw [ih (by omega), rounds_of_step hsome progress, List.mem_cons, or_comm (a := e = _),
          or_assoc]
      · rename_i hstuck
        have hstop : ∀ c₂ caps₂, Follows step c caps c₂ caps₂ → ¬c.pos < c₂.pos := by
          intro c₂ caps₂ hround
          rw [Follows, hsome] at hround
          cases hround
          exact hstuck
        rw [List.mem_cons, rounds_of_stuck hstop, or_comm]

variable {k : Cursor → Captures → Option α}

/-- Rounds that are taken one way only give an answer only behind some of them. -/
theorem exists_rounds_of_roundsLeast {left : Text} {c : Cursor} {caps : Captures} {a : α}
    (h : roundsLeast step k left c caps = some a) :
    ∃ c' caps', Rounds (Follows step) c caps c' caps' ∧ k c' caps' = some a := by
  induction left generalizing c caps with
  | nil => exact ⟨c, caps, .none c caps, h⟩
  | cons b left ih =>
    rw [roundsLeast] at h
    split at h
    · rename_i hk
      cases h
      exact ⟨c, caps, .none c caps, hk⟩
    · split at h
      · cases h
      · rename_i c₁ caps₁ hstep
        split at h
        · rename_i progress
          obtain ⟨c', caps', hrest, hk⟩ := ih h
          exact ⟨c', caps', .more hstep progress hrest, hk⟩
        · cases h

/-- If some rounds lead to an answer, those that are taken one way only lead to one. -/
theorem isSome_roundsLeast
    (hreads : ∀ c caps c' caps', Follows step c caps c' caps' → ∃ u, c.Reads u c') {left : Text}
    {c c' : Cursor} {caps caps' : Captures} (h : Rounds (Follows step) c caps c' caps')
    (hleft : c.after.length ≤ left.length) (hk : (k c' caps').isSome = true) :
    (roundsLeast step k left c caps).isSome = true := by
  induction h generalizing left with
  | none c caps =>
    -- Each round moves on, so the text that bounds the repetition does not run out first.
    cases left with
    | nil => exact hk
    | cons b left =>
      rw [roundsLeast]
      split
      · rfl
      · simp_all
  | @more c c₁ c' caps caps₁ caps' round progress rest ih =>
    obtain ⟨u, hu⟩ := hreads _ _ _ _ round
    have hleftover := hu.pos_add_length
    cases left with
    | nil =>
      rw [List.length_nil] at hleft
      omega
    | cons b left =>
      rw [List.length_cons] at hleft
      rw [roundsLeast, show step c caps = some (c₁, caps₁) from round]
      split
      · rfl
      · dsimp only
        rw [if_pos progress]
        exact ih (by omega) hk

end RoundsOfFirst

/-! ### The two directions -/

/-- A text that has been passed over is the stretch. -/
theorem exists_reads_of_passText {t : Text} {c c' : Cursor} (h : passText t c = some c') :
    c.Reads t c' := by
  induction t generalizing c with
  | nil =>
    cases h
    exact .refl _
  | cons a r ih =>
    obtain ⟨before, after, pos⟩ := c
    cases after with
    | nil => cases h
    | cons b rest =>
      simp only [passText] at h
      split at h
      · rename_i hab
        rw [beq_iff_eq] at hab
        subst hab
        exact (Cursor.Reads.one ..).cons (ih h)
      · cases h

/-- A stretch is passed over as that text. -/
theorem passText_of_reads {t : Text} {c c' : Cursor} (h : c.Reads t c') :
    passText t c = some c' := by
  induction t generalizing c with
  | nil => rw [passText, (Cursor.Reads.refl c).unique h]
  | cons a r ih =>
    obtain ⟨before, after, pos⟩ := c
    have hafter : after = a :: (r ++ c'.after) := h.after_eq
    subst hafter
    obtain ⟨c₁, ha, hrest⟩ := Cursor.Reads.split (u := [a]) h
    have hc₁ := ha.unique (Cursor.Reads.one before a (r ++ c'.after) pos)
    subst hc₁
    simp only [passText, beq_self_eq_true, if_true]
    exact ih hrest

/-- Each answer comes from a way to match, and each way to match passes over a stretch. The two go
together, as what a round of `rounds` passes over is known from its first answer. -/
structure IsFaithful (p : Pattern) : Prop where
  sound : ∀ α, Sound (fun c caps (k : Cursor → Captures → Option α) => run? p c caps k) (Takes p)
  reads : ∀ c caps c' caps', Takes p c caps c' caps' → ∃ u, c.Reads u c'

namespace IsFaithful

variable {p q body : Pattern}

/-- Nothing is matched by staying where one is. -/
theorem empty : IsFaithful .empty where
  sound α c caps k a h := ⟨c, caps, ⟨rfl, rfl⟩, h⟩
  reads := by
    rintro c caps c' caps' ⟨rfl, rfl⟩
    exact ⟨[], .refl _⟩

/-- A character is matched by passing over it. -/
theorem one (set : CharSet) : IsFaithful (.one set) where
  sound := by
    intro α c caps k a h
    simp only [run?] at h
    split at h
    · cases h
    · rename_i b c' hnext
      split at h
      · rename_i hb
        exact ⟨c', caps, ⟨b, hb, Cursor.next?_eq_some_iff.mp hnext, rfl⟩, h⟩
      · cases h
  reads := by
    rintro c caps c' caps' ⟨b, -, hreads, -⟩
    exact ⟨[b], hreads⟩

/-- The second pattern goes on from where the first one has led. -/
theorem both (hp : p.IsFaithful) (hq : q.IsFaithful) : IsFaithful (.both p q) where
  sound := by
    intro α c caps k a h
    obtain ⟨c₁, caps₁, htakes, hk⟩ := hp.sound α _ _ _ _ h
    obtain ⟨c', caps', htakes', hk'⟩ := hq.sound α _ _ _ _ hk
    exact ⟨c', caps', ⟨c₁, caps₁, htakes, htakes'⟩, hk'⟩
  reads := by
    rintro c caps c' caps' ⟨c₁, caps₁, htakes, htakes'⟩
    obtain ⟨u, hu⟩ := hp.reads _ _ _ _ htakes
    obtain ⟨v, hv⟩ := hq.reads _ _ _ _ htakes'
    exact ⟨u ++ v, hu.trans hv⟩

/-- The answer is one of the first pattern, or else one of the second. -/
theorem either (hp : p.IsFaithful) (hq : q.IsFaithful) : IsFaithful (.either p q) where
  sound := by
    intro α c caps k a h
    simp only [run?] at h
    split at h
    · rename_i a' ha
      cases h
      obtain ⟨c', caps', htakes, hk⟩ := hp.sound α _ _ _ _ ha
      exact ⟨c', caps', .inl htakes, hk⟩
    · obtain ⟨c', caps', htakes, hk⟩ := hq.sound α _ _ _ _ h
      exact ⟨c', caps', .inr htakes, hk⟩
  reads := by
    rintro c caps c' caps' (h | h)
    · exact hp.reads _ _ _ _ h
    · exact hq.reads _ _ _ _ h

/-- A run is matched by a stretch of the set that is long enough. -/
theorem run (appetite : Appetite) (least : Nat) (set : CharSet) :
    IsFaithful (.run appetite least set) where
  sound := by
    intro α c caps k a h
    cases appetite with
    | most =>
      obtain ⟨u, c', hu, hleast, hreads, hk⟩ := exists_takes_of_runMost h
      exact ⟨c', caps, ⟨u, hu, hleast, hreads, rfl⟩, hk⟩
    | least =>
      obtain ⟨u, c', hu, hleast, hreads, hk⟩ := exists_takes_of_runLeast h
      exact ⟨c', caps, ⟨u, hu, hleast, hreads, rfl⟩, hk⟩
  reads := by
    rintro c caps c' caps' ⟨u, -, -, hreads, -⟩
    exact ⟨u, hreads⟩

/-- A repetition is matched by rounds of its body. -/
theorem star (appetite : Appetite) (h : body.IsFaithful) : IsFaithful (.star appetite body) where
  sound := by
    intro α c caps k a hrun
    cases appetite with
    | most => exact exists_rounds_of_starMost (h.sound α) hrun
    | least => exact exists_rounds_of_starLeast (h.sound α) hrun
  reads c caps c' caps' htakes := htakes.reads h.reads

/-- A round goes on from the first answer of its body, which comes from a way to match. -/
theorem reads_of_follows (h : body.IsFaithful) (c : Cursor) (caps : Captures) (c' : Cursor)
    (caps' : Captures) (hround : Follows (fun c caps => run? body c caps first) c caps c' caps') :
    ∃ u, c.Reads u c' := by
  obtain ⟨c₁, caps₁, htakes, hfirst⟩ := h.sound _ _ _ _ _ hround
  cases hfirst
  exact h.reads _ _ _ _ htakes

/-- A repetition without going back is matched by rounds that take the first way of the body. -/
theorem rounds (appetite : Appetite) (h : body.IsFaithful) :
    IsFaithful (.rounds appetite body) where
  sound := by
    intro α c caps k a hrun
    cases appetite with
    | most =>
      obtain ⟨⟨c', caps'⟩, hmem, hk⟩ := List.exists_of_findSome?_eq_some hrun
      rw [mem_roundEnds_iff h.reads_of_follows (Nat.le_refl _)] at hmem
      rcases hmem with hmem | hmem
      · cases hmem
      · exact ⟨c', caps', hmem, hk⟩
    | least => exact exists_rounds_of_roundsLeast hrun
  reads c caps c' caps' htakes := htakes.reads h.reads_of_follows

/-- A group is matched as its body, and remembers the stretch. -/
theorem group (n : Nat) (h : body.IsFaithful) : IsFaithful (.group n body) where
  sound := by
    intro α c caps k a hrun
    obtain ⟨c', caps₁, hbody, hk⟩ := h.sound α _ _ _ _ hrun
    exact ⟨c', _, ⟨caps₁, hbody, rfl⟩, hk⟩
  reads := by
    rintro c caps c' caps' ⟨caps₁, hbody, -⟩
    exact h.reads _ _ _ _ hbody

/-- A group that is repeated is matched by its text. -/
theorem again (n : Nat) : IsFaithful (.again n) where
  sound := by
    intro α c caps k a h
    simp only [run?] at h
    split at h
    · cases h
    · rename_i capture hcapture
      split at h
      · cases h
      · rename_i c' hc'
        exact ⟨c', caps, ⟨capture, hcapture, exists_reads_of_passText hc', rfl⟩, h⟩
  reads := by
    rintro c caps c' caps' ⟨capture, -, hreads, -⟩
    exact ⟨_, hreads⟩

/-- A condition is matched by staying where it holds. -/
theorem place (condition : Cursor → Bool) : IsFaithful (.place condition) where
  sound := by
    intro α c caps k a h
    simp only [run?] at h
    split at h
    · rename_i hcondition
      exact ⟨c, caps, ⟨hcondition, rfl, rfl⟩, h⟩
    · cases h
  reads := by
    rintro c caps c' caps' ⟨-, rfl, -⟩
    exact ⟨[], .refl _⟩

/-- What is looked at ahead is not passed over, so nothing has to be known of the body. -/
theorem ahead (body : Pattern) : IsFaithful (.ahead body) where
  sound := by
    intro α c caps k a h
    simp only [run?] at h
    split at h
    · cases h
    · rename_i c₁ caps₁ hbody
      exact ⟨c, caps₁, ⟨rfl, c₁, hbody⟩, h⟩
  reads := by
    rintro c caps c' caps' ⟨rfl, -⟩
    exact ⟨[], .refl _⟩

/-- To look for what must not come next is to stay where the body has no way. -/
theorem notAhead (body : Pattern) : IsFaithful (.notAhead body) where
  sound := by
    intro α c caps k a h
    simp only [run?] at h
    split at h
    · rename_i hbody
      exact ⟨c, caps, ⟨rfl, rfl, hbody⟩, h⟩
    · cases h
  reads := by
    rintro c caps c' caps' ⟨rfl, -⟩
    exact ⟨[], .refl _⟩

end IsFaithful

/-- Every pattern is faithful: one lemma for each way to put patterns together. -/
theorem isFaithful (p : Pattern) : p.IsFaithful := by
  induction p with
  | empty => exact .empty
  | one set => exact .one set
  | both p q ihp ihq => exact ihp.both ihq
  | either p q ihp ihq => exact ihp.either ihq
  | run appetite least set => exact .run appetite least set
  | star appetite body ih => exact ih.star appetite
  | rounds appetite body ih => exact ih.rounds appetite
  | group n body ih => exact ih.group n
  | again n => exact .again n
  | place condition => exact .place condition
  | ahead body => exact .ahead body
  | notAhead body => exact .notAhead body

/-- An answer comes from a way to match. -/
theorem exists_takes_of_run? {α : Type} {p : Pattern} {c : Cursor} {caps : Captures}
    {k : Cursor → Captures → Option α} {a : α} (h : run? p c caps k = some a) :
    ∃ c' caps', Takes p c caps c' caps' ∧ k c' caps' = some a :=
  p.isFaithful.sound α c caps k a h

/-- A pattern passes over a stretch of the text. -/
theorem Takes.reads {p : Pattern} {c c' : Cursor} {caps caps' : Captures}
    (h : Takes p c caps c' caps') : ∃ u, c.Reads u c' :=
  p.isFaithful.reads c caps c' caps' h

/-- If some way to match leads to an answer, there is an answer. -/
theorem isSome_run?_of_takes {α : Type} {p : Pattern} {c c' : Cursor} {caps caps' : Captures}
    {k : Cursor → Captures → Option α} (h : Takes p c caps c' caps')
    (hk : (k c' caps').isSome = true) : (run? p c caps k).isSome = true := by
  induction p generalizing α c c' caps caps' k with
  | empty =>
    obtain ⟨rfl, rfl⟩ := h
    exact hk
  | one set =>
    obtain ⟨b, hb, hreads, rfl⟩ := h
    simp only [run?, Cursor.next?_eq_some_iff.mpr hreads, hb, if_true]
    exact hk
  | both p q ihp ihq =>
    obtain ⟨c₁, caps₁, hp, hq⟩ := h
    exact ihp hp (ihq hq hk)
  | either p q ihp ihq =>
    simp only [run?]
    split
    · -- The first way has an answer of its own, whichever way was given.
      rfl
    · rename_i hnone
      rcases h with h | h
      · have := ihp h hk
        rw [hnone] at this
        cases this
      · exact ihq h hk
  | run appetite least set =>
    obtain ⟨u, hu, hleast, hreads, rfl⟩ := h
    cases appetite with
    | most => exact isSome_runMost hu hleast hreads hk
    | least => exact isSome_runLeast hu hleast hreads hk
  | star appetite body ih =>
    have hcomplete : Complete (fun c caps (k : Cursor → Captures → Option α) => run? body c caps k)
        (Takes body) := fun _ _ _ _ _ hbody hk => ih hbody hk
    have hreads := body.isFaithful.reads
    cases appetite with
    | most => exact isSome_starMost hcomplete hreads h (Nat.le_refl _) hk
    | least => exact isSome_starLeast hcomplete hreads h (Nat.le_refl _) hk
  | rounds appetite body ih =>
    have hreads := body.isFaithful.reads_of_follows
    cases appetite with
    | most =>
      have hmem :
        (c', caps') ∈ roundEnds (fun c caps => run? body c caps first) c.after c caps [] :=
        (mem_roundEnds_iff hreads (Nat.le_refl _)).mpr (.inr h)
      simp only [run?, List.findSome?_isSome_iff]
      exact ⟨_, hmem, hk⟩
    | least => exact isSome_roundsLeast hreads h (Nat.le_refl _) hk
  | group n body ih =>
    obtain ⟨caps₁, hbody, rfl⟩ := h
    exact ih hbody hk
  | again n =>
    obtain ⟨capture, hcapture, hreads, rfl⟩ := h
    simp only [run?, hcapture, passText_of_reads hreads]
    exact hk
  | place condition =>
    obtain ⟨hcondition, rfl, rfl⟩ := h
    simp only [run?, hcondition, if_true]
    exact hk
  | ahead body ih =>
    obtain ⟨rfl, c₁, hbody⟩ := h
    simp only [run?, hbody]
    exact hk
  | notAhead body ih =>
    obtain ⟨rfl, rfl, hbody⟩ := h
    simp only [run?, hbody]
    exact hk

end Pattern

end CodeTidy
