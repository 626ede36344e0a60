import CodeTidy.Proofs.Pattern.Cuts
import CodeTidy.Proofs.Text.Tables

/-!
# `CodeTidy.Proofs.Pattern.Shapes`: what the composed patterns take

Patterns are written with `text`, `anyCase`, `oneOf` and the names of
character runs. Each of them has a lemma here that says which stretch of the
text it passes over, so that a proof about a rule never opens these
definitions. The theorems:

* `takes_text_iff`, `takes_anyCase`, `takes_oneOf`, `takes_opt`: the stretch that
  such a pattern passes over.
* `run?_many_of_total`: a run of characters in front of nothing else goes as
  far as it can.
* `run?_eq_bind`, `run?_restOfLine`, `run?_either`, `run?_opening`, `run?_pair`:
  what composed patterns answer.
* `roundEnds_stop`, `roundEnds_more`: what the rounds of a repetition do one by
  one.
* `run?_rounds_of_total`: rounds in front of nothing else go on as long as they
  can.
-/

set_option autoImplicit false

namespace CodeTidy

/-- A cursor that something was read from stands before the first character of it. -/
theorem Cursor.Reads.precedes {c c' : Cursor} {a : Char} {u : Text} (h : c.Reads (a :: u) c')
    (set : Char → Bool) : c.precedes set = set a := by
  rw [Cursor.precedes, h.after_eq]
  rfl

/-- A cursor that something was read up to stands behind the last character of it. -/
theorem Cursor.Reads.follows {c c' : Cursor} {a : Char} {u : Text} (h : c.Reads (u ++ [a]) c')
    (set : Char → Bool) : c'.follows set = set a := by
  rw [Cursor.follows, h.before_eq, List.reverse_append]
  rfl

/-- The cursor behind the stretch `u`. -/
def Cursor.behind (c : Cursor) (u : Text) : Cursor :=
  ⟨u.reverse ++ c.before, c.after.drop u.length, c.pos + u.length⟩

/-- A stretch leads to one place, the one behind it. -/
theorem Cursor.Reads.eq_behind {c c' : Cursor} {u : Text} (h : c.Reads u c') : c' = c.behind u := by
  obtain ⟨before, after, pos⟩ := c'
  rw [Cursor.behind, ← h.before_eq, ← h.pos_eq, h.after_eq, List.drop_left]

/-- The cursor moves over what the text goes on with. -/
theorem Cursor.reads_behind {c : Cursor} {u : Text} (h : u <+: c.after) :
    c.Reads u (c.behind u) := by
  obtain ⟨r, hr⟩ := h
  exact ⟨by rw [Cursor.behind, ← hr, List.drop_left], rfl, rfl⟩

/-- The characters of a capture are those that were read. -/
theorem Capture.text_of_reads {c c' : Cursor} {u : Text} (h : c.Reads u c') :
    (⟨c, c'⟩ : Capture).text = u := h.take_eq

/-- The characters of a match are those that were read. -/
theorem Match.text_of_reads {m : Match} {u : Text} (h : m.start.Reads u m.stop) : m.text = u :=
  h.take_eq

/-- What a group has matched is the stretch between its two places. -/
theorem Match.group_of_lookup {m : Match} {n : Nat} {c c' : Cursor} {u : Text}
    (h : m.groups.lookup n = some ⟨c, c'⟩) (hreads : c.Reads u c') : m.group n = u := by
  rw [Match.group, Match.group?, h, Option.map_some, Option.getD_some, Capture.text_of_reads hreads]

namespace Pattern

variable {c c' : Cursor} {caps caps' : Captures}

/-- A text is matched by itself. -/
theorem takes_text_iff {t : Text} :
    Takes (text t) c caps c' caps' ↔ c.Reads t c' ∧ caps' = caps := by
  induction t generalizing c with
  | nil =>
    constructor
    · rintro ⟨rfl, rfl⟩
      exact ⟨.refl _, rfl⟩
    · rintro ⟨h, rfl⟩
      exact ⟨h.unique (.refl c), rfl⟩
  | cons a t ih =>
    constructor
    · rintro ⟨c₁, caps₁, ⟨b, hb, hread, rfl⟩, hrest⟩
      have hchar : b = a := by simpa using hb
      subst hchar
      obtain ⟨hreads, hcaps⟩ := ih.mp hrest
      exact ⟨hread.cons hreads, hcaps⟩
    · rintro ⟨h, rfl⟩
      obtain ⟨c₁, hread, hrest⟩ := Cursor.Reads.split (u := [a]) h
      exact ⟨c₁, caps', ⟨a, by simp, hread, rfl⟩, ih.mpr ⟨hrest, rfl⟩⟩

/-- A word of ASCII letters in any mixture of cases is spelled with forms of letters. -/
theorem takes_anyCase {t : Text} (ht : t.all (fun l => l.toLower.isLower) = true)
    (h : Takes (anyCase t) c caps c' caps') :
    ∃ u, c.Reads u c' ∧ caps' = caps ∧ u.length = t.length ∧ ∀ a ∈ u, a ∈ Text.letterForms := by
  induction t generalizing c with
  | nil =>
    obtain ⟨rfl, rfl⟩ := h
    exact ⟨[], .refl _, rfl, rfl, fun a ha => nomatch ha⟩
  | cons l t ih =>
    rw [List.all_cons, Bool.and_eq_true] at ht
    obtain ⟨c₁, caps₁, ⟨b, hb, hread, rfl⟩, hrest⟩ := h
    obtain ⟨u, hu, hcaps, hlen, hforms⟩ := ih ht.2 hrest
    refine ⟨b :: u, hread.cons hu, hcaps, by rw [List.length_cons, hlen, List.length_cons], ?_⟩
    intro a ha
    rcases List.mem_cons.mp ha with rfl | ha
    · exact Text.mem_letterForms ht.1 hb
    · exact hforms a ha

/-- One of the alternatives is taken. -/
theorem takes_oneOf {ps : List Pattern} (h : Takes (oneOf ps) c caps c' caps') :
    ∃ p ∈ ps, Takes p c caps c' caps' := by
  induction ps with
  | nil =>
    obtain ⟨hfalse, -⟩ := h
    cases hfalse
  | cons p ps ih =>
    cases ps with
    | nil => exact ⟨p, List.mem_singleton_self p, h⟩
    | cons q ps =>
      rcases h with h | h
      · exact ⟨p, List.mem_cons_self, h⟩
      · obtain ⟨r, hr, htakes⟩ := ih h
        exact ⟨r, List.mem_cons_of_mem p hr, htakes⟩

/-- Each alternative may be taken. -/
theorem takes_oneOf_of_mem {p : Pattern} {ps : List Pattern} (hp : p ∈ ps)
    (h : Takes p c caps c' caps') : Takes (oneOf ps) c caps c' caps' := by
  induction ps with
  | nil => cases hp
  | cons q ps ih =>
    cases ps with
    | nil =>
      obtain rfl := List.mem_singleton.mp hp
      exact h
    | cons q' ps =>
      rcases List.mem_cons.mp hp with rfl | hp
      · exact .inl h
      · exact .inr (ih hp)

/-- One of the words is read. -/
theorem takes_oneOfWords {ws : List String} (h : Takes (oneOfWords ws) c caps c' caps') :
    ∃ w ∈ ws, c.Reads w.toList c' ∧ caps' = caps := by
  obtain ⟨p, hp, htakes⟩ := takes_oneOf h
  obtain ⟨w, hw, rfl⟩ := List.mem_map.mp hp
  exact ⟨w, hw, takes_text_iff.mp htakes⟩

/-- Each of the words may be read. -/
theorem takes_oneOfWords_of_mem {ws : List String} {w : String} (hw : w ∈ ws)
    (h : c.Reads w.toList c') : Takes (oneOfWords ws) c caps c' caps :=
  takes_oneOf_of_mem (List.mem_map_of_mem hw) (takes_text_iff.mpr ⟨h, rfl⟩)

/-- What may be left out is taken, or nothing is. -/
theorem takes_opt {p : Pattern} (h : Takes (opt p) c caps c' caps') :
    Takes p c caps c' caps' ∨ c' = c ∧ caps' = caps := h

/-- A run of characters in front of nothing that could fail goes as far as it can. -/
theorem run?_many_of_total {α : Type} {set : CharSet} {k : Cursor → Captures → Option α} {a : α}
    (hk : ∀ c', (k c' caps).isSome = true) (h : run? (many set) c caps k = some a) :
    ∃ u c', u.all set = true ∧ c.Reads u c' ∧ c'.after.head?.all (fun b => !set b) = true ∧
      k c' caps = some a := by
  obtain ⟨before, after, pos⟩ := c
  obtain ⟨u, r, rfl, hu, hr, heq⟩ := runEnd_spec set before pos 0 after
  have hrun : run? (many set) ⟨before, u ++ r, pos⟩ caps k =
      backOff (fun c' => k c' caps) (0 + u.length) ⟨u.reverse ++ before, r, pos + u.length⟩ := by
    rw [many, run?, runMost, heq]
    rfl
  rw [hrun] at h
  -- The end of the run is tried first, and there what follows succeeds.
  have hfar := hk ⟨u.reverse ++ before, r, pos + u.length⟩
  obtain ⟨b, hb⟩ := Option.isSome_iff_exists.mp hfar
  refine ⟨u, ⟨u.reverse ++ before, r, pos + u.length⟩, hu, ⟨rfl, rfl, rfl⟩, hr, ?_⟩
  cases hn : 0 + u.length with
  | zero => rwa [hn, backOff] at h
  | succ n =>
    rw [hn, backOff, hb] at h
    rw [hb]
    exact h

/-! ### Answers

What a pattern answers in front of a continuation that always has an answer. -/

section Answer

variable {α : Type} (k : Cursor → Captures → Option α)

/-- If all that a pattern can do is to read one stretch, then that is what it does. -/
theorem run?_eq_bind {p : Pattern} {c : Cursor} {caps : Captures} {l : Option Text}
    (hk : ∀ c caps, (k c caps).isSome = true) (hl : ∀ u, l = some u → u <+: c.after)
    (h : ∀ c' caps', Takes p c caps c' caps' ↔ ∃ u, l = some u ∧ c.Reads u c' ∧ caps' = caps) :
    run? p c caps k = l.bind (fun u => k (c.behind u) caps) := by
  cases hrun : run? p c caps k with
  | none =>
    cases l with
    | none => rfl
    | some u =>
      have htakes := (h (c.behind u) caps).mpr ⟨u, rfl, Cursor.reads_behind (hl u rfl), rfl⟩
      have hsome := isSome_run?_of_takes htakes (hk (c.behind u) caps)
      rw [hrun] at hsome
      cases hsome
  | some x =>
    obtain ⟨c', caps', htakes, hx⟩ := exists_takes_of_run? hrun
    obtain ⟨u, rfl, hreads, rfl⟩ := (h c' caps').mp htakes
    rw [Option.bind_some, ← hreads.eq_behind, hx]

/-- The rest of the line is taken up to its line feed, if any end will do. -/
theorem run?_restOfLine (hk : ∀ c caps, (k c caps).isSome = true) (c : Cursor) (caps : Captures) :
    run? restOfLine c caps k = k (c.behind (c.after.takeWhile (· != '\n'))) caps := by
  have htakes : Takes restOfLine c caps c caps := ⟨[], rfl, Nat.le_refl _, .refl c, rfl⟩
  obtain ⟨x, hx⟩ := Option.isSome_iff_exists.mp (isSome_run?_of_takes htakes (hk c caps))
  obtain ⟨u, c', hu, hreads, hend, hc'⟩ := run?_many_of_total (fun c' => hk c' caps) hx
  have hset : CharSet.except ['\n'] = fun a => a != '\n' := by
    funext a
    rw [Bool.eq_iff_iff]
    simp [CharSet.except]
  have hline : c.after.takeWhile (· != '\n') = u := by
    rw [hreads.after_eq, List.takeWhile_append_of_pos (by simpa [hset] using hu)]
    cases hr : c'.after with
    | nil => simp
    | cons a r =>
      rw [hr] at hend
      have ha : a = '\n' := by simpa [hset] using hend
      simp [ha]
  rw [hx, hline, ← hreads.eq_behind, hc']

/-- The second alternative is tried where the first one gives no answer. -/
theorem run?_either (p q : Pattern) (c : Cursor) (caps : Captures) :
    run? (.either p q) c caps k = (run? p c caps k).or (run? q c caps k) := by
  rw [run?]
  cases run? p c caps k <;> rfl

/-- A pattern that begins with a quote looks at the next character first. -/
theorem run?_opening (quote : Char) (p : Pattern) (before : Text) (a : Char) (r : Text) (pos : Nat)
    (caps : Captures) :
    run? (.both (text [quote]) p) ⟨before, a :: r, pos⟩ caps k =
      if a == quote then run? p ⟨a :: before, r, pos + 1⟩ caps k else none := by
  simp [text, run?, Cursor.next?]

/-- A pattern that begins with two characters looks at the next two first. -/
theorem run?_pair (x y : Char) (p : Pattern) (before : Text) (a : Char) (r : Text) (pos : Nat)
    (caps : Captures) :
    run? (.both (text [x, y]) p) ⟨before, a :: r, pos⟩ caps k =
      if a == x && r.head? == some y then run? p ⟨y :: a :: before, r.tail, pos + 2⟩ caps k
      else none := by
  cases r with
  | nil => simp [text, run?, Cursor.next?]
  | cons b r =>
    by_cases ha : a = x
    · by_cases hb : b = y
      · simp [text, run?, Cursor.next?, ha, hb]
      · simp [text, run?, Cursor.next?, ha, hb]
    · simp [text, run?, Cursor.next?, ha]

/-- The answer behind a closing quote. -/
def closing (quote : Char) (e : Cursor × Captures) : Option α := run? (text [quote]) e.1 e.2 k

/-- The quote that closes is the next character. -/
theorem closing_cons (quote : Char) (before : Text) (a : Char) (r : Text) (pos : Nat)
    (caps : Captures) :
    closing k quote (⟨before, a :: r, pos⟩, caps) =
      if a == quote then k ⟨a :: before, r, pos + 1⟩ caps else none := by
  simp [closing, text, run?, Cursor.next?]

end Answer

/-! ### Rounds -/

/-- Where the step does not go on, the rounds end. -/
theorem roundEnds_stop {step : Cursor → Captures → Option (Cursor × Captures)} {c : Cursor}
    {caps : Captures} (h : step c caps = none) (left : Text) (seen : List (Cursor × Captures)) :
    roundEnds step left c caps seen = (c, caps) :: seen := by
  cases left with
  | nil => rfl
  | cons b left => rw [roundEnds, h]

/-- Where the step goes on, the places passed are kept, newest first. -/
theorem roundEnds_more {step : Cursor → Captures → Option (Cursor × Captures)} {c c' : Cursor}
    {caps caps' : Captures} (h : step c caps = some (c', caps')) (hpos : c.pos < c'.pos) (b : Char)
    (left : Text) (seen : List (Cursor × Captures)) :
    roundEnds step (b :: left) c caps seen = roundEnds step left c' caps' ((c, caps) :: seen) := by
  rw [roundEnds, h]
  exact if_pos hpos

/-- The last end of the rounds is one behind which no further round makes progress. -/
theorem exists_roundEnds {step : Cursor → Captures → Option (Cursor × Captures)}
    (hreads : ∀ c caps c' caps', Follows step c caps c' caps' → ∃ u, c.Reads u c') {left : Text}
    {c : Cursor} {caps : Captures} (seen : List (Cursor × Captures))
    (hleft : c.after.length ≤ left.length) :
    ∃ c' caps' seen', roundEnds step left c caps seen = (c', caps') :: seen' ∧
      Rounds (Follows step) c caps c' caps' ∧
      ∀ c₁ caps₁, step c' caps' = some (c₁, caps₁) → ¬c'.pos < c₁.pos := by
  induction left generalizing c caps seen with
  | nil =>
    refine ⟨c, caps, seen, rfl, .none c caps, ?_⟩
    intro c₁ caps₁ hround
    -- Nothing is left of the text that a round could pass over.
    obtain ⟨u, hu⟩ := hreads _ _ _ _ hround
    have hleftover := hu.pos_add_length
    rw [List.length_nil] at hleft
    omega
  | cons b left ih =>
    cases hstep : step c caps with
    | none =>
      refine ⟨c, caps, seen, roundEnds_stop hstep _ _, .none c caps, ?_⟩
      intro c₁ caps₁ hround
      rw [hstep] at hround
      cases hround
    | some e =>
      obtain ⟨c₁, caps₁⟩ := e
      by_cases progress : c.pos < c₁.pos
      · obtain ⟨u, hu⟩ := hreads _ _ _ _ hstep
        have hleftover := hu.pos_add_length
        rw [List.length_cons] at hleft
        obtain ⟨c', caps', seen', heq, hrounds, hstop⟩ :=
          @ih c₁ caps₁ ((c, caps) :: seen) (by omega)
        exact ⟨c', caps', seen', (roundEnds_more hstep progress b left seen).trans heq,
          .more hstep progress hrounds, hstop⟩
      · refine ⟨c, caps, seen, ?_, .none c caps, ?_⟩
        · rw [roundEnds, hstep]
          exact if_neg progress
        · intro c₂ caps₂ hround
          rw [hstep] at hround
          cases hround
          exact progress

/-- A round of a repetition is a way to match its body. -/
theorem takes_of_follows {body : Pattern} {c c' : Cursor} {caps caps' : Captures}
    (h : Follows (fun c caps => run? body c caps first) c caps c' caps') :
    Takes body c caps c' caps' := by
  obtain ⟨c₁, caps₁, htakes, hfirst⟩ := exists_takes_of_run? h
  cases hfirst
  exact htakes

/-- Rounds in front of nothing that could fail go on as long as they can. -/
theorem run?_rounds_of_total {α : Type} {body : Pattern} (hbody : IsSolid body)
    {k : Cursor → Captures → Option α} {a : α} {c : Cursor} {caps : Captures}
    (hk : ∀ c caps, (k c caps).isSome = true) (h : run? (.rounds .most body) c caps k = some a) :
    ∃ c' caps', Rounds (Takes body) c caps c' caps' ∧
      (∀ c₁ caps₁, ¬Takes body c' caps' c₁ caps₁) ∧ k c' caps' = some a := by
  have hreads : ∀ c caps c' caps', Follows (fun c caps => run? body c caps first) c caps c' caps' →
      ∃ u, c.Reads u c' := fun _ _ _ _ hround => (takes_of_follows hround).reads
  obtain ⟨c', caps', seen, hends, hrounds, hstop⟩ :=
    exists_roundEnds hreads [] (Nat.le_refl c.after.length)
  refine ⟨c', caps', hrounds.mono (fun _ _ _ _ hround => takes_of_follows hround), ?_, ?_⟩
  · intro c₁ caps₁ htakes
    obtain ⟨⟨c₂, caps₂⟩, hround⟩ :=
      Option.isSome_iff_exists.mp (isSome_run?_of_takes (k := first) htakes rfl)
    exact hstop c₂ caps₂ hround (hbody _ _ _ _ (takes_of_follows hround))
  · rw [run?, hends, List.findSome?_cons] at h
    obtain ⟨x, hx⟩ := Option.isSome_iff_exists.mp (hk c' caps')
    dsimp only at h
    rw [hx] at h ⊢
    exact h

end Pattern

end CodeTidy
