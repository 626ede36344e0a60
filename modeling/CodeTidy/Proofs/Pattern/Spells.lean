import CodeTidy.Proofs.Pattern.Rewrite
import Mathlib.Data.List.Forall2

/-!
# `CodeTidy.Proofs.Pattern.Spells`: what a match is made of

`Pattern.Takes` says from where to where a pattern leads. What a rule makes of a
match depends on its characters and those of its groups only, so
`Pattern.Spells` forgets the places: it relates a pattern to the texts that it
may pass over and to the texts of its groups. Conditions on the place are
dropped. The theorems:

* `Takes.spells`, `MatchesBehind.spells`: the text and the groups of a match are
  spelled by the pattern.
* `spells_seq`, `spells_oneOf`, `spells_text` and their like: what the composed
  patterns spell.
* `takes_seq_last`: where a match ends.
* `Spells.not_mem`, `Spells.groups_eq`, `Takes.lookup_eq`, `Remembers.exists_spells`: characters
  that a pattern avoids, patterns that remember nothing, or nothing under a number, and patterns
  that remember one thing.
* `group_infix`: a group of a match is a part of the text.
* `Needs.infix`, `Needs.not_matchesBehind`: a text that every match has to hold,
  and a text without it.
* `isStart_iff_spells`: a pattern without conditions matches where it is spelled.
-/

set_option autoImplicit false

namespace CodeTidy.Pattern

/-- What the groups have matched so far, newest first, without the places. -/
abbrev Groups := List (Nat × Text)

/-- The texts of what the groups have matched. -/
def textsOf (caps : Captures) : Groups := caps.map (fun (n, c) => (n, c.text))

/-- A relation between groups before and after a text, any number of times one after the other. -/
inductive Repeats (step : Groups → Text → Groups → Prop) : Groups → Text → Groups → Prop where
  | none (e : Groups) : Repeats step e [] e
  | more {e e₁ e' : Groups} {u v : Text} (round : step e u e₁) (rest : Repeats step e₁ v e') :
      Repeats step e (u ++ v) e'

/-- The pattern may pass over the text, and leads from some groups to others. -/
def Spells : Pattern → Groups → Text → Groups → Prop
  | .empty, e, u, e' => u = [] ∧ e' = e
  | .one set, e, u, e' => ∃ a, set a = true ∧ u = [a] ∧ e' = e
  | .both p q, e, u, e' => ∃ v e₁, Spells p e v e₁ ∧ ∃ w, v ++ w = u ∧ Spells q e₁ w e'
  | .either p q, e, u, e' => Spells p e u e' ∨ Spells q e u e'
  | .run _ least set, e, u, e' => u.all set = true ∧ least ≤ u.length ∧ e' = e
  | .star _ body, e, u, e' => Repeats (Spells body) e u e'
  | .rounds _ body, e, u, e' => Repeats (Spells body) e u e'
  | .group n body, e, u, e' => ∃ e₁, Spells body e u e₁ ∧ e' = (n, u) :: e₁
  | .again n, e, u, e' => e.lookup n = some u ∧ e' = e
  | .place _, e, u, e' => u = [] ∧ e' = e
  | .ahead body, e, u, e' => u = [] ∧ ∃ v, Spells body e v e'
  | .notAhead _, e, u, e' => u = [] ∧ e' = e

/-! ### A match is spelled by its pattern -/

/-- A group's text is that of its latest capture. -/
theorem lookup_textsOf (caps : Captures) (n : Nat) :
    (textsOf caps).lookup n = (caps.lookup n).map Capture.text := by
  induction caps with
  | nil => rfl
  | cons cap caps ih =>
    obtain ⟨k, c⟩ := cap
    rw [textsOf, List.map_cons, List.lookup_cons, List.lookup_cons, ← textsOf, ih]
    cases n == k <;> rfl

/-- What group `n` of a match has matched, by the texts of its groups. -/
theorem group_eq (m : Match) (n : Nat) : m.group n = ((textsOf m.groups).lookup n).getD [] := by
  rw [lookup_textsOf]
  rfl

/-- Rounds between places are rounds of what is spelled there. -/
theorem repeats_of_rounds {step : Cursor → Captures → Cursor → Captures → Prop}
    {spelled : Groups → Text → Groups → Prop}
    (hstep : ∀ c caps c' caps', step c caps c' caps' →
      ∃ u, c.Reads u c' ∧ spelled (textsOf caps) u (textsOf caps'))
    {c c' : Cursor} {caps caps' : Captures} (h : Rounds step c caps c' caps') :
    ∃ u, c.Reads u c' ∧ Repeats spelled (textsOf caps) u (textsOf caps') := by
  induction h with
  | none c caps => exact ⟨[], .refl c, .none _⟩
  | more round _ _ ih =>
    obtain ⟨u, hu, hspells⟩ := hstep _ _ _ _ round
    obtain ⟨v, hv, hrest⟩ := ih
    exact ⟨u ++ v, hu.trans hv, .more hspells hrest⟩

/-- What a pattern passes over is what it spells. -/
theorem Takes.spells {p : Pattern} {c c' : Cursor} {caps caps' : Captures}
    (h : Takes p c caps c' caps') :
    ∃ u, c.Reads u c' ∧ Spells p (textsOf caps) u (textsOf caps') := by
  induction p generalizing c c' caps caps' with
  | empty =>
    obtain ⟨rfl, rfl⟩ := h
    exact ⟨[], .refl _, rfl, rfl⟩
  | one set =>
    obtain ⟨a, ha, hreads, rfl⟩ := h
    exact ⟨[a], hreads, a, ha, rfl, rfl⟩
  | both p q ihp ihq =>
    obtain ⟨c₁, caps₁, hp, hq⟩ := h
    obtain ⟨v, hv, hspells⟩ := ihp hp
    obtain ⟨w, hw, hspells'⟩ := ihq hq
    exact ⟨v ++ w, hv.trans hw, v, _, hspells, w, rfl, hspells'⟩
  | either p q ihp ihq =>
    rcases h with h | h
    · obtain ⟨u, hu, hspells⟩ := ihp h
      exact ⟨u, hu, .inl hspells⟩
    · obtain ⟨u, hu, hspells⟩ := ihq h
      exact ⟨u, hu, .inr hspells⟩
  | run appetite least set =>
    obtain ⟨u, hall, hleast, hreads, rfl⟩ := h
    exact ⟨u, hreads, hall, hleast, rfl⟩
  | star appetite body ih => exact repeats_of_rounds (fun _ _ _ _ hbody => ih hbody) h
  | rounds appetite body ih =>
    exact repeats_of_rounds (fun _ _ _ _ hbody => ih (takes_of_follows hbody)) h
  | group n body ih =>
    obtain ⟨caps₁, hbody, rfl⟩ := h
    obtain ⟨u, hu, hspells⟩ := ih hbody
    refine ⟨u, hu, _, hspells, ?_⟩
    rw [← Capture.text_of_reads hu]
    rfl
  | again n =>
    obtain ⟨capture, hlookup, hreads, rfl⟩ := h
    refine ⟨_, hreads, ?_, rfl⟩
    rw [lookup_textsOf, hlookup]
    rfl
  | place condition =>
    obtain ⟨-, rfl, rfl⟩ := h
    exact ⟨[], .refl _, rfl, rfl⟩
  | ahead body ih =>
    -- What is looked ahead at is spelled too, as its groups are kept.
    obtain ⟨rfl, c₁, hbody⟩ := h
    obtain ⟨c₂, caps₂, htakes, hfirst⟩ := exists_takes_of_run? hbody
    cases hfirst
    obtain ⟨v, -, hspells⟩ := ih htakes
    exact ⟨[], .refl _, rfl, v, hspells⟩
  | notAhead body =>
    obtain ⟨rfl, rfl, -⟩ := h
    exact ⟨[], .refl _, rfl, rfl⟩

/-- The text and the groups of a match are spelled by the pattern. -/
theorem MatchesBehind.spells {p : Pattern} {t v : Text} {m : Match} (h : MatchesBehind p t v m) :
    Spells p [] m.text (textsOf m.groups) := by
  obtain ⟨u, hu, hspells⟩ := h.takes.spells
  rwa [Match.text_of_reads hu]

/-! ### What the composed patterns spell -/

section Shapes

variable {p q : Pattern} {ps : List Pattern} {e e' : Groups} {u t : Text} {set : CharSet} {n : Nat}
  {appetite : Appetite} {condition : Cursor → Bool}

/-- A text spells itself. -/
theorem spells_text : Spells (text t) e u e' ↔ t = u ∧ e' = e := by
  induction t generalizing u with
  | nil => exact and_congr_left' eq_comm
  | cons a t ih =>
    constructor
    · rintro ⟨v, e₁, ⟨b, hb, rfl, rfl⟩, w, rfl, hrest⟩
      obtain ⟨rfl, rfl⟩ := ih.mp hrest
      rw [beq_iff_eq] at hb
      exact ⟨by rw [hb, List.singleton_append], rfl⟩
    · rintro ⟨rfl, rfl⟩
      exact ⟨[a], _, ⟨a, beq_self_eq_true a, rfl, rfl⟩, t, rfl, ih.mpr ⟨rfl, rfl⟩⟩

/-- Letters are spelled in either case. -/
theorem spells_anyCase {w : Text} (h : Spells (anyCase w) e u e') :
    List.Forall₂ (fun b a => Text.sameIgnoringCase b.toLower a = true) w u ∧ e' = e := by
  induction w generalizing e u with
  | nil =>
    obtain ⟨rfl, rfl⟩ := h
    exact ⟨.nil, rfl⟩
  | cons b w ih =>
    obtain ⟨v, e₁, ⟨a, ha, rfl, rfl⟩, w', rfl, hrest⟩ := h
    obtain ⟨hall, rfl⟩ := ih hrest
    exact ⟨.cons ha hall, rfl⟩

/-- A set of characters spells its characters. -/
theorem spells_one : Spells (.one set) e u e' ↔ ∃ a, set a = true ∧ u = [a] ∧ e' = e := Iff.rfl

/-- A run spells the texts over its set that are long enough. -/
theorem spells_run : Spells (.run appetite n set) e u e' ↔
    u.all set = true ∧ n ≤ u.length ∧ e' = e := Iff.rfl

/-- A group spells what its body does and remembers it. -/
theorem spells_group : Spells (.group n p) e u e' ↔ ∃ e₁, Spells p e u e₁ ∧ e' = (n, u) :: e₁ :=
  Iff.rfl

/-- A group that is repeated spells what it has matched. -/
theorem spells_again : Spells (.again n) e u e' ↔ e.lookup n = some u ∧ e' = e := Iff.rfl

/-- A condition on the place spells nothing; whether it holds is not said. -/
theorem spells_place : Spells (.place condition) e u e' ↔ u = [] ∧ e' = e := Iff.rfl

/-- The first alternative, or one of the others. -/
theorem spells_oneOf : Spells (oneOf (p :: q :: ps)) e u e' ↔
    Spells p e u e' ∨ Spells (oneOf (q :: ps)) e u e' := Iff.rfl

/-- One alternative is that alternative. -/
theorem spells_oneOf_one : Spells (oneOf [p]) e u e' ↔ Spells p e u e' := Iff.rfl

/-- What may be left out, or nothing. -/
theorem spells_opt : Spells (opt p) e u e' ↔ Spells p e u e' ∨ u = [] ∧ e' = e := Iff.rfl

/-! A sequence is taken apart from its first part on. -/

/-- A sequence of one pattern is that pattern. -/
theorem spells_seq_one : Spells (seq [p]) e u e' ↔ Spells p e u e' := Iff.rfl

/-- A sequence spells what its first pattern does and what the others do behind it. -/
theorem spells_seq : Spells (seq (p :: q :: ps)) e u e' ↔
    ∃ v e₁, Spells p e v e₁ ∧ ∃ w, v ++ w = u ∧ Spells (seq (q :: ps)) e₁ w e' := Iff.rfl

/-- A sequence that begins with a text. -/
theorem spells_text_then : Spells (seq (text t :: q :: ps)) e u e' ↔
    ∃ w, t ++ w = u ∧ Spells (seq (q :: ps)) e w e' := by
  rw [spells_seq]
  simp only [spells_text]
  constructor
  · rintro ⟨v, e₁, ⟨rfl, rfl⟩, hrest⟩
    exact hrest
  · intro hrest
    exact ⟨t, e, ⟨rfl, rfl⟩, hrest⟩

/-- A sequence that begins with a character. -/
theorem spells_one_then : Spells (seq (.one set :: q :: ps)) e u e' ↔
    ∃ a, set a = true ∧ ∃ w, a :: w = u ∧ Spells (seq (q :: ps)) e w e' := by
  rw [spells_seq]
  constructor
  · rintro ⟨v, e₁, ⟨a, ha, rfl, rfl⟩, w, rfl, hrest⟩
    exact ⟨a, ha, w, rfl, hrest⟩
  · rintro ⟨a, ha, w, rfl, hrest⟩
    exact ⟨[a], e, ⟨a, ha, rfl, rfl⟩, w, rfl, hrest⟩

/-- A sequence that begins with a run. -/
theorem spells_run_then : Spells (seq (.run appetite n set :: q :: ps)) e u e' ↔
    ∃ v, v.all set = true ∧ n ≤ v.length ∧ ∃ w, v ++ w = u ∧ Spells (seq (q :: ps)) e w e' := by
  rw [spells_seq]
  constructor
  · rintro ⟨v, e₁, ⟨hall, hleast, rfl⟩, hrest⟩
    exact ⟨v, hall, hleast, hrest⟩
  · rintro ⟨v, hall, hleast, hrest⟩
    exact ⟨v, e, ⟨hall, hleast, rfl⟩, hrest⟩

/-- A sequence that begins with a group. -/
theorem spells_group_then : Spells (seq (.group n p :: q :: ps)) e u e' ↔
    ∃ v e₁, Spells p e v e₁ ∧ ∃ w, v ++ w = u ∧ Spells (seq (q :: ps)) ((n, v) :: e₁) w e' := by
  rw [spells_seq]
  constructor
  · rintro ⟨v, e₂, ⟨e₁, hbody, rfl⟩, hrest⟩
    exact ⟨v, e₁, hbody, hrest⟩
  · rintro ⟨v, e₁, hbody, hrest⟩
    exact ⟨v, _, ⟨e₁, hbody, rfl⟩, hrest⟩

/-- A sequence that begins with a group repeated. -/
theorem spells_again_then : Spells (seq (.again n :: q :: ps)) e u e' ↔
    ∃ v, e.lookup n = some v ∧ ∃ w, v ++ w = u ∧ Spells (seq (q :: ps)) e w e' := by
  rw [spells_seq]
  constructor
  · rintro ⟨v, e₁, ⟨hlookup, rfl⟩, hrest⟩
    exact ⟨v, hlookup, hrest⟩
  · rintro ⟨v, hlookup, hrest⟩
    exact ⟨v, e, ⟨hlookup, rfl⟩, hrest⟩

/-- A sequence that begins with a condition on the place. -/
theorem spells_place_then : Spells (seq (.place condition :: q :: ps)) e u e' ↔
    Spells (seq (q :: ps)) e u e' := by
  rw [spells_seq]
  constructor
  · rintro ⟨v, e₁, ⟨rfl, rfl⟩, w, rfl, hrest⟩
    exact hrest
  · intro hrest
    exact ⟨[], e, ⟨rfl, rfl⟩, u, rfl, hrest⟩

end Shapes

/-! ### The end of a match -/

/-- What a sequence ends with is looked at where the sequence ends. -/
theorem takes_seq_last {ps : List Pattern} (hps : ps ≠ []) {c c' : Cursor} {caps caps' : Captures}
    (h : Takes (seq ps) c caps c' caps') :
    ∃ c₁ caps₁, Takes (ps.getLast hps) c₁ caps₁ c' caps' := by
  induction ps generalizing c caps with
  | nil => exact absurd rfl hps
  | cons p ps ih =>
    cases ps with
    | nil => exact ⟨c, caps, h⟩
    | cons q ps =>
      obtain ⟨c₁, caps₁, -, hrest⟩ := h
      rw [List.getLast_cons (List.cons_ne_nil q ps)]
      exact ih (List.cons_ne_nil q ps) hrest

/-- The text behind a place is empty, or a line feed comes next. -/
def EndsLine (c : Cursor) : Prop := c.after = [] ∨ ∃ r, c.after = '\n' :: r

/-- The condition for a line end says that the line ends there. -/
theorem endsLine_of_atLineEnd {c : Cursor} (h : c.atLineEnd = true) : EndsLine c := by
  cases hafter : c.after with
  | nil => exact .inl hafter
  | cons a r =>
    rw [Cursor.atLineEnd, hafter] at h
    have ha : a = '\n' := by simpa using h
    exact .inr ⟨r, by rw [hafter, ha]⟩

/-! ### Characters that a pattern avoids -/

/-- A test for patterns that never pass over a character. What a group has matched may hold it. -/
def avoids (a : Char) : Pattern → Bool
  | .one set => !set a
  | .both p q => p.avoids a && q.avoids a
  | .either p q => p.avoids a && q.avoids a
  | .run _ _ set => !set a
  | .star _ body => body.avoids a
  | .rounds _ body => body.avoids a
  | .group _ body => body.avoids a
  | .again _ => false
  | _ => true

/-- What no round passes over is not in all rounds together. -/
theorem Repeats.not_mem {step : Groups → Text → Groups → Prop} {a : Char}
    (hstep : ∀ e u e', step e u e' → a ∉ u) {e e' : Groups} {u : Text} (h : Repeats step e u e') :
    a ∉ u := by
  induction h with
  | none => exact List.not_mem_nil
  | more round _ ih =>
    rw [List.mem_append, not_or]
    exact ⟨hstep _ _ _ round, ih⟩

/-- A text over a set has no character outside of it. -/
theorem not_mem_of_all {set : CharSet} {t : Text} (h : t.all set = true) {a : Char}
    (ha : set a = false) : a ∉ t := by
  intro hmem
  rw [List.all_eq_true.mp h a hmem] at ha
  cases ha

/-- A text over all characters but some has none of these. -/
theorem all_except_iff {members t : Text} :
    t.all (CharSet.except members) = true ↔ ∀ c ∈ members, c ∉ t := by
  simp only [List.all_eq_true, CharSet.except, Bool.not_eq_true', ← Bool.not_eq_true,
    List.contains_iff_mem]
  exact ⟨fun h c hc hmem => h c hmem hc, fun h c hmem hc => h c hc hmem⟩

/-- A text over a set has none of the characters that are not in the set. -/
theorem all_except_of_all {set : CharSet} {t : Text} (h : t.all set = true) {members : Text}
    (hmembers : ∀ c ∈ members, set c = false) : t.all (CharSet.except members) = true :=
  all_except_iff.mpr fun c hc => not_mem_of_all h (hmembers c hc)

/-- A pattern does not spell what it avoids. -/
theorem Spells.not_mem {p : Pattern} {e e' : Groups} {u : Text} (h : Spells p e u e') {a : Char}
    (ha : p.avoids a = true) : a ∉ u := by
  induction p generalizing e u e' with
  | one set =>
    obtain ⟨b, hb, rfl, -⟩ := h
    rw [avoids, Bool.not_eq_true'] at ha
    rw [List.mem_singleton]
    rintro rfl
    rw [hb] at ha
    cases ha
  | both p q ihp ihq =>
    obtain ⟨v, e₁, hp, w, rfl, hq⟩ := h
    rw [avoids, Bool.and_eq_true] at ha
    rw [List.mem_append, not_or]
    exact ⟨ihp hp ha.1, ihq hq ha.2⟩
  | either p q ihp ihq =>
    rw [avoids, Bool.and_eq_true] at ha
    rcases h with h | h
    · exact ihp h ha.1
    · exact ihq h ha.2
  | run appetite least set =>
    rw [avoids, Bool.not_eq_true'] at ha
    exact not_mem_of_all h.1 ha
  | star appetite body ih => exact Repeats.not_mem (fun _ _ _ hbody => ih hbody ha) h
  | rounds appetite body ih => exact Repeats.not_mem (fun _ _ _ hbody => ih hbody ha) h
  | group n body ih =>
    obtain ⟨e₁, hbody, -⟩ := h
    exact ih hbody ha
  -- What the group has matched may hold the character, so the test has excluded this.
  | again n => cases ha
  | _ =>
    obtain ⟨rfl, -⟩ := h
    exact List.not_mem_nil

/-! ### Patterns without groups -/

/-- A test for patterns that remember nothing. -/
def isGroupless : Pattern → Bool
  | .both p q => p.isGroupless && q.isGroupless
  | .either p q => p.isGroupless && q.isGroupless
  | .star _ body => body.isGroupless
  | .rounds _ body => body.isGroupless
  | .group _ _ => false
  | .ahead body => body.isGroupless
  | _ => true

/-- Rounds that remember nothing leave the groups as they are. -/
theorem Repeats.groups_eq {step : Groups → Text → Groups → Prop}
    (hstep : ∀ e u e', step e u e' → e' = e) {e e' : Groups} {u : Text}
    (h : Repeats step e u e') : e' = e := by
  induction h with
  | none => rfl
  | more round _ ih => rw [ih, hstep _ _ _ round]

/-- A pattern that remembers nothing leaves the groups as they are. -/
theorem Spells.groups_eq {p : Pattern} {e e' : Groups} {u : Text} (h : Spells p e u e')
    (hp : p.isGroupless = true) : e' = e := by
  induction p generalizing e u e' with
  | one set =>
    obtain ⟨a, -, -, rfl⟩ := h
    rfl
  | both p q ihp ihq =>
    obtain ⟨v, e₁, hp', w, -, hq⟩ := h
    rw [isGroupless, Bool.and_eq_true] at hp
    rw [ihq hq hp.2, ihp hp' hp.1]
  | either p q ihp ihq =>
    rw [isGroupless, Bool.and_eq_true] at hp
    rcases h with h | h
    · exact ihp h hp.1
    · exact ihq h hp.2
  -- The rounds of a repetition leave the groups one by one.
  | run appetite least set => exact h.2.2
  | star appetite body ih => exact Repeats.groups_eq (fun _ _ _ hbody => ih hbody hp) h
  | rounds appetite body ih => exact Repeats.groups_eq (fun _ _ _ hbody => ih hbody hp) h
  | group n body => cases hp
  | ahead body ih =>
    obtain ⟨-, v, hbody⟩ := h
    exact ih hbody hp
  | _ => exact h.2

/-- A test for patterns without the group of that number. -/
def lacks (n : Nat) : Pattern → Bool
  | .both p q => p.lacks n && q.lacks n
  | .either p q => p.lacks n && q.lacks n
  | .star _ body => body.lacks n
  | .rounds _ body => body.lacks n
  | .group k body => n != k && body.lacks n
  | .ahead body => body.lacks n
  | _ => true

/-- Rounds without a group leave what it has matched. -/
theorem Rounds.lookup_eq {step : Cursor → Captures → Cursor → Captures → Prop} {n : Nat}
    (hstep : ∀ c caps c' caps', step c caps c' caps' → caps'.lookup n = caps.lookup n)
    {c c' : Cursor} {caps caps' : Captures} (h : Rounds step c caps c' caps') :
    caps'.lookup n = caps.lookup n := by
  induction h with
  | none => rfl
  | more round _ _ ih => rw [ih, hstep _ _ _ _ round]

/-- A pattern without a group leaves what that group has matched as it is. -/
theorem Takes.lookup_eq {n : Nat} {p : Pattern} {c c' : Cursor} {caps caps' : Captures}
    (h : Takes p c caps c' caps') (hp : p.lacks n = true) : caps'.lookup n = caps.lookup n := by
  induction p generalizing c c' caps caps' with
  | one set =>
    obtain ⟨a, -, -, rfl⟩ := h
    rfl
  | both p q ihp ihq =>
    obtain ⟨c₁, caps₁, htakes, htakes'⟩ := h
    rw [lacks, Bool.and_eq_true] at hp
    rw [ihq htakes' hp.2, ihp htakes hp.1]
  | either p q ihp ihq =>
    rw [lacks, Bool.and_eq_true] at hp
    rcases h with h | h
    · exact ihp h hp.1
    · exact ihq h hp.2
  | run appetite least set =>
    obtain ⟨u, -, -, -, rfl⟩ := h
    rfl
  | star appetite body ih => exact Rounds.lookup_eq (fun _ _ _ _ hbody => ih hbody hp) h
  | rounds appetite body ih =>
    exact Rounds.lookup_eq (fun _ _ _ _ hbody => ih (takes_of_follows hbody) hp) h
  | group k body ih =>
    obtain ⟨caps₁, hbody, rfl⟩ := h
    rw [lacks, Bool.and_eq_true, bne_iff_ne] at hp
    rw [List.lookup_cons, beq_false_of_ne hp.1, ih hbody hp.2]
  | again k =>
    obtain ⟨capture, -, -, rfl⟩ := h
    rfl
  -- A look ahead keeps the groups of the one way that it has found.
  | ahead body ih =>
    obtain ⟨rfl, c₁, hbody⟩ := h
    obtain ⟨c₂, caps₂, htakes, hfirst⟩ := exists_takes_of_run? hbody
    cases hfirst
    exact ih htakes hp
  | empty =>
    obtain ⟨rfl, rfl⟩ := h
    rfl
  | place condition =>
    obtain ⟨-, rfl, rfl⟩ := h
    rfl
  | notAhead body =>
    obtain ⟨rfl, rfl, -⟩ := h
    rfl

/-- What rounds remember are stretches of the text behind the place. -/
theorem Rounds.infix_of_mem {step : Cursor → Captures → Cursor → Captures → Prop}
    (hreads : ∀ c caps c' caps', step c caps c' caps' → ∃ u, c.Reads u c')
    (hstep : ∀ c caps c' caps', step c caps c' caps' →
      ∀ g ∈ caps', g ∈ caps ∨ g.2.text <:+: c.after)
    {c c' : Cursor} {caps caps' : Captures} (h : Rounds step c caps c' caps') :
    ∀ g ∈ caps', g ∈ caps ∨ g.2.text <:+: c.after := by
  induction h with
  | none => exact fun g hg => .inl hg
  | @more c c₁ c' caps caps₁ caps' round _ _ ih =>
    intro g hg
    rcases ih g hg with hg | hg
    · exact hstep _ _ _ _ round g hg
    · obtain ⟨u, hu⟩ := hreads _ _ _ _ round
      exact .inr (hg.trans (hu.after_eq ▸ (List.suffix_append u c₁.after).isInfix))

/-- What a group matches is a part of what comes behind the place where the pattern begins. -/
theorem Takes.infix_of_mem {p : Pattern} {c c' : Cursor} {caps caps' : Captures}
    (h : Takes p c caps c' caps') : ∀ g ∈ caps', g ∈ caps ∨ g.2.text <:+: c.after := by
  induction p generalizing c c' caps caps' with
  | one set =>
    obtain ⟨a, -, -, rfl⟩ := h
    exact fun g hg => .inl hg
  | both p q ihp ihq =>
    obtain ⟨c₁, caps₁, htakes, htakes'⟩ := h
    intro g hg
    -- What the second part remembers lies behind the first one.
    rcases ihq htakes' g hg with hg | hg
    · exact ihp htakes g hg
    · obtain ⟨u, hu⟩ := htakes.reads
      exact .inr (hg.trans (hu.after_eq ▸ (List.suffix_append u c₁.after).isInfix))
  | either p q ihp ihq =>
    rcases h with h | h
    · exact ihp h
    · exact ihq h
  | run appetite least set =>
    obtain ⟨u, -, -, -, rfl⟩ := h
    exact fun g hg => .inl hg
  | star appetite body ih =>
    exact Rounds.infix_of_mem (fun _ _ _ _ hbody => hbody.reads) (fun _ _ _ _ hbody => ih hbody) h
  | rounds appetite body ih =>
    exact Rounds.infix_of_mem (fun _ _ _ _ hbody => (takes_of_follows hbody).reads)
      (fun _ _ _ _ hbody => ih (takes_of_follows hbody)) h
  | group k body ih =>
    obtain ⟨caps₁, hbody, rfl⟩ := h
    intro g hg
    rcases List.mem_cons.mp hg with rfl | hg
    · obtain ⟨u, hu⟩ := hbody.reads
      have htext : (⟨c, c'⟩ : Capture).text = u := Capture.text_of_reads hu
      rw [htext, hu.after_eq]
      exact .inr (List.prefix_append u c'.after).isInfix
    · exact ih hbody g hg
  | again k =>
    obtain ⟨capture, -, -, rfl⟩ := h
    exact fun g hg => .inl hg
  | ahead body ih =>
    obtain ⟨rfl, c₁, hbody⟩ := h
    obtain ⟨c₂, caps₂, htakes, hfirst⟩ := exists_takes_of_run? hbody
    cases hfirst
    exact ih htakes
  | empty =>
    obtain ⟨rfl, rfl⟩ := h
    exact fun g hg => .inl hg
  | place condition =>
    obtain ⟨-, rfl, rfl⟩ := h
    exact fun g hg => .inl hg
  | notAhead body =>
    obtain ⟨rfl, rfl, -⟩ := h
    exact fun g hg => .inl hg

/-- A group of a match is a part of the text behind the start of the match. -/
theorem group_infix {p : Pattern} {c : Cursor} {m : Match} (h : p.matchAt? c = some m) (n : Nat) :
    m.group n <:+: c.after := by
  obtain ⟨-, htakes⟩ := takes_of_matchAt? h
  rw [group_eq, lookup_textsOf]
  cases hlookup : m.groups.lookup n with
  | none => exact List.nil_infix
  | some cap =>
    obtain ⟨l₁, l₂, heq, -⟩ := List.lookup_eq_some_iff.mp hlookup
    have hmem : (n, cap) ∈ m.groups := by simp [heq]
    exact (htakes.infix_of_mem _ hmem).resolve_left List.not_mem_nil

/-- The pattern remembers one thing: under the number `n`, what `body` spells. -/
inductive Remembers (n : Nat) (body : Pattern) : Pattern → Prop where
  | group : Remembers n body (.group n body)
  | left {p q : Pattern} (h : Remembers n body p) (hq : q.isGroupless = true) :
      Remembers n body (.both p q)
  | right {p q : Pattern} (hp : p.isGroupless = true) (h : Remembers n body q) :
      Remembers n body (.both p q)

/-- A pattern that remembers one thing spells it somewhere in the text. -/
theorem Remembers.exists_spells {n : Nat} {body p : Pattern} (h : Remembers n body p)
    (hbody : body.isGroupless = true) {e e' : Groups} {u : Text} (hspells : Spells p e u e') :
    ∃ w, w <:+: u ∧ Spells body e w e ∧ e' = (n, w) :: e := by
  induction h generalizing e u e' with
  | group =>
    obtain ⟨e₁, hspells, rfl⟩ := hspells
    obtain rfl := hspells.groups_eq hbody
    exact ⟨u, List.infix_refl u, hspells, rfl⟩
  | left _ hq ih =>
    obtain ⟨v, e₁, hp, v', rfl, hspells⟩ := hspells
    obtain rfl := hspells.groups_eq hq
    obtain ⟨w, hinfix, hrest⟩ := ih hp
    exact ⟨w, hinfix.trans (List.prefix_append v v').isInfix, hrest⟩
  | right hp _ ih =>
    obtain ⟨v, e₁, hspells, v', rfl, hq⟩ := hspells
    obtain rfl := hspells.groups_eq hp
    obtain ⟨w, hinfix, hrest⟩ := ih hq
    exact ⟨w, hinfix.trans (List.suffix_append v v').isInfix, hrest⟩

/-! ### Texts that a match has to hold -/

/-- Every text that the pattern spells holds the text `t`. -/
inductive Needs (t : Text) : Pattern → Prop where
  | text : Needs t (text t)
  | left {p q : Pattern} (h : Needs t p) : Needs t (.both p q)
  | right {p q : Pattern} (h : Needs t q) : Needs t (.both p q)
  | group {n : Nat} {p : Pattern} (h : Needs t p) : Needs t (.group n p)

/-- The text that a pattern needs is in all that it spells. -/
theorem Needs.infix {t u : Text} {p : Pattern} {e e' : Groups} (h : Needs t p)
    (hspells : Spells p e u e') : t <:+: u := by
  induction h generalizing e u e' with
  | text => exact (spells_text.mp hspells).1 ▸ List.infix_refl _
  | left _ ih =>
    obtain ⟨v, e₁, hp, w, rfl, -⟩ := hspells
    exact (ih hp).trans (List.prefix_append v w).isInfix
  | right _ ih =>
    obtain ⟨v, e₁, -, w, rfl, hq⟩ := hspells
    exact (ih hq).trans (List.suffix_append v w).isInfix
  | group _ ih =>
    obtain ⟨e₁, hbody, -⟩ := hspells
    exact ih hbody

/-- There is no match in a text that does not hold what a match needs. -/
theorem Needs.not_matchesBehind {t w v : Text} {p : Pattern} {m : Match} (h : Needs w p)
    (ht : ¬w <:+: t) : ¬MatchesBehind p t v m := by
  intro hm
  obtain ⟨u, hu, -, -⟩ := exists_reads_of_matchAt? hm.2
  have hreads := hm.1.trans hu
  have htext : t = v ++ (u ++ m.stop.after) := by
    rw [← List.append_assoc]
    exact hreads.after_eq
  have hinfix := h.infix hm.spells
  rw [Match.text_of_reads hu] at hinfix
  refine ht ?_
  rw [htext]
  exact hinfix.trans ⟨v, m.stop.after, by rw [List.append_assoc]⟩

/-! ### Patterns without conditions -/

/-- Whether the pattern is made of characters, alternatives, repetitions and groups only, so that it
passes over what it spells wherever that stands. -/
def isUnconditional : Pattern → Bool
  | .empty => true
  | .one _ => true
  | .run _ _ _ => true
  | .both p q => p.isUnconditional && q.isUnconditional
  | .either p q => p.isUnconditional && q.isUnconditional
  | .star _ body => body.isUnconditional && body.isSolid
  | .group _ body => body.isUnconditional
  | _ => false

/-- What is spelled round by round is taken round by round, if each round moves on. -/
theorem exists_rounds_of_repeats {step : Cursor → Captures → Cursor → Captures → Prop}
    {spelled : Groups → Text → Groups → Prop}
    (hprogress : ∀ c caps c' caps', step c caps c' caps' → c.pos < c'.pos)
    (hstep : ∀ (c c' : Cursor) (caps : Captures) u e', c.Reads u c' → spelled (textsOf caps) u e' →
      ∃ caps', step c caps c' caps' ∧ textsOf caps' = e')
    {c c' : Cursor} {caps : Captures} {u : Text} {e e' : Groups} (hreads : c.Reads u c')
    (h : Repeats spelled e u e') (he : textsOf caps = e) :
    ∃ caps', Rounds step c caps c' caps' ∧ textsOf caps' = e' := by
  induction h generalizing c caps with
  | none e =>
    rw [hreads.unique (.refl c)]
    exact ⟨caps, .none c caps, he⟩
  | more round _ ih =>
    subst he
    obtain ⟨c₁, hreads₁, hrest⟩ := hreads.split
    obtain ⟨caps₁, htakes, hcaps₁⟩ := hstep _ _ _ _ _ hreads₁ round
    obtain ⟨caps', hrounds, rfl⟩ := ih hrest hcaps₁
    exact ⟨caps', .more htakes (hprogress _ _ _ _ htakes) hrounds, rfl⟩

/-- A pattern without conditions takes what it spells, wherever that stands. -/
theorem exists_takes_of_spells {p : Pattern} (hp : p.isUnconditional = true) {c c' : Cursor}
    {caps : Captures} {u : Text} {e' : Groups} (hreads : c.Reads u c')
    (hspells : Spells p (textsOf caps) u e') :
    ∃ caps', Takes p c caps c' caps' ∧ textsOf caps' = e' := by
  induction p generalizing c c' caps u e' with
  | empty =>
    obtain ⟨rfl, rfl⟩ := hspells
    exact ⟨caps, ⟨hreads.unique (.refl c), rfl⟩, rfl⟩
  | one set =>
    obtain ⟨a, ha, rfl, rfl⟩ := hspells
    exact ⟨caps, ⟨a, ha, hreads, rfl⟩, rfl⟩
  | run appetite least set =>
    obtain ⟨hall, hleast, rfl⟩ := hspells
    exact ⟨caps, ⟨u, hall, hleast, hreads, rfl⟩, rfl⟩
  | both p q ihp ihq =>
    rw [isUnconditional, Bool.and_eq_true] at hp
    obtain ⟨v, e₁, hv, w, rfl, hw⟩ := hspells
    obtain ⟨c₁, hreads₁, hrest⟩ := hreads.split
    obtain ⟨caps₁, htakes, rfl⟩ := ihp hp.1 hreads₁ hv
    obtain ⟨caps', htakes', rfl⟩ := ihq hp.2 hrest hw
    exact ⟨caps', ⟨c₁, caps₁, htakes, htakes'⟩, rfl⟩
  | either p q ihp ihq =>
    rw [isUnconditional, Bool.and_eq_true] at hp
    rcases hspells with hspells | hspells
    · obtain ⟨caps', htakes, rfl⟩ := ihp hp.1 hreads hspells
      exact ⟨caps', .inl htakes, rfl⟩
    · obtain ⟨caps', htakes, rfl⟩ := ihq hp.2 hreads hspells
      exact ⟨caps', .inr htakes, rfl⟩
  | star appetite body ih =>
    rw [isUnconditional, Bool.and_eq_true] at hp
    exact exists_rounds_of_repeats (isSolid_spec hp.2)
      (fun _ _ _ _ _ hreads hbody => ih hp.1 hreads hbody) hreads hspells rfl
  | group n body ih =>
    obtain ⟨e₁, hbody, rfl⟩ := hspells
    obtain ⟨caps₁, htakes, rfl⟩ := ih hp hreads hbody
    refine ⟨_, ⟨caps₁, htakes, rfl⟩, ?_⟩
    show (n, Capture.text ⟨c, c'⟩) :: textsOf caps₁ = (n, u) :: textsOf caps₁
    rw [Capture.text_of_reads hreads]
  -- These look at more than the text that they pass over.
  | rounds | again | place | ahead | notAhead => cases hp

/-- A pattern without conditions matches at the start of the texts that begin with what it spells.
-/
theorem isStart_iff_spells {p : Pattern} (hp : p.isUnconditional = true) {t : Text} :
    p.isStart t = true ↔ ∃ u r e, t = u ++ r ∧ Spells p [] u e := by
  rw [isStart, Option.isSome_iff_exists]
  constructor
  · rintro ⟨m, hm⟩
    obtain ⟨c', caps', htakes, -⟩ := exists_takes_of_run? hm
    obtain ⟨u, hreads, hspells⟩ := htakes.spells
    exact ⟨u, c'.after, _, hreads.after_eq, hspells⟩
  · rintro ⟨u, r, e, rfl, hspells⟩
    have hreads : (Cursor.start (u ++ r)).Reads u ((Cursor.start (u ++ r)).behind u) :=
      Cursor.reads_behind (List.prefix_append u r)
    have hstart : Spells p (textsOf []) u e := hspells
    obtain ⟨caps', htakes, -⟩ := exists_takes_of_spells hp hreads hstart
    exact Option.isSome_iff_exists.mp (isSome_run?_of_takes htakes rfl)

end CodeTidy.Pattern
