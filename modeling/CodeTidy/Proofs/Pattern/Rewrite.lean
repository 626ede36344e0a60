import CodeTidy.Proofs.Pattern.Shapes
import CodeTidy.Proofs.Text.Reader

/-!
# `CodeTidy.Proofs.Pattern.Rewrite`: what a replacement keeps

A replacement puts a text in the place of each match. Whether a `Reader` comes
to the same state by the result as by the text before is a question about one
match at a time, in the state that the reader is in there. The theorems:

* `read_replace`: a replacement that a reader does not notice at any match is
  not noticed at all.
* `close_read_replace`: the same where a replacement may drop white space in
  front of something that is not tight.
* `filter_replace`: a replacement that keeps some characters of each match
  keeps them in the text.
* `replace_eq_self`: a replacement that keeps each match does nothing.
* `Cuts.pieces`: the segments of a text, a whole gap at a time.
-/

set_option autoImplicit false

namespace CodeTidy

open Text

/-- What a segment becomes when `f` is applied to the matches. -/
def Segment.rewrite (f : Match → Text) : Segment → Text
  | .gap t => t
  | .hit m => f m

namespace Pattern

/-- A replacement goes segment by segment. -/
theorem replace_eq (p : Pattern) (f : Match → Text) (t : Text) :
    p.replace f t = (p.segments t).flatMap (Segment.rewrite f) := rfl

/-- The segments of the text behind a cursor, a whole gap at a time. -/
inductive Pieces (p : Pattern) : Cursor → List Segment → Prop where
  | last {c c' : Cursor} {g : Text} (hgap : c.Reads g c') (hend : c'.after = []) :
      Pieces p c [.gap g]
  | more {c c' : Cursor} {g : Text} {m : Match} {rest : List Segment} (hgap : c.Reads g c')
      (hmatch : p.matchAt? c' = some m) (hrest : Pieces p m.stop rest) :
      Pieces p c (.gap g :: .hit m :: rest)

/-- Segments character by character are segments a whole gap at a time. -/
theorem Cuts.pieces {p : Pattern} {c : Cursor} {segments : List Segment}
    (h : Cuts p c segments) : Pieces p c segments := by
  induction h with
  | stop hend => exact .last (.refl _) hend
  | pass hread hnone hrest ih =>
    cases ih with
    | last hgap hend => exact .last (hread.cons hgap) hend
    | more hgap hmatch hpieces => exact .more (hread.cons hgap) hmatch hpieces
  | hit hmatch hrest ih => exact .more (.refl _) hmatch ih

/-- The matches of the pattern in the text, each with the text before it. -/
def MatchesBehind (p : Pattern) (t v : Text) (m : Match) : Prop :=
  (Cursor.start t).Reads v m.start ∧ p.matchAt? m.start = some m

section

variable {p : Pattern} {f : Match → Text} {t : Text}

/-- A match in the text is a way of the pattern. -/
theorem MatchesBehind.takes {v : Text} {m : Match} (h : MatchesBehind p t v m) :
    Takes p m.start [] m.stop m.groups :=
  (takes_of_matchAt? h.2).2

/-- A text around a match. -/
theorem MatchesBehind.eq_append {v : Text} {m : Match} (h : MatchesBehind p t v m) :
    t = v ++ (m.text ++ m.stop.after) := by
  obtain ⟨u, hu, htext, -⟩ := exists_reads_of_matchAt? h.2
  rw [htext, ← hu.after_eq, ← h.1.after_eq]
  rfl

/-- A match among the segments of a text stands behind some of the text. -/
theorem exists_matchesBehind (hp : IsSolid p) {m : Match} (h : .hit m ∈ p.segments t) :
    ∃ v, MatchesBehind p t v m := by
  have hwalk : ∀ c segments, Cuts p c segments → ∀ v, (Cursor.start t).Reads v c →
      .hit m ∈ segments → ∃ v, MatchesBehind p t v m := by
    intro c segments hcuts
    -- The invariant: `v` is the text that has been passed.
    induction hcuts with
    | stop =>
      intro v _ hmem
      simp at hmem
    | @pass c c' a g rest hread _ _ ih =>
      intro v hv hmem
      exact ih (v ++ [a]) (hv.trans hread) (by simpa using hmem)
    | @hit c m' rest hmatch _ ih =>
      intro v hv hmem
      obtain ⟨u, hu, -, -⟩ := exists_reads_of_matchAt? hmatch
      obtain ⟨hstart, -⟩ := takes_of_matchAt? hmatch
      rcases List.mem_cons.mp (List.mem_of_ne_of_mem (by simp) hmem) with heq | hrest
      · cases heq
        exact ⟨v, hstart ▸ hv, hstart ▸ hmatch⟩
      · exact ih (v ++ u) (hv.trans hu) hrest
  exact hwalk _ _ (cuts_segments hp t) [] (.refl _) h

/-- A match that is listed stands behind some of the text. -/
theorem exists_matchesBehind_of_mem_hits (hp : IsSolid p) {m : Match} (h : m ∈ p.hits t) :
    ∃ v, MatchesBehind p t v m := by
  rw [← hitsOf_segments, hitsOf, List.mem_filterMap] at h
  obtain ⟨s, hs, hsome⟩ := h
  cases s with
  | gap g => cases hsome
  | hit m' =>
    cases hsome
    exact exists_matchesBehind hp hs

/-- A replacement that keeps some characters of each match keeps them in the text. -/
theorem filter_replace (hp : IsSolid p) {keep : Char → Bool}
    (hf : ∀ v m, MatchesBehind p t v m → (f m).filter keep = m.text.filter keep) :
    (p.replace f t).filter keep = t.filter keep := by
  have hsegment : ∀ s ∈ p.segments t, (s.rewrite f).filter keep = s.text.filter keep := by
    intro s hs
    cases s with
    | gap g => rfl
    | hit m =>
      obtain ⟨v, hv⟩ := exists_matchesBehind hp hs
      exact hf v m hv
  calc (p.replace f t).filter keep
      = (p.segments t).flatMap (fun s => (s.rewrite f).filter keep) := List.filter_flatMap
    _ = (p.segments t).flatMap (fun s => s.text.filter keep) := by
        rw [List.flatMap_def, List.flatMap_def, List.map_congr_left hsegment]
    _ = ((p.segments t).flatMap Segment.text).filter keep := List.filter_flatMap.symm
    _ = t.filter keep := by rw [flatten_segments hp]

/-- A replacement that keeps each match does nothing. -/
theorem replace_eq_self (hp : IsSolid p) (hf : ∀ v m, MatchesBehind p t v m → f m = m.text) :
    p.replace f t = t := by
  have hsegment : ∀ s ∈ p.segments t, s.rewrite f = s.text := by
    intro s hs
    cases s with
    | gap g => rfl
    | hit m =>
      obtain ⟨v, hv⟩ := exists_matchesBehind hp hs
      exact hf v m hv
  rw [replace_eq, List.flatMap_def, List.map_congr_left hsegment, ← List.flatMap_def,
    flatten_segments hp]

end

section Reader

variable {σ : Type} (r : Reader σ) {p : Pattern} {f : Match → Text} {t : Text}

/-- A reader cannot tell the new text from the old one, if it cannot tell any match from what takes
its place, in the state that it comes to the match in. -/
theorem read_replace (hp : IsSolid p) (s : σ)
    (hf : ∀ v m, MatchesBehind p t v m → r.read (r.read s v) (f m) = r.read (r.read s v) m.text) :
    r.read s (p.replace f t) = r.read s t := by
  have hwalk : ∀ c segments, Cuts p c segments → ∀ v, (Cursor.start t).Reads v c →
      r.read (r.read s v) (segments.flatMap (Segment.rewrite f)) = r.read (r.read s v) c.after := by
    intro c segments hcuts
    -- The invariant: `v` is the text that has been passed, so that `r.read s v` is the state.
    induction hcuts with
    | stop hend =>
      intro v hv
      rw [hend]
      rfl
    | @pass c c' a g rest hread hnone hrest ih =>
      intro v hv
      have hrest := ih (v ++ [a]) (hv.trans hread)
      rw [r.read_append] at hrest
      rw [hread.after_eq]
      exact hrest
    | @hit c m rest hmatch hrest ih =>
      intro v hv
      obtain ⟨u, hu, htext, -⟩ := exists_reads_of_matchAt? hmatch
      obtain ⟨hstart, -⟩ := takes_of_matchAt? hmatch
      have hm := hf v m ⟨hstart ▸ hv, hstart ▸ hmatch⟩
      have hrest := ih (v ++ u) (hv.trans hu)
      rw [r.read_append, ← htext, ← hm] at hrest
      rw [List.flatMap_cons, List.flatMap_cons, Segment.rewrite, Segment.rewrite, List.nil_append,
        r.read_append, hrest, hm, ← r.read_append, htext, ← hu.after_eq]
  exact hwalk _ _ (cuts_segments hp t) [] (.refl _)

/-- Two states agree in front of a text, as long as it does not go on from what only one of them
is in. -/
def Agrees (c : Cursor) (s s' : σ) : Prop :=
  r.close s = r.close s' ∧ (c.precedes r.isTight = true → s = s')

/-- A state agrees with itself. -/
theorem Agrees.refl (c : Cursor) (s : σ) : Agrees r c s s := ⟨rfl, fun _ => rfl⟩

variable {r} in
/-- States that agree take the next character alike. -/
theorem Agrees.step {c c' : Cursor} {s s' : σ} {a : Char} {u : Text} (h : Agrees r c s s')
    (hread : c.Reads (a :: u) c') : r.step s a = r.step s' a := by
  cases htight : r.isTight a with
  | true => rw [h.2 (by rw [hread.precedes, htight])]
  | false => rw [← r.step_close s a htight, ← r.step_close s' a htight, h.1]

/-- A reader cannot tell the new text from the old one at its end, if what takes the place of a
match keeps the states in agreement. -/
theorem close_read_replace (hp : IsSolid p) (s₀ : σ)
    (hf : ∀ v m s, MatchesBehind p t v m → Agrees r m.start s (r.read s₀ v) →
      Agrees r m.stop (r.read s (f m)) (r.read s₀ (v ++ m.text))) :
    r.close (r.read s₀ (p.replace f t)) = r.close (r.read s₀ t) := by
  have hwalk : ∀ c segments, Cuts p c segments → ∀ v s, (Cursor.start t).Reads v c →
      Agrees r c s (r.read s₀ v) →
      r.close (r.read s (segments.flatMap (Segment.rewrite f))) =
        r.close (r.read s₀ (v ++ c.after)) := by
    intro c segments hcuts
    -- The invariant: the state after the new text agrees with that after the old one.
    induction hcuts with
    | stop hend =>
      intro v s hv hs
      rw [hend, List.append_nil]
      exact hs.1
    | @pass c c' a g rest hread hnone hrest ih =>
      intro v s hv hs
      have hstep : Agrees r c' (r.step s a) (r.read s₀ (v ++ [a])) := by
        rw [hs.step hread, r.read_append]
        exact .refl r c' _
      have hrest := ih (v ++ [a]) (r.step s a) (hv.trans hread) hstep
      rw [List.append_assoc, ← hread.after_eq] at hrest
      exact hrest
    | @hit c m rest hmatch hrest ih =>
      intro v s hv hs
      obtain ⟨u, hu, htext, -⟩ := exists_reads_of_matchAt? hmatch
      obtain ⟨hstart, -⟩ := takes_of_matchAt? hmatch
      have hm := hf v m s ⟨hstart ▸ hv, hstart ▸ hmatch⟩ (hstart ▸ hs)
      have hrest := ih (v ++ u) (r.read s (f m)) (hv.trans hu) (htext ▸ hm)
      rw [List.append_assoc, ← hu.after_eq, ← r.read_append] at hrest
      exact hrest
  exact hwalk _ _ (cuts_segments hp t) [] s₀ (.refl _) (.refl r _ _)

end Reader

end Pattern

end CodeTidy
