import CodeTidy.Proofs.Pattern.Rewrite

/-!
# `CodeTidy.Proofs.Pattern.Stretch`: a search behind a stretch of the text

Two patterns that are searched in one text are followed side by side, so the walk
of one of them has to be taken up behind what the other one has matched. That is
possible behind any stretch whose end no match runs over. The theorems:

* `Cuts.behind`: the walk behind such a stretch, and the matches in it.
* `Cuts.behind_gap`: the same where no match begins in the stretch.
* `Cuts.exists_hit`: a match behind such a stretch is among the segments.
* `flatMap_rewrite_congr`: what becomes of the text depends on the matches only.
-/

set_option autoImplicit false

namespace CodeTidy

/-- At the end of the text nothing is left to read. -/
theorem Cursor.Reads.of_after {c c' : Cursor} {u : Text} (h : c.Reads u c') (hend : c.after = []) :
    u = [] ∧ c' = c := by
  have hafter := h.after_eq
  rw [hend] at hafter
  obtain rfl := (List.append_eq_nil_iff.mp hafter.symm).1
  exact ⟨rfl, h.unique (.refl c)⟩

/-- One character is read in one way. -/
theorem Cursor.Reads.one_unique {c c₁ c₂ : Cursor} {a b : Char} (h : c.Reads [a] c₁)
    (h' : c.Reads [b] c₂) : a = b ∧ c₁ = c₂ := by
  obtain ⟨rfl, -⟩ := List.cons.inj (h.after_eq.symm.trans h'.after_eq)
  exact ⟨rfl, h.unique h'⟩

/-- Behind the stretch the text goes on with the rest. -/
theorem Cursor.after_behind {c : Cursor} {u r : Text} (h : c.after = u ++ r) :
    (c.behind u).after = r := by
  rw [Cursor.behind, h, List.drop_left]

/-- Of two stretches the shorter one is the start of the longer one. -/
theorem Cursor.Reads.exists_rest {c c₁ c' : Cursor} {u v : Text} (h : c.Reads u c')
    (h₁ : c.Reads v c₁) (hle : v.length ≤ u.length) : ∃ w, u = v ++ w ∧ c₁.Reads w c' := by
  have hprefix : v <+: u :=
    List.prefix_of_prefix_length_le ⟨c₁.after, h₁.after_eq.symm⟩ ⟨c'.after, h.after_eq.symm⟩ hle
  obtain ⟨w, rfl⟩ := hprefix
  obtain ⟨c₂, hreads, hrest⟩ := h.split
  exact ⟨w, rfl, hreads.unique h₁ ▸ hrest⟩

/-- What stands behind the first part of a stretch. -/
theorem Cursor.Reads.after_of_split {c d c' : Cursor} {u v w : Text} (h : c.Reads v d)
    (hu : c.Reads u c') (huv : u = v ++ w) : d.after = w ++ c'.after := by
  have hafter := h.after_eq.symm.trans hu.after_eq
  rw [huv, List.append_assoc] at hafter
  exact List.append_cancel_left hafter

namespace Pattern

variable {p : Pattern} {c c' : Cursor} {segments : List Segment} {u : Text}

/-- The gaps among some segments. -/
def gapsOf (segments : List Segment) : List Text :=
  segments.filterMap (fun s => match s with
    | .gap t => some t
    | .hit _ => none)

/-- The gaps of a text are those among its segments. -/
theorem gaps_eq (p : Pattern) (t : Text) : p.gaps t = gapsOf (p.segments t) := rfl

/-- Segments begin with a gap, if an empty one. -/
theorem Cuts.exists_gap (h : Cuts p c segments) : ∃ g rest, segments = .gap g :: rest := by
  cases h <;> exact ⟨_, _, rfl⟩

/-- Where the text ends there is nothing but an empty gap. -/
theorem Cuts.of_end (hp : IsSolid p) (h : Cuts p c segments) (hend : c.after = []) :
    segments = [.gap []] := by
  cases h with
  | stop => rfl
  | pass hread => exact absurd (hread.of_after hend).1 (List.cons_ne_nil _ _)
  | hit hmatch =>
    obtain ⟨a, u, hreads, -⟩ := exists_cons_reads_of_matchAt? hp hmatch
    exact absurd (hreads.of_after hend).1 (List.cons_ne_nil a u)

/-- Where the pattern matches, the walk goes on behind the match. -/
theorem Cuts.of_match (hp : IsSolid p) (h : Cuts p c segments) {m : Match}
    (hm : p.matchAt? c = some m) :
    ∃ rest, segments = .gap [] :: .hit m :: rest ∧ Cuts p m.stop rest := by
  cases h with
  | stop hend =>
    obtain ⟨a, u, hreads, -⟩ := exists_cons_reads_of_matchAt? hp hm
    exact absurd (hreads.of_after hend).1 (List.cons_ne_nil a u)
  | pass _ hnone =>
    rw [hnone] at hm
    cases hm
  | hit hmatch hrest =>
    rw [hmatch] at hm
    cases hm
    exact ⟨_, rfl, hrest⟩

/-- What a stretch without matches begins with goes to the gap. -/
theorem Cuts.behind_gap (h : Cuts p c segments) (hreads : c.Reads u c')
    (hnone : ∀ v w d, u = v ++ w → w ≠ [] → c.Reads v d → p.matchAt? d = none) :
    ∃ g rest, segments = .gap (u ++ g) :: rest ∧ Cuts p c' (.gap g :: rest) := by
  induction u generalizing c segments with
  | nil =>
    obtain rfl := hreads.unique (.refl c)
    obtain ⟨g, rest, rfl⟩ := h.exists_gap
    exact ⟨g, rest, rfl, h⟩
  | cons a u ih =>
    obtain ⟨c₁, hread, hrest⟩ := Cursor.Reads.split (u := [a]) hreads
    cases h with
    | stop hend => exact absurd (hreads.of_after hend).1 (List.cons_ne_nil a u)
    -- The walk passes over the first character, and the rest is a shorter stretch.
    | @pass _ c₂ b g rest hread' _ hcuts =>
      obtain ⟨rfl, rfl⟩ := hread'.one_unique hread
      obtain ⟨g', rest', heq, hcuts'⟩ := ih hcuts hrest fun v w d huv hw hd =>
        hnone (b :: v) w d (by rw [huv]; rfl) hw (hread.cons hd)
      obtain ⟨hg, rfl⟩ := List.cons.inj heq
      cases hg
      exact ⟨g', _, rfl, hcuts'⟩
    | hit hmatch =>
      rw [hnone [] (a :: u) c rfl (List.cons_ne_nil a u) (.refl c)] at hmatch
      cases hmatch

/-- The walk behind a stretch whose end no match runs over, and the matches in the stretch. -/
theorem Cuts.behind (h : Cuts p c segments) (hreads : c.Reads u c')
    (hcross : ∀ v w d m, u = v ++ w → w ≠ [] → c.Reads v d → p.matchAt? d = some m →
      m.text.length ≤ w.length) :
    ∃ front rest, Cuts p c' rest ∧ hitsOf segments = front ++ hitsOf rest ∧
      (∀ m ∈ front, c.pos ≤ m.start.pos ∧ m.start.pos < c'.pos) ∧
      ∀ f, (∀ m ∈ front, f m = m.text) →
        segments.flatMap (Segment.rewrite f) = u ++ rest.flatMap (Segment.rewrite f) := by
  induction h generalizing u with
  | stop hend =>
    obtain ⟨rfl, rfl⟩ := hreads.of_after hend
    exact ⟨[], _, .stop hend, rfl, by simp, fun _ _ => rfl⟩
  | @pass c c₁ a g rest hread hnone hcuts ih =>
    obtain _ | ⟨b, u⟩ := u
    · obtain rfl := hreads.unique (.refl c)
      exact ⟨[], _, .pass hread hnone hcuts, rfl, by simp, fun _ _ => rfl⟩
    · obtain ⟨c₂, hread', hrest⟩ := Cursor.Reads.split (u := [b]) hreads
      obtain ⟨rfl, rfl⟩ := hread.one_unique hread'
      obtain ⟨front, rest', hcuts', hhits, hfront, hrewrite⟩ := ih hrest fun v w d m huv hw hd =>
        hcross (a :: v) w d m (by rw [huv]; rfl) hw (hread.cons hd)
      have hpos := hread.pos_eq
      refine ⟨front, rest', hcuts', hhits, fun m hm => ?_, fun f hf => ?_⟩
      · have hmatch := hfront m hm
        omega
      · exact congrArg (a :: ·) (hrewrite f hf)
  | @hit c m rest hmatch hcuts ih =>
    obtain _ | ⟨b, u⟩ := u
    · obtain rfl := hreads.unique (.refl c)
      exact ⟨[], _, .hit hmatch hcuts, rfl, by simp, fun _ _ => rfl⟩
    · obtain ⟨x, hx, htext, -⟩ := exists_reads_of_matchAt? hmatch
      -- u) c m rfl :: The match at the front ends within the stretch, so a stretch is left behind
      -- it.
      have hle := hcross [] (b :: u) c m rfl (List.cons_ne_nil b u) (.refl c) hmatch
      rw [htext] at hle
      obtain ⟨w, hw, hrest⟩ := hreads.exists_rest hx hle
      obtain ⟨front, rest', hcuts', hhits, hfront, hrewrite⟩ := ih hrest fun v w' d m' huv hw' hd =>
        hcross (x ++ v) w' d m' (by rw [hw, huv, List.append_assoc]) hw' (hx.trans hd)
      have hstart := congrArg Cursor.pos (takes_of_matchAt? hmatch).1
      have hpos := hreads.pos_eq
      have hpos' := hx.pos_eq
      rw [List.length_cons] at hpos
      refine ⟨m :: front, rest', hcuts', congrArg (m :: ·) hhits, fun m' hm' => ?_, fun f hf => ?_⟩
      · rcases List.mem_cons.mp hm' with rfl | hm'
        · omega
        · have hmatch' := hfront m' hm'
          omega
      · rw [List.forall_mem_cons] at hf
        rw [List.flatMap_cons, List.flatMap_cons, Segment.rewrite, Segment.rewrite, hf.1, htext,
          hrewrite f hf.2, hw, List.append_assoc]
        rfl

/-- A match behind a stretch whose end no match runs over is among the segments. -/
theorem Cuts.exists_hit (hp : IsSolid p) (h : Cuts p c segments) {m : Match}
    (hreads : c.Reads u m.start) (hm : p.matchAt? m.start = some m)
    (hcross : ∀ v w d m', u = v ++ w → w ≠ [] → c.Reads v d → p.matchAt? d = some m' →
      m'.text.length ≤ w.length) :
    ∃ before after, segments = before ++ .hit m :: after ∧
      before.flatMap Segment.text = u := by
  induction h generalizing u with
  -- The match takes a character, so the text does not end here.
  | stop hend =>
    obtain ⟨a, v, hv, -⟩ := exists_cons_reads_of_matchAt? hp hm
    exact absurd ((hreads.trans hv).of_after hend).1
      (List.append_ne_nil_of_right_ne_nil u (List.cons_ne_nil a v))
  | @pass c c' a g rest hread hnone _ ih =>
    cases u with
    | nil =>
      rw [hreads.unique (.refl c), hnone] at hm
      cases hm
    | cons b u =>
      obtain ⟨c₁, hread', hrest⟩ := Cursor.Reads.split (u := [b]) hreads
      obtain ⟨rfl, rfl⟩ := hread.one_unique hread'
      obtain ⟨before, after, hsegments, htext⟩ := ih hrest fun v w d m' huv hw hd =>
        hcross (a :: v) w d m' (by rw [huv]; rfl) hw (hread.cons hd)
      cases before with
      | nil => cases hsegments
      | cons s before =>
        obtain ⟨rfl, rfl⟩ := List.cons.inj hsegments
        exact ⟨.gap (a :: g) :: before, after, rfl, congrArg (a :: ·) htext⟩
  | @hit c m' rest hmatch _ ih =>
    cases u with
    | nil =>
      rw [hreads.unique (.refl c), hmatch] at hm
      cases hm
      exact ⟨[.gap []], rest, rfl, rfl⟩
    | cons b u =>
      obtain ⟨x, hx, htext, -⟩ := exists_reads_of_matchAt? hmatch
      -- u) c m' rfl :: An earlier match ends in front of ours.
      have hle := hcross [] (b :: u) c m' rfl (List.cons_ne_nil b u) (.refl c) hmatch
      rw [htext] at hle
      obtain ⟨w, hw, hrest⟩ := hreads.exists_rest hx hle
      obtain ⟨before, after, hsegments, hflat⟩ := ih hrest fun v w' d m'' huv hw' hd =>
        hcross (x ++ v) w' d m'' (by rw [hw, huv, List.append_assoc]) hw' (hx.trans hd)
      refine ⟨.gap [] :: .hit m' :: before, after, by rw [hsegments]; rfl, ?_⟩
      rw [List.flatMap_cons, List.flatMap_cons, hflat, hw, ← htext]
      rfl

/-- What becomes of the text depends on what becomes of the matches in it. -/
theorem flatMap_rewrite_congr {f f' : Match → Text}
    (h : ∀ m ∈ hitsOf segments, f m = f' m) :
    segments.flatMap (Segment.rewrite f) = segments.flatMap (Segment.rewrite f') := by
  have hsegment : ∀ s ∈ segments, s.rewrite f = s.rewrite f' := by
    intro s hs
    cases s with
    | gap g => rfl
    | hit m => exact h m (List.mem_filterMap.mpr ⟨.hit m, hs, rfl⟩)
  rw [List.flatMap_def, List.flatMap_def, List.map_congr_left hsegment]

end Pattern

end CodeTidy
