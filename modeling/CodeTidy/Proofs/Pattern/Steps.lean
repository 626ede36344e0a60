import CodeTidy.Proofs.Except
import CodeTidy.Proofs.Pattern.Rewrite
import CodeTidy.Rule.Basic

/-!
# `CodeTidy.Proofs.Pattern.Steps`: a replacement, one match at a time

The text before a replacement and the one after it are related if each single
match and what takes its place are, whatever stands around them. To see that a
replacement gets somewhere it is enough to look at the first match that it
changes. The theorems:

* `replace_related`: a relation between texts that one match after the other
  keeps.
* `exists_first_change`: the first match that is changed, in front of which all
  is as before.
* `writes_replace`: a replacement writes the new text one character or match
  after the other.
* `replace_of_replaceM`, `replaceM_eq_self`: a replacement that may fail and does
  not is one that cannot, and without matches it does not.
* `RuleTable.apply_related`: a relation between texts that one rule after the other
  keeps.
-/

set_option autoImplicit false

namespace CodeTidy

namespace Pattern

variable {p : Pattern} {f : Match → Text} {t : Text}

/-- A segment consists of characters of the text. -/
theorem subset_of_mem_segments (hp : IsSolid p) {s : Segment} (h : s ∈ p.segments t) :
    s.text ⊆ t := by
  intro c hc
  rw [← flatten_segments hp t]
  exact List.mem_flatMap.mpr ⟨s, h, hc⟩

/-- A text and what becomes of it are related if each match that changes and what takes its place
are. What stands in front of the match has been replaced before, what stands behind it has not. -/
theorem replace_related (hp : IsSolid p) {R : Text → Text → Prop} (hrefl : ∀ t, R t t)
    (htrans : ∀ a b c, R a b → R b c → R a c)
    (hf : ∀ v m, MatchesBehind p t v m → f m ≠ m.text → ∀ x,
      R (x ++ (m.text ++ m.stop.after)) (x ++ (f m ++ m.stop.after))) : R t (p.replace f t) := by
  have hwalk : ∀ c segments, Cuts p c segments → ∀ v, (Cursor.start t).Reads v c → ∀ x,
      R (x ++ c.after) (x ++ segments.flatMap (Segment.rewrite f)) := by
    intro c segments hcuts
    -- The invariant: `v` is the text that has been passed, and `x` has taken its place.
    induction hcuts with
    | stop hend =>
      intro v _ x
      rw [hend]
      exact hrefl _
    | @pass c c' a g rest hread _ _ ih =>
      intro v hv x
      have hrest := ih (v ++ [a]) (hv.trans hread) (x ++ [a])
      rw [List.append_assoc, ← hread.after_eq, List.append_assoc] at hrest
      exact hrest
    | @hit c m rest hmatch _ ih =>
      intro v hv x
      obtain ⟨u, hu, htext, -⟩ := exists_reads_of_matchAt? hmatch
      obtain ⟨hstart, -⟩ := takes_of_matchAt? hmatch
      have hm : R (x ++ (m.text ++ m.stop.after)) (x ++ (f m ++ m.stop.after)) := by
        by_cases hsame : f m = m.text
        · rw [hsame]
          exact hrefl _
        · exact hf v m ⟨hstart ▸ hv, hstart ▸ hmatch⟩ hsame x
      have hrest := ih (v ++ u) (hv.trans hu) (x ++ f m)
      rw [htext, ← hu.after_eq] at hm
      rw [List.append_assoc, List.append_assoc] at hrest
      exact htrans _ _ _ hm hrest
  exact hwalk _ _ (cuts_segments hp t) [] (.refl _) []

/-- The first match that a replacement changes. In front of it all is as before; behind it stand
the segments that are left, in which further matches are replaced. -/
theorem exists_first_change (hp : IsSolid p) (h : p.replace f t ≠ t) :
    ∃ (v : Text) (m : Match) (rest : List Segment), MatchesBehind p t v m ∧ f m ≠ m.text ∧
      t = v ++ (m.text ++ rest.flatMap Segment.text) ∧
      m.stop.after = rest.flatMap Segment.text ∧
      p.replace f t = v ++ (f m ++ rest.flatMap (Segment.rewrite f)) ∧
      ∀ m', .hit m' ∈ rest → ∃ v', MatchesBehind p t v' m' := by
  have hwalk : ∀ c segments, Cuts p c segments → ∀ v, (Cursor.start t).Reads v c →
      (∀ m', .hit m' ∈ segments → ∃ v', MatchesBehind p t v' m') →
      segments.flatMap (Segment.rewrite f) ≠ c.after →
      ∃ (u : Text) (m : Match) (rest : List Segment), (Cursor.start t).Reads (v ++ u) m.start ∧
        p.matchAt? m.start = some m ∧
        f m ≠ m.text ∧ c.after = u ++ (m.text ++ rest.flatMap Segment.text) ∧
        m.stop.after = rest.flatMap Segment.text ∧
        segments.flatMap (Segment.rewrite f) = u ++ (f m ++ rest.flatMap (Segment.rewrite f)) ∧
        ∀ m', .hit m' ∈ rest → ∃ v', MatchesBehind p t v' m' := by
    intro c segments hcuts
    -- The invariant: `v` is the text that has been passed, and nothing in it was changed.
    induction hcuts with
    | stop hend =>
      intro v _ _ hne
      exact absurd (by simp [Segment.rewrite, hend]) hne
    | @pass c c' a g rest hread _ _ ih =>
      intro v hv hhits hne
      have hne' : (Segment.gap g :: rest).flatMap (Segment.rewrite f) ≠ c'.after := by
        intro heq
        refine hne ?_
        rw [hread.after_eq, ← heq]
        rfl
      obtain ⟨u, m, rest', hstart, hmatch, hf, hafter, hstop, hnew, hrest⟩ :=
        ih (v ++ [a]) (hv.trans hread) (by simpa using hhits) hne'
      refine ⟨a :: u, m, rest', ?_, hmatch, hf, ?_, hstop, ?_, hrest⟩
      · rwa [List.append_assoc] at hstart
      · rw [hread.after_eq, hafter]
        rfl
      · exact congrArg (a :: ·) hnew
    | @hit c m rest hmatch hcuts ih =>
      intro v hv hhits hne
      obtain ⟨u, hu, htext, -⟩ := exists_reads_of_matchAt? hmatch
      obtain ⟨hstart, -⟩ := takes_of_matchAt? hmatch
      have hrest : ∀ m', .hit m' ∈ rest → ∃ v', MatchesBehind p t v' m' := fun m' hm' =>
        hhits m' (List.mem_cons_of_mem _ (List.mem_cons_of_mem _ hm'))
      by_cases hf : f m = m.text
      · have hne' : rest.flatMap (Segment.rewrite f) ≠ m.stop.after := by
          intro heq
          refine hne ?_
          rw [List.flatMap_cons, List.flatMap_cons, Segment.rewrite, Segment.rewrite,
            heq, hf, htext, List.nil_append, ← hu.after_eq]
        obtain ⟨u', m', rest', hstart', hmatch', hf', hafter, hstop, hnew, hrest'⟩ :=
          ih (v ++ u) (hv.trans hu) hrest hne'
        refine ⟨u ++ u', m', rest', ?_, hmatch', hf', ?_, hstop, ?_, hrest'⟩
        · rwa [List.append_assoc] at hstart'
        · rw [hu.after_eq, hafter, List.append_assoc]
        · rw [List.flatMap_cons, List.flatMap_cons, Segment.rewrite, Segment.rewrite,
            hnew, hf, htext, List.nil_append, List.append_assoc]
      · refine ⟨[], m, rest, ?_, ?_, hf, ?_, hcuts.flatten.symm, ?_, hrest⟩
        · rw [List.append_nil]
          exact hstart ▸ hv
        · exact hstart ▸ hmatch
        · rw [htext, hcuts.flatten, List.nil_append]
          exact hu.after_eq
        · rfl
  obtain ⟨v, m, rest, hstart, hmatch, hf, hafter, hstop, hnew, hrest⟩ :=
    hwalk _ _ (cuts_segments hp t) [] (.refl _)
      (fun m hm => exists_matchesBehind hp hm) (by rwa [← replace_eq])
  exact ⟨v, m, rest, ⟨hstart, hmatch⟩, hf, hafter, hstop, hnew, hrest⟩

/-- From the cursor on, a replacement writes the text: it copies a character where the pattern does
not match, and writes `f` of a match where it does. -/
inductive Writes (p : Pattern) (f : Match → Text) : Cursor → Text → Prop where
  | stop {c : Cursor} (hend : c.after = []) : Writes p f c []
  | pass {c c' : Cursor} {a : Char} {out : Text} (hread : c.Reads [a] c')
      (hnone : p.matchAt? c = none) (hrest : Writes p f c' out) : Writes p f c (a :: out)
  | hit {c : Cursor} {m : Match} {out rest : Text} (hmatch : p.matchAt? c = some m)
      (hrest : Writes p f m.stop rest) (hout : out = f m ++ rest) : Writes p f c out

/-- A replacement writes its result, step by step. -/
theorem writes_replace (hp : IsSolid p) (f : Match → Text) (t : Text) :
    Writes p f (Cursor.start t) (p.replace f t) := by
  have hwalk : ∀ c segments, Cuts p c segments →
      Writes p f c (segments.flatMap (Segment.rewrite f)) := by
    intro c segments hcuts
    induction hcuts with
    | stop hend => exact .stop hend
    | pass hread hnone _ ih => exact .pass hread hnone ih
    | hit hmatch _ ih => exact .hit hmatch ih rfl
  exact hwalk _ _ (cuts_segments hp t)

section Failing

variable {ε : Type} (g : Match → Except ε Text)

/-- What becomes of a segment, unless `g` fails at it. -/
def rewriteM : Segment → Except ε Text
  | .gap t => .ok t
  | .hit m => g m

/-- What becomes of a match; if `g` fails at it, it stays as it is. -/
def orSame (m : Match) : Text := (g m).toOption.getD m.text

/-- If a segment is rewritten without a failure, no match of it stays for want of a result. -/
theorem rewrite_of_rewriteM {s : Segment} {u : Text} (h : rewriteM g s = .ok u) :
    s.rewrite (orSame g) = u := by
  cases s with
  | gap t =>
    cases h
    rfl
  | hit m =>
    have hm : g m = .ok u := h
    rw [Segment.rewrite, orSame, hm]
    rfl

/-- The same for all segments. -/
theorem flatten_of_mapM {segments : List Segment} {pieces : List Text}
    (h : segments.mapM (rewriteM g) = .ok pieces) :
    pieces.flatten = segments.flatMap (Segment.rewrite (orSame g)) := by
  have hsame : List.Forall₂ Eq (segments.map (Segment.rewrite (orSame g))) pieces := by
    rw [List.forall₂_map_left_iff]
    exact (mapM_eq_ok_iff.mp h).imp fun _ _ => rewrite_of_rewriteM g
  rw [List.forall₂_eq_eq_eq] at hsame
  rw [List.flatMap_def, hsame]

/-- A replacement that may fail and does not is one that cannot. -/
theorem replace_of_replaceM {t' : Text} (h : p.replaceM g t = .ok t') :
    t' = p.replace (orSame g) t := by
  have hmap : p.replaceM g t =
      (do let pieces ← (p.segments t).mapM (rewriteM g); return pieces.flatten) := rfl
  rw [hmap] at h
  obtain ⟨pieces, hpieces, h⟩ := ok_of_bind h
  cases h
  exact flatten_of_mapM g hpieces

/-- Without matches a replacement that may fail does not, and does nothing. -/
theorem replaceM_eq_self (hp : IsSolid p) (h : ∀ v m, ¬MatchesBehind p t v m) :
    p.replaceM g t = .ok t := by
  have hpieces : (p.segments t).mapM (rewriteM g) = .ok ((p.segments t).map Segment.text) := by
    refine mapM_eq_ok_map fun s hs => ?_
    cases s with
    | gap u => rfl
    | hit m =>
      obtain ⟨v, hv⟩ := exists_matchesBehind hp hs
      exact absurd hv (h v m)
  have hmap : p.replaceM g t =
      (do let pieces ← (p.segments t).mapM (rewriteM g); return pieces.flatten) := rfl
  rw [hmap, hpieces]
  show Except.ok ((p.segments t).map Segment.text).flatten = _
  rw [← List.flatMap_def, flatten_segments hp]

end Failing

end Pattern

/-- A text and what the rules of a table make of it are related if each rule keeps the relation. -/
theorem RuleTable.apply_related {R : Text → Text → Prop} (hrefl : ∀ t, R t t)
    (htrans : ∀ a b c, R a b → R b c → R a c) {table : RuleTable}
    (h : ∀ r ∈ table, ∀ t t', r.apply t = .ok t' → R t t') {t t' : Text}
    (hok : table.apply t = .ok t') : R t t' := by
  induction table generalizing t with
  | nil =>
    cases hok
    exact hrefl _
  | cons r table ih =>
    rw [List.forall_mem_cons] at h
    rw [apply, List.foldlM_cons] at hok
    obtain ⟨t₁, hfirst, hrest⟩ := ok_of_bind hok
    exact htrans t t₁ t' (h.1 t t₁ hfirst) (ih h.2 hrest)

end CodeTidy
