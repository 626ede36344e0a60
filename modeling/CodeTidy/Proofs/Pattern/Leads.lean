import CodeTidy.Proofs.Pattern.Places

/-!
# `CodeTidy.Proofs.Pattern.Leads`: what a pattern does first

`Pattern.Takes` leaves open which of several ways a pattern takes. `Pattern.Leads`
says that it is a given one: whenever the text behind it goes on as asked, that is
the answer. A run of characters that is as long as it can be is taken first, and an
alternative if none of those in front of it is possible. The theorems:

* `leads_empty`, `leads_one`, `leads_text`, `leads_run`, `Leads.group`, `Leads.both`,
  `leads_place`, `leads_notAhead`: the patterns one by one.
* `Leads.oneOf`: the first possible alternative.
* `Leads.matchAt?`: the match that is found.
* `find?_eq_some_of_first`, `exists_first`: the match that a search finds, as there is none before
  it.
* `not_mem_replaceFirst`: what is not put in where the first match is replaced.
-/

set_option autoImplicit false

namespace CodeTidy.Pattern

variable {p q : Pattern} {c c₁ c' : Cursor} {caps caps₁ caps' : Captures}

/-- The pattern leads from one cursor to another before it tries any other way: an answer there is
the answer. -/
def Leads (p : Pattern) (c : Cursor) (caps : Captures) (c' : Cursor) (caps' : Captures) : Prop :=
  ∀ (α : Type) (k : Cursor → Captures → Option α) (a : α),
    k c' caps' = some a → run? p c caps k = some a

/-- Where the pattern leads first is the match. -/
theorem Leads.matchAt? (h : Leads p c [] c' caps') : p.matchAt? c = some ⟨c, c', caps'⟩ :=
  h Match _ _ rfl

/-- Nothing leads nowhere. -/
theorem leads_empty : Leads .empty c caps c caps := fun _ _ _ hk => hk

/-- A set of characters leads over the next one. -/
theorem leads_one {set : CharSet} {b : Char} (hb : set b = true) (h : c.Reads [b] c') :
    Leads (.one set) c caps c' caps := by
  intro α k a hk
  rw [run?, Cursor.next?_eq_some_iff.mpr h]
  show (if set b then k c' caps else none) = some a
  rw [if_pos hb, hk]

/-- A text leads over itself. -/
theorem leads_text {t : Text} (h : c.Reads t c') : Leads (text t) c caps c' caps := by
  intro α k a hk
  induction t generalizing c with
  | nil =>
    obtain rfl := h.unique (.refl c)
    exact hk
  | cons b t ih =>
    obtain ⟨c₁, hread, hrest⟩ := Cursor.Reads.split (u := [b]) h
    have hnext := Cursor.next?_eq_some_iff.mpr hread
    show run? (.both (.one (· == b)) (text t)) c caps k = some a
    simp only [run?, hnext, beq_self_eq_true, if_true]
    exact ih hrest

/-- A run of characters goes as far as it can first. -/
theorem leads_run {set : CharSet} {least : Nat} {u : Text} (hu : u.all set = true)
    (hleast : least ≤ u.length) (hreads : c.Reads u c') (hend : c'.after.head?.any set = false) :
    Leads (.run .most least set) c caps c' caps := by
  intro α k a hk
  obtain ⟨before, after, pos⟩ := c
  obtain ⟨v, r, rfl, hv, hr, hfar⟩ := runEnd_spec set before pos 0 after
  have hend' : c'.after.head?.all (fun b => !set b) = true := by
    cases hhead : c'.after.head? with
    | none => rfl
    | some b => simpa [hhead] using hend
  -- The stretch is all of the run, as another character comes next.
  obtain ⟨rfl, -⟩ := Text.append_inj_of_all hv hu hr hend' hreads.after_eq
  have hwhole : Cursor.Reads ⟨before, v ++ r, pos⟩ v ⟨v.reverse ++ before, r, pos + v.length⟩ :=
    ⟨rfl, rfl, rfl⟩
  obtain rfl := hreads.unique hwhole
  show runMost set least _ (fun c' => k c' caps) = some a
  simp only [runMost, hfar, Nat.zero_add]
  rw [if_neg (by omega)]
  cases v.length - least with
  | zero => exact hk
  | succ n => rw [backOff, hk]

/-- A group leads where its body does, and remembers the way. -/
theorem Leads.group {n : Nat} (h : Leads p c caps c' caps') :
    Leads (.group n p) c caps c' ((n, ⟨c, c'⟩) :: caps') :=
  fun α k a hk => h α (fun d caps => k d ((n, ⟨c, d⟩) :: caps)) a hk

/-- Two patterns in a row lead where the second one leads from the end of the first one. -/
theorem Leads.both (h : Leads p c caps c₁ caps₁) (h' : Leads q c₁ caps₁ c' caps') :
    Leads (.both p q) c caps c' caps' :=
  fun α k a hk => h α (fun d caps => run? q d caps k) a (h' α k a hk)

/-- A condition that holds leads nowhere. -/
theorem leads_place {condition : Cursor → Bool} (h : condition c = true) :
    Leads (.place condition) c caps c caps := by
  intro α k a hk
  rw [run?, if_pos h, hk]

/-- What must not come next does not, so this leads nowhere. -/
theorem leads_notAhead (h : ∀ c' caps', ¬Takes p c caps c' caps') :
    Leads (.notAhead p) c caps c caps := by
  intro α k a hk
  rw [run?, run?_first_eq_none_iff.mpr h]
  exact hk

/-- An alternative leads where its first side does. -/
theorem Leads.left (h : Leads p c caps c' caps') : Leads (.either p q) c caps c' caps' := by
  intro α k a hk
  rw [run?, h α k a hk]

/-- An alternative leads where its second side does, if the first one has no way. -/
theorem Leads.right (h : Leads q c caps c' caps') (hp : ∀ d caps', ¬Takes p c caps d caps') :
    Leads (.either p q) c caps c' caps' := by
  intro α k a hk
  have hnone : run? p c caps k = none := by
    cases hrun : run? p c caps k with
    | none => rfl
    | some b =>
      obtain ⟨d, caps', htakes, -⟩ := exists_takes_of_run? hrun
      exact absurd htakes (hp d caps')
  rw [run?, hnone]
  exact h α k a hk

/-- The first alternative that is possible is taken. -/
theorem Leads.oneOf {qs : List Pattern} (h : Leads p c caps c' caps') (ps : List Pattern)
    (hps : ∀ p' ∈ ps, ∀ d caps', ¬Takes p' c caps d caps') :
    Leads (oneOf (ps ++ p :: qs)) c caps c' caps' := by
  induction ps with
  | nil =>
    cases qs with
    | nil => exact h
    | cons q qs => exact h.left
  | cons p' ps ih =>
    rw [List.forall_mem_cons] at hps
    have hcons : Pattern.oneOf (p' :: ps ++ p :: qs) =
        .either p' (Pattern.oneOf (ps ++ p :: qs)) := by
      cases ps <;> rfl
    rw [hcons]
    exact (ih hps.2).right hps.1

/-- The first place at which the pattern matches is found. -/
theorem findFrom?_eq_some_of_first {v : Text} {m : Match} (hv : c.Reads v c')
    (hm : p.matchAt? c' = some m)
    (hfirst : ∀ w d, c.Reads w d → w.length < v.length → p.matchAt? d = none) :
    p.findFrom? c.before c.pos c.after = some m := by
  obtain ⟨before, after, pos⟩ := c
  induction v generalizing before after pos with
  | nil =>
    obtain rfl := hv.unique (.refl _)
    cases after with
    | nil => exact hm
    | cons a r => rw [findFrom?, hm]
  | cons a v ih =>
    obtain ⟨c₁, hread, hrest⟩ := Cursor.Reads.split (u := [a]) hv
    obtain ⟨r, rfl⟩ : ∃ r, after = a :: r := ⟨c₁.after, hread.after_eq⟩
    obtain rfl : c₁ = _ := hread.unique (.one before a r pos)
    have hnone := hfirst [] _ (.refl _) (Nat.succ_pos _)
    rw [findFrom?, hnone]
    refine ih (a :: before) r (pos + 1) hrest fun w d hw hlt => ?_
    exact hfirst (a :: w) d (hread.cons hw) (Nat.succ_lt_succ hlt)

/-- A search finds the match at a place if the pattern matches at no place before it. -/
theorem find?_eq_some_of_first {t v : Text} {m : Match} (hm : MatchesBehind p t v m)
    (hfirst : ∀ w m', MatchesBehind p t w m' → v.length ≤ w.length) : p.find? t = some m := by
  refine findFrom?_eq_some_of_first hm.1 hm.2 fun w d hw hlt => ?_
  cases hmatch : p.matchAt? d with
  | none => rfl
  | some m' =>
    obtain ⟨rfl, -⟩ := takes_of_matchAt? hmatch
    exact absurd (hfirst w m' ⟨hw, hmatch⟩) (Nat.not_le.mpr hlt)

/-- A search finds a match, if there is one, and no later than that one. -/
theorem exists_first {p : Pattern} {t v : Text} {m : Match} (h : MatchesBehind p t v m) :
    ∃ w m', MatchesBehind p t w m' ∧ w.length ≤ v.length ∧ p.find? t = some m' := by
  induction hn : v.length using Nat.strongRecOn generalizing v m with
  | ind n ih =>
    subst hn
    by_cases hfirst : ∀ w m', MatchesBehind p t w m' → v.length ≤ w.length
    · exact ⟨v, m, h, Nat.le_refl _, find?_eq_some_of_first h hfirst⟩
    · simp only [not_forall, Nat.not_le] at hfirst
      obtain ⟨w, m', hm', hlt⟩ := hfirst
      obtain ⟨w', m'', hm'', hle, hfind⟩ := ih w.length hlt hm' rfl
      exact ⟨w', m'', hm'', Nat.le_trans hle (Nat.le_of_lt hlt), hfind⟩

/-- What is found is a match behind some stretch. -/
theorem exists_of_findFrom? {before after : Text} {pos : Nat} {m : Match}
    (h : p.findFrom? before pos after = some m) :
    ∃ v d, (⟨before, after, pos⟩ : Cursor).Reads v d ∧ p.matchAt? d = some m := by
  induction after generalizing before pos with
  | nil => exact ⟨[], _, .refl _, h⟩
  | cons a r ih =>
    rw [findFrom?] at h
    split at h
    · next m' hm =>
      cases h
      exact ⟨[], _, .refl _, hm⟩
    · obtain ⟨v, d, hv, hm⟩ := ih h
      exact ⟨a :: v, d, (Cursor.Reads.one before a r pos).cons hv, hm⟩

/-- Replacing the first match puts no character in that neither the text nor the replacement
holds. -/
theorem not_mem_replaceFirst {f : Match → Text} {t : Text} {a : Char} (ht : a ∉ t)
    (hf : ∀ v m, MatchesBehind p t v m → a ∉ f m) : a ∉ p.replaceFirst f t := by
  rw [replaceFirst]
  split
  · exact ht
  · next m hm =>
    obtain ⟨v, d, hv, hmatch⟩ := exists_of_findFrom? hm
    obtain ⟨rfl, htakes⟩ := takes_of_matchAt? hmatch
    obtain ⟨u, hu⟩ := htakes.reads
    have hsplit : t = (v ++ u) ++ m.stop.after := (hv.trans hu).after_eq
    have hafter : a ∉ m.stop.after := fun hmem => ht (hsplit ▸ List.mem_append_right _ hmem)
    have hbefore : a ∉ t.take m.start.pos := fun hmem => ht (List.mem_of_mem_take hmem)
    simp [hbefore, hf v m ⟨hv, hmatch⟩, hafter]

end CodeTidy.Pattern
