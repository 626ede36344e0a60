import CodeTidy.Proofs.Text.Pieces

/-!
# `CodeTidy.Proofs.Rule.Nesting`: cutting a list of parameters, and putting it together

A text that is not cut, and behind which all brackets and quotes are closed, is a piece of its
own in front of a comma. The theorems:

* `Nesting.joinWith_cutFrom`, `Nesting.cutFrom_cases`: the pieces make up the text, and the
  first one ends where everything is closed.
* `Nesting.uncut_append_iff`, `Nesting.cutFrom_append_comma`: the pieces of a text that is put
  together.
* `Nesting.run_shift`, `Nesting.Admits.run_neutral`: brackets around a text, and texts that close
  what they open.
* `splitParams_of_lists`: the parameters of a list, with white space around each of them.
* `areParams_splitParams`: only the last of the parameters leaves something open.
* `splitParams_joinWith`: the parameters of a list that has been put together from texts.
-/

set_option autoImplicit false

namespace CodeTidy

open Text

namespace Nesting

variable {n : Nesting} {s : State} {u r : Text}

/-! ### Pieces -/

/-- There always is a piece. -/
theorem cutFrom_ne_nil (n : Nesting) (s : State) (t : Text) : n.cutFrom s t ≠ [] := by
  cases t with
  | nil => exact List.cons_ne_nil _ _
  | cons c t =>
    rw [cutFrom]
    split
    · exact List.cons_ne_nil _ _
    · split
      · exact List.cons_ne_nil _ _
      · exact List.cons_ne_nil _ _

/-- A text is cut at the commas outside all brackets and quotes. -/
theorem cutsAt_iff {c : Char} : cutsAt s c = true ↔ s = .start ∧ c = ',' := by
  obtain ⟨depth, quote⟩ := s
  simp [cutsAt, State.start, and_assoc, and_left_comm]

/-- The pieces with commas between them are the text that was cut. -/
theorem joinWith_cutFrom (n : Nesting) (s : State) (t : Text) :
    joinWith [','] (n.cutFrom s t) = t := by
  induction t generalizing s with
  | nil => rfl
  | cons c t ih =>
    rw [cutFrom]
    split
    · rename_i hcut
      have hrest := ih s
      cases h : n.cutFrom s t with
      | nil => exact absurd h (cutFrom_ne_nil n s t)
      | cons piece rest =>
        rw [h] at hrest
        rw [joinWith_cons_cons, hrest, (cutsAt_iff.mp hcut).2]
        rfl
    · have hrest := ih (n.step s c)
      cases h : n.cutFrom (n.step s c) t with
      | nil => exact absurd h (cutFrom_ne_nil n _ t)
      | cons piece rest =>
        rw [h] at hrest
        rw [← hrest]
        -- The character goes to the first piece, and others stay behind their commas.
        cases rest with
        | nil => rw [joinWith_singleton, joinWith_singleton]
        | cons next rest => rw [joinWith_cons_cons, joinWith_cons_cons, List.cons_append]

/-- The state behind a text. -/
def run (n : Nesting) (s : State) (t : Text) : State := t.foldl n.step s

/-- A text is scanned one part after the other. -/
theorem run_append (s : State) (u r : Text) : n.run s (u ++ r) = n.run (n.run s u) r :=
  List.foldl_append

/-- The text is one piece, and behind it all brackets and quotes are closed. -/
structure IsWhole (n : Nesting) (t : Text) : Prop where
  uncut : n.cut t = [t]
  closed : n.run .start t = .start

/-- A text is one piece exactly if it is not cut at its first character, and the rest is one. -/
theorem uncut_cons_iff {c : Char} :
    n.cutFrom s (c :: r) = [c :: r] ↔ cutsAt s c = false ∧ n.cutFrom (n.step s c) r = [r] := by
  obtain ⟨piece, rest, hpieces⟩ := List.exists_cons_of_ne_nil (n.cutFrom_ne_nil (n.step s c) r)
  rw [cutFrom, hpieces]
  cases cutsAt s c <;> simp

/-- A text is one piece exactly if each of its parts is, from the state on that it begins in. -/
theorem uncut_append_iff : n.cutFrom s (u ++ r) = [u ++ r] ↔
    n.cutFrom s u = [u] ∧ n.cutFrom (n.run s u) r = [r] := by
  induction u generalizing s with
  | nil => exact (and_iff_right rfl).symm
  | cons c u ih =>
    rw [List.cons_append, uncut_cons_iff, ih, uncut_cons_iff, and_assoc]
    rfl

/-- A text that is not cut is a part of the first piece. -/
theorem cutFrom_append {piece : Text} {rest : List Text} (hu : n.cutFrom s u = [u])
    (hr : n.cutFrom (n.run s u) r = piece :: rest) :
    n.cutFrom s (u ++ r) = (u ++ piece) :: rest := by
  induction u generalizing s with
  | nil => exact hr
  | cons c u ih =>
    obtain ⟨hcut, hrest⟩ := uncut_cons_iff.mp hu
    rw [List.cons_append, cutFrom, hcut, if_neg Bool.false_ne_true, ih hrest hr]
    rfl

/-- A text is one piece, or it has a first one that ends where everything is closed. -/
theorem cutFrom_cases (n : Nesting) (s : State) (t : Text) : n.cutFrom s t = [t] ∨
    ∃ w r, t = w ++ ',' :: r ∧ n.cutFrom s w = [w] ∧ n.run s w = .start ∧
      n.cutFrom s t = w :: n.cut r := by
  induction t generalizing s with
  | nil => exact .inl rfl
  | cons c t ih =>
    cases hcut : cutsAt s c with
    | true =>
      obtain ⟨rfl, rfl⟩ := cutsAt_iff.mp hcut
      exact .inr ⟨[], t, rfl, rfl, rfl, rfl⟩
    | false =>
      rcases ih (n.step s c) with huncut | ⟨w, r, rfl, huncut, hrun, hpieces⟩
      · exact .inl (uncut_cons_iff.mpr ⟨hcut, huncut⟩)
      · refine .inr ⟨c :: w, r, rfl, uncut_cons_iff.mpr ⟨hcut, huncut⟩, hrun, ?_⟩
        rw [cutFrom, hcut, if_neg Bool.false_ne_true, hpieces]

/-- A text without commas is one piece. -/
theorem uncut_of_not_mem (h : ',' ∉ u) (s : State) : n.cutFrom s u = [u] := by
  rcases n.cutFrom_cases s u with huncut | ⟨w, r, rfl, -⟩
  · exact huncut
  · simp at h

/-- A comma cuts where everything is closed. -/
theorem cutFrom_append_comma (hcomma : n.step .start ',' = .start) (h : n.run s u = .start)
    (r : Text) : n.cutFrom s (u ++ ',' :: r) = n.cutFrom s u ++ n.cut r := by
  induction u generalizing s with
  | nil =>
    obtain rfl : s = .start := h
    rfl
  | cons c u ih =>
    rw [List.cons_append, cutFrom, cutFrom]
    cases hcut : cutsAt s c with
    | true =>
      obtain ⟨rfl, rfl⟩ := cutsAt_iff.mp hcut
      have hrun : n.run .start u = .start := by
        rwa [run, List.foldl_cons, hcomma] at h
      rw [if_pos rfl, if_pos rfl, ih hrun, List.cons_append]
    | false =>
      obtain ⟨piece, rest, hpieces⟩ :=
        List.exists_cons_of_ne_nil (n.cutFrom_ne_nil (n.step s c) u)
      rw [if_neg Bool.false_ne_true, if_neg Bool.false_ne_true, ih h, hpieces]
      rfl

/-- What is put together from whole texts without a comma between them is whole. -/
theorem IsWhole.append (hu : n.IsWhole u) (hr : n.IsWhole r) : n.IsWhole (u ++ r) where
  uncut := uncut_append_iff.mpr ⟨hu.uncut, by rw [hu.closed]; exact hr.uncut⟩
  closed := by rw [run_append, hu.closed, hr.closed]

/-! ### Characters and brackets that change nothing -/

/-- The character neither quotes nor nests nor separates. -/
def isPlain (n : Nesting) (c : Char) : Bool :=
  decide (c ∉ ',' :: (n.quotes ++ n.openers ++ n.closers))

/-- A plain character is no place to cut, and leaves the state as it is. -/
theorem step_of_isPlain {c : Char} (hc : n.isPlain c = true) (d : Int) :
    cutsAt ⟨d, none⟩ c = false ∧ n.step ⟨d, none⟩ c = ⟨d, none⟩ := by
  simp only [isPlain, decide_eq_true_eq, List.mem_cons, List.mem_append, not_or] at hc
  obtain ⟨hcomma, ⟨hquote, hopener⟩, hcloser⟩ := hc
  simp [cutsAt, step, hcomma, hquote, hopener, hcloser]

/-- Plain characters leave the state as it is. -/
theorem uncut_of_isPlain (hu : u.all n.isPlain = true) (d : Int) :
    n.cutFrom ⟨d, none⟩ u = [u] ∧ n.run ⟨d, none⟩ u = ⟨d, none⟩ := by
  induction u with
  | nil => exact ⟨rfl, rfl⟩
  | cons c u ih =>
    rw [List.all_cons, Bool.and_eq_true] at hu
    obtain ⟨hcut, hstep⟩ := step_of_isPlain hu.1 d
    obtain ⟨hpieces, hrun⟩ := ih hu.2
    rw [uncut_cons_iff, run, List.foldl_cons, hstep]
    exact ⟨⟨hcut, hpieces⟩, hrun⟩

/-- A text of plain characters is whole. -/
theorem isWhole_of_isPlain (hu : u.all n.isPlain = true) : n.IsWhole u :=
  ⟨(uncut_of_isPlain hu 0).1, (uncut_of_isPlain hu 0).2⟩

/-- A text is whole if its characters are of a kind that has no syntax. -/
theorem isWhole_of_all {kind : Char → Bool}
    (hkind : ∀ d ∈ ',' :: (n.quotes ++ n.openers ++ n.closers), kind d = false)
    (hu : u.all kind = true) : n.IsWhole u := by
  refine isWhole_of_isPlain (List.all_eq_true.mpr fun c hc => ?_)
  rw [isPlain, decide_eq_true_eq]
  intro hmem
  have hc' := List.all_eq_true.mp hu c hc
  rw [hkind c hmem] at hc'
  cases hc'

/-- Brackets around a text do not change what it opens and closes. -/
theorem run_shift (n : Nesting) (s : State) (k : Int) (t : Text) :
    n.run ⟨s.depth + k, s.quote⟩ t = ⟨(n.run s t).depth + k, (n.run s t).quote⟩ := by
  induction t generalizing s with
  | nil => rfl
  | cons c t ih =>
    -- A step changes the depth by the same amount, whatever it is.
    have hstep : n.step ⟨s.depth + k, s.quote⟩ c =
        ⟨(n.step s c).depth + k, (n.step s c).quote⟩ := by
      obtain ⟨depth, quote⟩ := s
      cases quote with
      | some q => cases h : c == q <;> simp [step, h]
      | none =>
        simp only [step]
        split
        · rfl
        · split
          · rw [Int.add_right_comm]
          · split
            · rw [Int.sub_eq_add_neg, Int.sub_eq_add_neg, Int.add_right_comm]
            · rfl
    rw [run, List.foldl_cons, hstep]
    exact ih (n.step s c)

/-- A quoted stretch goes on as long as its quote does not come. -/
theorem run_of_quoted {q : Char} (hq : q ∉ u) (d : Int) : n.run ⟨d, some q⟩ u = ⟨d, some q⟩ := by
  induction u with
  | nil => rfl
  | cons c u ih =>
    rw [List.mem_cons, not_or] at hq
    have hstep : n.step ⟨d, some q⟩ c = ⟨d, some q⟩ := by
      simp [step, beq_false_of_ne (Ne.symm hq.1)]
    rw [run, List.foldl_cons, hstep]
    exact ih hq.2

/-- The quote that is open in a state is one of those that the nesting has. -/
def Admits (n : Nesting) (s : State) : Prop := ∀ q ∈ s.quote, q ∈ n.quotes

/-- No quote is open at the start. -/
theorem admits_start (n : Nesting) : n.Admits .start := by
  intro q hq
  cases hq

/-- A character opens quotes that the nesting has. -/
theorem Admits.step (h : n.Admits s) (c : Char) : n.Admits (n.step s c) := by
  intro q hq
  rw [Nesting.step] at hq
  split at hq
  · split at hq
    · cases hq
    · exact h q hq
  · split at hq
    · rename_i hc
      rw [← Option.some.inj hq]
      exact List.contains_iff_mem.mp hc
    · split at hq
      · exact h q hq
      · split at hq <;> exact h q hq

/-- So does a text. -/
theorem Admits.run (h : n.Admits s) (t : Text) : n.Admits (n.run s t) := by
  induction t generalizing s with
  | nil => exact h
  | cons c t ih => exact ih (h.step c)

/-- What closes all that it opens, and has no quotes, leaves every state as it is. -/
theorem Admits.run_neutral (h : n.Admits s) (hclosed : n.run .start u = .start)
    (hquotes : ∀ q ∈ n.quotes, q ∉ u) : n.run s u = s := by
  obtain ⟨depth, quote⟩ := s
  cases quote with
  | some q => exact run_of_quoted (hquotes q (h q rfl)) depth
  | none =>
    have hshift := run_shift n .start depth u
    rw [hclosed] at hshift
    simpa [State.start] using hshift

/-- Nor does white space change a state, if the nesting has none of it. -/
theorem Admits.run_blanks (h : n.Admits s)
    (hn : ∀ d ∈ n.quotes ++ n.openers ++ n.closers, isBlank d = false) {b : Text}
    (hb : b.all isBlank = true) : n.run s b = s := by
  induction b with
  | nil => rfl
  | cons c b ih =>
    rw [List.all_cons, Bool.and_eq_true] at hb
    -- No character of the nesting is white space.
    have hother {d : Char} (hd : d ∈ n.quotes ++ n.openers ++ n.closers) : c ≠ d := by
      rintro rfl
      rw [hn c hd] at hb
      cases hb.1
    have hstep : n.step s c = s := by
      obtain ⟨depth, quote⟩ := s
      cases quote with
      | some q =>
        have hq : q ∈ n.quotes ++ n.openers ++ n.closers :=
          List.mem_append_left _ (List.mem_append_left _ (h q rfl))
        simp [Nesting.step, hother hq]
      | none =>
        have hnone : c ∉ n.quotes ++ n.openers ++ n.closers := fun hmem => hother hmem rfl
        rw [List.mem_append, List.mem_append, not_or, not_or] at hnone
        simp [Nesting.step, hnone]
    rw [Nesting.run, List.foldl_cons, hstep]
    exact ih hb.2

end Nesting

/-! ### Parameters -/

/-- What can be a parameter of its own: it is not blank, nor is there white space around it. -/
structure IsParam (p : Text) : Prop where
  whole : Nesting.params.IsWhole p
  trimmed : trim p = p
  visible : p ≠ []

/-- What can be the parameters of a list. The last of them may leave brackets and quotes open. -/
structure AreParams (ps : List Text) : Prop where
  uncut : ∀ p ∈ ps, Nesting.params.cut p = [p]
  trimmed : ∀ p ∈ ps, trim p = p
  visible : ∀ p ∈ ps, p ≠ []
  closed : ∀ p ∈ ps.dropLast, Nesting.params.run .start p = .start

/-- The text lists the parameters: there are commas between them, perhaps one behind the last of
them, and white space around each of them. -/
inductive Lists : List Text → Text → Prop where
  | nil {s : Text} (hs : s.all isBlank = true) : Lists [] s
  | last {s p s' : Text} (hs : s.all isBlank = true) (hp : IsParam p)
      (hs' : s'.all isBlank = true) : Lists [p] (s ++ (p ++ s'))
  | cons {s p s' u : Text} {ps : List Text} (hs : s.all isBlank = true) (hp : IsParam p)
      (hs' : s'.all isBlank = true) (hrest : Lists ps u) :
      Lists (p :: ps) ((s ++ (p ++ s')) ++ ',' :: u)

/-- White space is whole. -/
theorem isWhole_of_blank {s : Text} (hs : s.all isBlank = true) : Nesting.params.IsWhole s :=
  Nesting.isWhole_of_all (by decide) hs

/-- A text that is one piece is one parameter, or none if it is blank. -/
theorem splitParams_of_uncut {u : Text} (h : Nesting.params.cut u = [u]) :
    splitParams u = [trim u].filter (fun p => !p.isEmpty) := by
  rw [splitParams, h, List.map_singleton]

/-- The parameters in front of a comma and those behind it. -/
theorem splitParams_append_comma {u : Text} (h : Nesting.params.run .start u = .start) (r : Text) :
    splitParams (u ++ ',' :: r) = splitParams u ++ splitParams r := by
  rw [splitParams, Nesting.cut, Nesting.cutFrom_append_comma rfl h, List.map_append,
    List.filter_append]
  rfl

/-- The parameters of a list are taken apart again. -/
theorem splitParams_of_lists {ps : List Text} {u : Text} (h : Lists ps u) : splitParams u = ps := by
  have hpiece {s p s' : Text} (hs : s.all isBlank = true) (hp : IsParam p)
      (hs' : s'.all isBlank = true) : Nesting.params.IsWhole (s ++ (p ++ s')) ∧
        splitParams (s ++ (p ++ s')) = [p] := by
    have hwhole := (isWhole_of_blank hs).append (hp.whole.append (isWhole_of_blank hs'))
    refine ⟨hwhole, ?_⟩
    rw [splitParams_of_uncut hwhole.uncut, trim_around hs hs', hp.trimmed]
    exact List.filter_cons_of_pos (by simpa using hp.visible)
  induction h with
  | @nil s hs =>
    have htrim := trim_blanks_append hs []
    rw [List.append_nil] at htrim
    rw [splitParams_of_uncut (isWhole_of_blank hs).uncut, htrim]
    rfl
  | last hs hp hs' => exact (hpiece hs hp hs').2
  | cons hs hp hs' _ ih =>
    obtain ⟨hwhole, hsplit⟩ := hpiece hs hp hs'
    rw [splitParams_append_comma hwhole.closed, hsplit, ih]
    rfl

section

variable {s : Nesting.State} {t : Text}

/-- White space around a text does not matter to what it opens and closes. -/
theorem run_trim (hs : Nesting.params.Admits s) (t : Text) :
    Nesting.params.run s (trim t) = Nesting.params.run s t := by
  obtain ⟨a, b, ht, ha, hb⟩ := exists_blanks_around t
  conv_rhs => rw [ht]
  rw [Nesting.run_append, Nesting.run_append, hs.run_blanks (by decide) ha,
    (hs.run _).run_blanks (by decide) hb]

/-- White space around a text does not make it one piece, or more. -/
theorem uncut_trim_iff (hs : Nesting.params.Admits s) (t : Text) :
    Nesting.params.cutFrom s (trim t) = [trim t] ↔ Nesting.params.cutFrom s t = [t] := by
  obtain ⟨a, b, ht, ha, hb⟩ := exists_blanks_around t
  have hcomma {b : Text} (hb : b.all isBlank = true) (s : Nesting.State) :
      Nesting.params.cutFrom s b = [b] := by
    refine Nesting.uncut_of_not_mem (fun hmem => ?_) s
    exact absurd (List.all_eq_true.mp hb ',' hmem) (by decide)
  conv_rhs => rw [ht]
  rw [Nesting.uncut_append_iff, Nesting.uncut_append_iff, hs.run_blanks (by decide) ha]
  exact ⟨fun h => ⟨hcomma ha s, h, hcomma hb _⟩, fun h => h.2.1⟩

/-- White space in front of parameters adds none. -/
theorem splitParams_blanks_append {b : Text} (hb : b.all isBlank = true) (t : Text) :
    splitParams (b ++ t) = splitParams t := by
  obtain ⟨piece, rest, hpieces⟩ :=
    List.exists_cons_of_ne_nil (Nesting.params.cutFrom_ne_nil .start t)
  have hcut : Nesting.params.cut (b ++ t) = (b ++ piece) :: rest := by
    refine Nesting.cutFrom_append (isWhole_of_blank hb).uncut ?_
    rw [(isWhole_of_blank hb).closed]
    exact hpieces
  rw [splitParams, splitParams, hcut, Nesting.cut, hpieces, List.map_cons, List.map_cons,
    trim_blanks_append hb]

end

/-! ### Lists that are cut, and put together again -/

/-- One more parameter in front of others. -/
theorem AreParams.cons {p : Text} {ps : List Text} (hp : IsParam p) (hps : AreParams ps) :
    AreParams (p :: ps) where
  uncut := List.forall_mem_cons.mpr ⟨hp.whole.uncut, hps.uncut⟩
  trimmed := List.forall_mem_cons.mpr ⟨hp.trimmed, hps.trimmed⟩
  visible := List.forall_mem_cons.mpr ⟨hp.visible, hps.visible⟩
  closed := by
    cases ps with
    | nil => exact List.forall_mem_nil _
    | cons p' ps => exact List.forall_mem_cons.mpr ⟨hp.whole.closed, hps.closed⟩

/-- Each parameter of a list is one on its own. -/
theorem splitParams_of_areParams {p : Text} {ps : List Text} (hps : AreParams ps) (hp : p ∈ ps) :
    splitParams p = [p] := by
  rw [splitParams_of_uncut (hps.uncut p hp), hps.trimmed p hp]
  exact List.filter_cons_of_pos (by simpa using hps.visible p hp)

/-- Only the last of the parameters leaves something open. -/
theorem areParams_splitParams (t : Text) : AreParams (splitParams t) := by
  have hstart := Nesting.admits_start Nesting.params
  induction hlength : t.length using Nat.strong_induction_on generalizing t with
  -- A parameter and its comma are taken off in one step, so the induction is on the length.
  | _ length ih =>
    rcases Nesting.params.cutFrom_cases .start t with huncut | ⟨w, r, rfl, huncut, hclosed, -⟩
    · rw [splitParams_of_uncut huncut]
      by_cases hblank : trim t = []
      · rw [hblank]
        exact ⟨nofun, nofun, nofun, nofun⟩
      · rw [List.filter_cons_of_pos (by simpa using hblank), List.filter_nil]
        refine ⟨?_, ?_, ?_, nofun⟩ <;> rw [List.forall_mem_singleton]
        · exact (uncut_trim_iff hstart t).mpr huncut
        · exact trim_trim t
        · exact hblank
    · have hrest : AreParams (splitParams r) := by
        refine ih r.length ?_ r rfl
        rw [← hlength, List.length_append, List.length_cons]
        omega
      rw [splitParams_append_comma hclosed, splitParams_of_uncut huncut]
      by_cases hblank : trim w = []
      · rw [hblank]
        exact hrest
      · rw [List.filter_cons_of_pos (by simpa using hblank), List.filter_nil]
        refine .cons ⟨⟨(uncut_trim_iff hstart w).mpr huncut, ?_⟩, ?_, hblank⟩ hrest
        · rw [run_trim hstart, hclosed]
        · exact trim_trim w

/-- Where only the last part leaves something open, each part is cut on its own. -/
theorem splitParams_joinWith {ps : List Text}
    (h : ∀ p ∈ ps.dropLast, Nesting.params.run .start p = .start) :
    splitParams (joinWith ", " ps) = ps.flatMap splitParams := by
  induction ps with
  | nil => rfl
  | cons p ps ih =>
    cases ps with
    | nil => rw [joinWith_singleton, List.flatMap_singleton]
    | cons p' ps =>
      obtain ⟨hclosed, hrest⟩ := List.forall_mem_cons.mp h
      have hsplit := splitParams_blanks_append (b := [' ']) rfl (joinWith ", " (p' :: ps))
      rw [joinWith_cons_cons, List.flatMap_cons, ← ih hrest, ← hsplit]
      exact splitParams_append_comma hclosed _

/-- Characters other than commas and white space are all in the parameters. -/
theorem filter_flatten_splitParams {keep : Char → Bool} (hcomma : keep ',' = false)
    (hblank : ∀ c, isBlank c = true → keep c = false) (t : Text) :
    (splitParams t).flatten.filter keep = t.filter keep := by
  have htrim (w : Text) : (trim w).filter keep = w.filter keep := by
    obtain ⟨a, b, hw, ha, hb⟩ := exists_blanks_around w
    have hnone {b : Text} (hb : b.all isBlank = true) : b.filter keep = [] := by
      rw [List.filter_eq_nil_iff]
      intro c hc
      rw [hblank c (List.all_eq_true.mp hb c hc)]
      exact Bool.false_ne_true
    conv_rhs => rw [hw]
    rw [List.filter_append, List.filter_append, hnone ha, hnone hb, List.nil_append,
      List.append_nil]
  have hsep : [','].filter keep = [] := List.filter_eq_nil_iff.mpr (by simp [hcomma])
  conv_rhs => rw [← Nesting.joinWith_cutFrom Nesting.params .start t, filter_joinWith hsep]
  rw [splitParams, List.flatten_filter_not_isEmpty, List.filter_flatten, List.filter_flatten,
    List.map_map]
  exact congrArg List.flatten (List.map_congr_left fun w _ => htrim w)

/-- A text with a visible character that is no comma has a parameter. -/
theorem splitParams_ne_nil {c : Char} {t : Text} (hmem : c ∈ t) (hvisible : isBlank c = false)
    (hcomma : c ≠ ',') : splitParams t ≠ [] := by
  have hblank : ∀ d, isBlank d = true → (d == c) = false := by
    intro d hd
    refine beq_false_of_ne ?_
    rintro rfl
    rw [hvisible] at hd
    cases hd
  have hseparator : (',' == c) = false := beq_false_of_ne hcomma.symm
  have hkept : (splitParams t).flatten.filter (· == c) = t.filter (· == c) :=
    filter_flatten_splitParams hseparator hblank t
  have hc : c ∈ t.filter (· == c) := List.mem_filter.mpr ⟨hmem, beq_self_eq_true c⟩
  intro hnil
  rw [← hkept, hnil] at hc
  cases hc

end CodeTidy
