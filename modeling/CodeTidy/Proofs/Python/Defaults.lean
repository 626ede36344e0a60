import CodeTidy.Proofs.Python.Parameters

/-!
# `CodeTidy.Proofs.Python.Defaults`: defaults that all calls would share

The rule looks at each parameter of a header by itself. Where it finds a shared default, it puts
the annotation between the brackets of `Optional[…]`, where a comma that was in no brackets before
may be one between parameters. The theorems:

* `withoutMutableDefault_eq_some_iff`: the rule finds a shared default exactly where the text
  declares one in the form that it looks for.
* `Shares.splitParams_withNone`, `Shares.one_lt_length`: the new parameter is one parameter exactly
  if its annotation is not cut.
* `rewritten_iff`: the parameters of a header are as they have to be, and have their guards, exactly
  if all of them are safe.
* `guarded_guardMutableDefaults`: between the headers all lines are kept, and guards are put in
  behind the docstrings of headers.
-/

set_option autoImplicit false

namespace CodeTidy.Python

open Pattern Text

/-! ### Shared defaults -/

deriving instance DecidableEq for Guard

/-- The values that all calls would share. -/
def sharedDefaults : List Text := ["[]", "\x7b\x7d", "list()", "dict()", "set()"]

namespace Param

/-- The guard that the parameter needs, if all calls would share its default. -/
def guard? (p : Param) : Option Guard :=
  match p.default? with
  | none => none
  | some d => if sharedDefaults.contains d then some ⟨p.name, d⟩ else none

/-- The name, and the default as it has to be: `None` if all calls would share it. -/
def guarded (p : Param) : Text × Option Text :=
  if p.guard?.isSome then (p.name, some "None") else p.pair

end Param

/-- The text declares a parameter with a shared default. The annotation `hint`, which is empty if
there is none, holds no equals sign. -/
structure Shares (name hint value p : Text) : Prop where
  visible : name ≠ []
  word : name.all isWord = true
  shared : value ∈ sharedDefaults
  eq : ∃ s gap s', p = name ++ (s ++ (gap ++ '=' :: (s' ++ value))) ∧ s.all isBlank = true ∧
    s'.all isBlank = true ∧ (gap = [] ∧ hint = [] ∨
      ∃ s₁ s₂, gap = ':' :: (s₁ ++ (hint ++ s₂)) ∧ s₁.all isBlank = true ∧
        s₂.all isBlank = true ∧ hint ≠ [] ∧ '=' ∉ hint)

/-- The parameter with `None` for its default. -/
def withNone (name annotation : Text) : Text :=
  if annotation.isEmpty then name ++ "=None" else name ++ ": Optional[" ++ annotation ++ "] = None"

/-- What the pattern takes for a shared default. -/
theorem withoutMutableDefault_cases {p : Text} (htrim : trim p = p) :
    withoutMutableDefault p = (p, none) ∨ ∃ n a v, Shares n a v p ∧
      withoutMutableDefault p = (withNone n a, some ⟨n, v⟩) := by
  cases hm : mutableParam.matchStart? p with
  | none =>
    rw [withoutMutableDefault, hm]
    exact .inl rfl
  | some m =>
    refine .inr ?_
    obtain ⟨-, htakes⟩ := takes_of_matchAt? hm
    obtain ⟨c, caps, hlast, rfl, -⟩ := takes_seq_last (List.cons_ne_nil _ _) htakes
    obtain ⟨u, hreads, hspells⟩ := htakes.spells
    have hp : p = u := by
      have hsplit : p = u ++ m.stop.after := hreads.after_eq
      cases hafter : m.stop.after with
      | nil => rwa [hafter, List.append_nil] at hsplit
      | cons b r =>
        -- A line feed at the end would have been trimmed away.
        obtain ⟨rfl, rfl⟩ : b = '\n' ∧ r = [] := by simpa [Cursor.atLastEnd, hafter] using hlast
        have hend := (ends_trim p).2
        rw [htrim, hsplit, hafter, List.getLast?_append] at hend
        cases hend
    subst hp
    have hgroup := group_eq m
    generalize textsOf m.groups = e at hspells hgroup
    obtain ⟨n, _, ⟨hword, hleast, rfl⟩, w, rfl, h₁⟩ := spells_group_then.mp hspells
    obtain ⟨s, hs, -, w, rfl, h₂⟩ := spells_run_then.mp h₁
    obtain ⟨gap, e₁, hgap, w, rfl, h₃⟩ := spells_seq.mp h₂
    obtain ⟨t, ht, -, w, rfl, h₄⟩ := spells_run_then.mp h₃
    obtain ⟨w, rfl, h₅⟩ := spells_text_then.mp h₄
    obtain ⟨s', hs', -, w, rfl, h₆⟩ := spells_run_then.mp h₅
    obtain ⟨v, e₂, hv, w, rfl, rfl, rfl⟩ := spells_group_then.mp h₆
    have hvalue : v ∈ sharedDefaults ∧ e₂ = e₁ := by
      simp only [oneOfWords, List.map_cons, List.map_nil, spells_oneOf, spells_oneOf_one,
        spells_text] at hv
      rcases hv with ⟨rfl, rfl⟩ | ⟨rfl, rfl⟩ | ⟨rfl, rfl⟩ | ⟨rfl, rfl⟩ | ⟨rfl, rfl⟩ <;>
        exact ⟨by decide, rfl⟩
    obtain ⟨hshared, rfl⟩ := hvalue
    have hthird : m.group 3 = v := by rw [hgroup]; rfl
    rw [List.append_nil] at hm ⊢
    rcases spells_opt.mp hgap with hann | ⟨rfl, rfl⟩
    · obtain ⟨w, rfl, h₇⟩ := spells_text_then.mp hann
      obtain ⟨s₁, hs₁, -, a, rfl, _, ⟨ha, hne, rfl⟩, rfl⟩ := spells_run_then.mp h₇
      have hne' : a ≠ [] := List.ne_nil_of_length_pos hne
      have hfirst : m.group 1 = n := by rw [hgroup]; rfl
      have hsecond : m.group 2 = a := by rw [hgroup]; rfl
      refine ⟨n, a, v, ⟨List.ne_nil_of_length_pos hleast, hword, hshared, s,
        ':' :: (s₁ ++ (a ++ t)), s', by simp, hs, hs', .inr ⟨s₁, t, rfl, hs₁, ht, hne', ?_⟩⟩, ?_⟩
      · exact not_mem_of_all ha rfl
      · rw [withoutMutableDefault, hm]
        simp only [hfirst, hsecond, hthird, withNone]
    · have hfirst : m.group 1 = n := by rw [hgroup]; rfl
      have hsecond : m.group 2 = [] := by rw [hgroup]; rfl
      refine ⟨n, [], v, ⟨List.ne_nil_of_length_pos hleast, hword, hshared, s ++ t, [], s',
        by simp, by rw [List.all_append, hs, ht]; rfl, hs', .inl ⟨rfl, rfl⟩⟩, ?_⟩
      rw [withoutMutableDefault, hm]
      simp only [hfirst, hsecond, hthird, withNone]

/-- The parts of `mutableParam` in front of the end of the text. -/
def sharedParts : List Pattern :=
  [.group 1 word, space, opt (seq [":", space, .group 2 (few1 (CharSet.except "="))]), space, "=",
    space, .group 3 (oneOfWords ["[]", "\x7b\x7d", "list()", "dict()", "set()"])]

/-- A parameter with a shared default is spelled by the parts of the pattern. -/
theorem Shares.exists_spells {n a v p : Text} (h : Shares n a v p) :
    ∃ e, Spells (seq sharedParts) [] p e := by
  obtain ⟨s, gap, s', rfl, hs, hs', hgap⟩ := h.eq
  -- Each of the shared defaults is one of the words.
  have hvalue (e : Groups) :
      Spells (oneOfWords ["[]", "\x7b\x7d", "list()", "dict()", "set()"]) e v e := by
    simp only [oneOfWords, List.map_cons, List.map_nil, spells_oneOf, spells_oneOf_one, spells_text]
    have hshared := h.shared
    simp only [sharedDefaults, List.mem_cons, List.not_mem_nil, or_false] at hshared
    rcases hshared with rfl | rfl | rfl | rfl | rfl <;> simp
  have hback (e : Groups) {s : Text} (hs : s.all isBlank = true) : Spells (seq [space, "=", space,
      .group 3 (oneOfWords ["[]", "\x7b\x7d", "list()", "dict()", "set()"])]) e
        (s ++ '=' :: (s' ++ v)) ((3, v) :: e) := by
    refine spells_run_then.mpr ⟨s, hs, Nat.zero_le _, _, rfl, spells_text_then.mpr ⟨_, rfl, ?_⟩⟩
    exact spells_run_then.mpr ⟨s', hs', Nat.zero_le _, v, rfl, ⟨e, hvalue e, rfl⟩⟩
  have hname : Spells (.group 1 Pattern.word) [] n [(1, n)] :=
    ⟨[], ⟨h.word, List.length_pos_of_ne_nil h.visible, rfl⟩, rfl⟩
  -- The parameter has no annotation, or one behind a colon.
  rcases hgap with ⟨rfl, rfl⟩ | ⟨s₁, s₂, rfl, hs₁, hs₂, hne, ha⟩
  · refine ⟨[(3, v), (1, n)], spells_seq.mpr ⟨n, _, hname, _, rfl, spells_run_then.mpr ?_⟩⟩
    refine ⟨s, hs, Nat.zero_le _, '=' :: (s' ++ v), rfl, spells_seq.mpr ?_⟩
    exact ⟨[], _, spells_opt.mpr (.inr ⟨rfl, rfl⟩), _, rfl, hback _ List.all_nil⟩
  · have hgap : Spells (seq [":", space, .group 2 (few1 (CharSet.except "="))]) [(1, n)]
        (':' :: (s₁ ++ a)) [(2, a), (1, n)] := by
      refine spells_text_then.mpr ⟨s₁ ++ a, rfl, spells_run_then.mpr ?_⟩
      refine ⟨s₁, hs₁, Nat.zero_le _, a, rfl, _, ⟨all_except_iff.mpr ?_, ?_, rfl⟩, rfl⟩
      · exact List.forall_mem_singleton.mpr ha
      · exact List.length_pos_of_ne_nil hne
    refine ⟨[(3, v), (2, a), (1, n)], spells_seq.mpr ⟨n, _, hname, _, rfl, spells_run_then.mpr ?_⟩⟩
    refine ⟨s, hs, Nat.zero_le _, _, rfl, spells_seq.mpr ?_⟩
    exact ⟨':' :: (s₁ ++ a), _, spells_opt.mpr (.inl hgap), s₂ ++ '=' :: (s' ++ v), by simp,
      hback _ hs₂⟩

/-- The pattern finds a parameter with a shared default. -/
theorem Shares.exists_match {n a v p : Text} (h : Shares n a v p) :
    ∃ m, mutableParam.matchStart? p = some m := by
  obtain ⟨e, hspells⟩ : ∃ e, Spells (seq sharedParts) (textsOf []) p e := h.exists_spells
  obtain ⟨c, hreads, hstop⟩ := Cursor.exists_reads (c := Cursor.start p) (u := p) (r := [])
    (by simp [Cursor.start])
  obtain ⟨caps, htakes, -⟩ := exists_takes_of_spells rfl hreads hspells
  have hplace : Takes (seq [.place Cursor.atLastEnd]) c caps c caps := by
    refine ⟨?_, rfl, rfl⟩
    rw [Cursor.atLastEnd, hstop]
    rfl
  have hwhole : Takes mutableParam (Cursor.start p) [] c caps :=
    takes_seq_append.mpr ⟨c, caps, htakes, hplace⟩
  exact Option.isSome_iff_exists.mp (isSome_run?_of_takes hwhole rfl)

/-- The facts about the shared values: they are trimmed, and close what they open. -/
theorem sharedDefaults_spec {v : Text} (hv : v ∈ sharedDefaults) :
    trim v = v ∧ '=' ∉ v ∧ '\n' ∉ v ∧ Nesting.params.run .start v = .start ∧
      (∀ q ∈ Nesting.params.quotes, q ∉ v) ∧
      ∀ inside inside', insideAfter? inside v = some inside' → inside' = inside := by
  revert v
  decide

/-- White space holds no equals sign. -/
theorem not_mem_of_isBlank {s : Text} (hs : s.all isBlank = true) : '=' ∉ s :=
  not_mem_of_all hs (by decide)

section

variable {n a v p : Text}

/-- The name is the first word of the text, and the value stands behind the first equals sign. -/
theorem Shares.exists_split (h : Shares n a v p) :
    (∃ r, p = n ++ r ∧ r.head?.all (fun c => !isWord c) = true) ∧
      ∃ u s', p = u ++ '=' :: (s' ++ v) ∧ u.all (· != '=') = true ∧ s'.all isBlank = true := by
  obtain ⟨s, gap, s', rfl, hs, hs', hgap⟩ := h.eq
  -- The annotation holds no equals sign, and its colon ends the name.
  have hgap' : '=' ∉ gap ∧ ∀ r, (gap ++ '=' :: r).head?.all (fun c => !isWord c) = true := by
    rcases hgap with ⟨rfl, -⟩ | ⟨s₁, s₂, rfl, hs₁, hs₂, -, ha⟩
    · exact ⟨List.not_mem_nil, fun _ => rfl⟩
    · exact ⟨by simp [not_mem_of_isBlank hs₁, not_mem_of_isBlank hs₂, ha], fun _ => rfl⟩
  constructor
  · refine ⟨_, rfl, ?_⟩
    cases s with
    | nil => exact hgap'.2 _
    | cons b s =>
      rw [List.all_cons, Bool.and_eq_true] at hs
      simp [isWord_of_isBlank hs.1]
  · refine ⟨n ++ (s ++ gap), s', by simp, ?_, hs'⟩
    have hn : '=' ∉ n := not_mem_of_all h.word (by decide)
    have hnone : '=' ∉ n ++ (s ++ gap) := by simp [hn, not_mem_of_isBlank hs, hgap'.1]
    rw [List.all_eq_true]
    rintro c hc
    rw [bne_iff_ne]
    rintro rfl
    exact hnone hc

/-- A text declares one shared default at most. -/
theorem Shares.unique {n' a' v' : Text} (h : Shares n a v p) (h' : Shares n' a' v' p) :
    n = n' ∧ v = v' := by
  obtain ⟨⟨r, hr, hhead⟩, u, s, hu, hequals, hs⟩ := h.exists_split
  obtain ⟨⟨r', hr', hhead'⟩, u', s', hu', hequals', hs'⟩ := h'.exists_split
  refine ⟨(append_inj_of_all h.word h'.word hhead hhead' (hr.symm.trans hr')).1, ?_⟩
  have hbehind := (append_inj_of_all hequals hequals' rfl rfl (hu.symm.trans hu')).2
  have htrim : trim (s ++ v) = trim (s' ++ v') := congrArg trim (List.cons.inj hbehind).2
  rwa [trim_blanks_append hs, trim_blanks_append hs', (sharedDefaults_spec h.shared).1,
    (sharedDefaults_spec h'.shared).1] at htrim

/-- The rule finds a shared default exactly where the text declares one. -/
theorem withoutMutableDefault_eq_some_iff (htrim : trim p = p) {g : Guard} :
    (withoutMutableDefault p).2 = some g ↔ ∃ a, Shares g.name a g.value p := by
  constructor
  · intro hsome
    rcases withoutMutableDefault_cases htrim with heq | ⟨n, a, v, hshares, heq⟩
    · rw [heq] at hsome
      cases hsome
    · rw [heq] at hsome
      cases hsome
      exact ⟨a, hshares⟩
  · rintro ⟨a, hshares⟩
    obtain ⟨m, hm⟩ := hshares.exists_match
    rcases withoutMutableDefault_cases htrim with heq | ⟨n', a', v', hshares', heq⟩
    · rw [withoutMutableDefault, hm] at heq
      cases heq
    · obtain ⟨hname, hvalue⟩ := hshares.unique hshares'
      rw [heq, ← hname, ← hvalue]

/-- The name with white space behind it. -/
theorem name_spec (hn : n.all isWord = true) {s : Text} (hs : s.all isBlank = true) :
    (n ++ s).all (CharSet.except ":=") = true ∧ trim (n ++ s) = n := by
  constructor
  · rw [List.all_append, all_except_of_all hn (by decide), all_except_of_all hs (by decide)]
    rfl
  · have haround := trim_around List.all_nil hs n
    rwa [List.nil_append, trim_of_all_isWord hn] at haround

/-- White space around an annotation opens and closes no bracket. -/
theorem run_brackets_around {s s' : Text} (hs : s.all isBlank = true) (hs' : s'.all isBlank = true)
    (a : Text) : brackets.run .start (s ++ (a ++ s')) = brackets.run .start a := by
  have hstart := Nesting.admits_start brackets
  rw [Nesting.run_append, Nesting.run_append, hstart.run_blanks (by decide) hs,
    (hstart.run a).run_blanks (by decide) hs']

/-- The default is read if the annotation closes its brackets and quotes. -/
theorem Shares.ofText_eq (h : Shares n a v p) (hclosed : brackets.run .start a = .start) :
    Param.ofText p = ⟨n, trim a, some v⟩ := by
  obtain ⟨s, gap, s', rfl, hs, hs', hgap⟩ := h.eq
  obtain ⟨hu, hname⟩ := name_spec h.word hs
  have hvalue : trim (s' ++ v) = v := by
    rw [trim_blanks_append hs', (sharedDefaults_spec h.shared).1]
  rw [← List.append_assoc]
  rcases hgap with ⟨rfl, rfl⟩ | ⟨s₁, s₂, rfl, hs₁, hs₂, -, ha⟩
  · rw [List.nil_append, ofText_equals hu, hname, hvalue]
    rfl
  · have ha' : '=' ∉ s₁ ++ (a ++ s₂) := by
      simp [ha, not_mem_of_isBlank hs₁, not_mem_of_isBlank hs₂]
    rw [List.cons_append, ofText_closed hu ha', hname, hvalue, trim_around hs₁ hs₂]
    rwa [run_brackets_around hs₁ hs₂]

/-- Otherwise there is none. -/
theorem Shares.pair_ofText (h : Shares n a v p) (hopen : brackets.run .start a ≠ .start) :
    (Param.ofText p).pair = (n, none) := by
  obtain ⟨s, gap, s', rfl, hs, hs', hgap⟩ := h.eq
  obtain ⟨hu, hname⟩ := name_spec h.word hs
  rcases hgap with ⟨rfl, rfl⟩ | ⟨s₁, s₂, rfl, hs₁, hs₂, -, ha⟩
  · exact absurd rfl hopen
  · have ha' : '=' ∉ s₁ ++ (a ++ s₂) := by
      simp [ha, not_mem_of_isBlank hs₁, not_mem_of_isBlank hs₂]
    have hv : '=' ∉ s' ++ v := by
      simp [not_mem_of_isBlank hs', (sharedDefaults_spec h.shared).2.1]
    rw [← List.append_assoc, List.cons_append, ofText_open hu ha' ?_ hv, hname]
    rwa [run_brackets_around hs₁ hs₂]

/-- A parameter with an annotation is written with an optional one. -/
theorem withNone_of_ne (hne : a ≠ []) :
    withNone n a = n ++ (": Optional[".toList ++ (a ++ "] = None".toList)) := by
  rw [withNone, if_neg (by simpa using hne)]
  simp

/-- The new parameter is read with the same name, and `None` for its default. -/
theorem Shares.ofText_withNone (h : Shares n a v p) (hclosed : brackets.run .start a = .start) :
    (Param.ofText (withNone n a)).pair = (n, some "None".toList) := by
  have hname : n.all (CharSet.except ":=") = true := all_except_of_all h.word (by decide)
  obtain ⟨s, gap, s', -, -, -, ⟨-, rfl⟩ | ⟨s₁, s₂, -, -, -, hne, ha⟩⟩ := h.eq
  · show (Param.ofText (n ++ '=' :: "None".toList)).pair = _
    rw [ofText_equals hname, trim_of_all_isWord h.word]
    rfl
  · have hsplit : withNone n a =
        n ++ ':' :: ((" Optional[".toList ++ (a ++ "] ".toList)) ++ '=' :: " None".toList) := by
      rw [withNone_of_ne hne]
      simp
    have hequals : '=' ∉ " Optional[".toList ++ (a ++ "] ".toList) := by simp [ha]
    have hshift := Nesting.run_shift brackets .start 1 a
    rw [hclosed] at hshift
    have hrun : brackets.run .start (" Optional[".toList ++ (a ++ "] ".toList)) = .start := by
      rw [Nesting.run_append, Nesting.run_append]
      exact congrArg (brackets.run · "] ".toList) hshift
    rw [hsplit, ofText_closed hname hequals hrun, trim_of_all_isWord h.word]
    rfl

/-- What comes in front of the annotation in the new parameter. -/
theorem front_withNone (hn : n.all isWord = true) :
    Nesting.params.cut (n ++ ": Optional[".toList) = [n ++ ": Optional[".toList] ∧
      Nesting.params.run .start (n ++ ": Optional[".toList) = ⟨1, none⟩ := by
  have hwhole := Nesting.isWhole_of_all (n := Nesting.params) (by decide) hn
  constructor
  · exact Nesting.uncut_append_iff.mpr ⟨hwhole.uncut, by rw [hwhole.closed]; decide⟩
  · rw [Nesting.run_append, hwhole.closed]
    decide

/-- The new parameter is one if its annotation is not cut inside the brackets. -/
theorem Shares.uncut_withNone_iff (h : Shares n a v p) :
    Nesting.params.cut (withNone n a) = [withNone n a] ↔
      Nesting.params.cutFrom ⟨1, none⟩ a = [a] := by
  have hwhole := Nesting.isWhole_of_all (n := Nesting.params) (by decide) h.word
  obtain ⟨s, gap, s', -, -, -, ⟨-, rfl⟩ | ⟨s₁, s₂, -, -, -, hne, ha⟩⟩ := h.eq
  · have hnone : Nesting.params.IsWhole "=None" := Nesting.isWhole_of_isPlain (by decide)
    exact iff_of_true (hwhole.append hnone).uncut rfl
  · obtain ⟨huncut, hrun⟩ := front_withNone h.word
    have hsplit : withNone n a = (n ++ ": Optional[".toList) ++ (a ++ "] = None".toList) := by
      rw [withNone_of_ne hne, List.append_assoc]
    have hback (s : Nesting.State) :
        Nesting.params.cutFrom s "] = None".toList = ["] = None".toList] :=
      Nesting.uncut_of_not_mem (by decide) s
    rw [hsplit, Nesting.cut, Nesting.uncut_append_iff (r := a ++ _), hrun,
      Nesting.uncut_append_iff (u := a)]
    exact ⟨fun h => h.2.1, fun h => ⟨huncut, h, hback _⟩⟩

/-- Where the old parameter closes everything, so does the new one. -/
theorem Shares.closed_withNone (h : Shares n a v p) (hp : Nesting.params.run .start p = .start) :
    Nesting.params.run .start (withNone n a) = .start := by
  have hstart := Nesting.admits_start Nesting.params
  have hwhole := Nesting.isWhole_of_all (n := Nesting.params) (by decide) h.word
  obtain ⟨s, gap, s', rfl, hs, hs', ⟨-, rfl⟩ | ⟨s₁, s₂, rfl, hs₁, hs₂, hne, ha⟩⟩ := h.eq
  · have hnone : Nesting.params.IsWhole "=None" := Nesting.isWhole_of_isPlain (by decide)
    exact (hwhole.append hnone).closed
  · obtain ⟨-, -, -, hclosed, hquotes, -⟩ := sharedDefaults_spec h.shared
    -- Neither what comes in front of the annotation nor what comes behind it changes the state.
    have hfront : Nesting.params.IsWhole (n ++ (s ++ (":".toList ++ s₁))) :=
      hwhole.append ((isWhole_of_blank hs).append
        ((Nesting.isWhole_of_isPlain (by decide)).append (isWhole_of_blank hs₁)))
    have hback {x : Nesting.State} (hx : Nesting.params.Admits x) :
        Nesting.params.run x (s₂ ++ ("=".toList ++ (s' ++ v))) = x := by
      rw [Nesting.run_append, hx.run_blanks (by decide) hs₂, Nesting.run_append,
        hx.run_neutral (u := "=".toList) (by decide) (by decide), Nesting.run_append,
        hx.run_blanks (by decide) hs', hx.run_neutral hclosed hquotes]
    have hsplit : n ++ (s ++ ((':' :: (s₁ ++ (a ++ s₂))) ++ '=' :: (s' ++ v))) =
        (n ++ (s ++ (":".toList ++ s₁))) ++ (a ++ (s₂ ++ ("=".toList ++ (s' ++ v)))) := by simp
    rw [hsplit, Nesting.run_append, hfront.closed, Nesting.run_append, hback (hstart.run a)] at hp
    have hshift := Nesting.run_shift Nesting.params .start 1 a
    rw [hp] at hshift
    rw [withNone_of_ne hne, ← List.append_assoc, Nesting.run_append, (front_withNone h.word).2,
      Nesting.run_append]
    exact congrArg (Nesting.params.run · "] = None".toList) hshift

/-- The parentheses of the new parameter nest as those of the old one. -/
theorem Shares.insideAfter?_withNone (h : Shares n a v p) {inside inside' : Bool}
    (hp : insideAfter? inside p = some inside') :
    insideAfter? inside (withNone n a) = some inside' := by
  have hn : n.all (CharSet.except "()") = true := all_except_of_all h.word (by decide)
  obtain ⟨-, -, -, -, -, hvalue⟩ := sharedDefaults_spec h.shared
  obtain ⟨s, gap, s', rfl, hs, hs', hgap⟩ := h.eq
  have hblank {s : Text} (hs : s.all isBlank = true) (inside : Bool) (r : Text) :
      insideAfter? inside (s ++ r) = insideAfter? inside r :=
    insideAfter?_append_left (all_except_of_all hs (by decide)) inside r
  -- A shared default leaves the parentheses as they are.
  have hback (inside : Bool) :
      insideAfter? inside ("=".toList ++ (s' ++ v)) = insideAfter? inside v := by
    rw [insideAfter?_append_left (by decide), hblank hs']
  rw [insideAfter?_append_left hn, hblank hs] at hp
  rcases hgap with ⟨rfl, rfl⟩ | ⟨s₁, s₂, rfl, hs₁, hs₂, hne, ha⟩
  · obtain rfl : inside' = inside := hvalue _ _ ((hback inside).symm.trans hp)
    exact (insideAfter?_append_left hn inside' _).trans (insideAfter?_eq_self (by decide) inside')
  · have hsplit : (':' :: (s₁ ++ (a ++ s₂))) ++ '=' :: (s' ++ v) =
        ":".toList ++ (s₁ ++ (a ++ (s₂ ++ ("=".toList ++ (s' ++ v))))) := by simp
    rw [hsplit, insideAfter?_append_left (by decide), hblank hs₁, insideAfter?_append] at hp
    obtain ⟨inside₁, hinside, hrest⟩ := Option.bind_eq_some_iff.mp hp
    rw [hblank hs₂, hback] at hrest
    obtain rfl := hvalue _ _ hrest
    rw [withNone_of_ne hne, insideAfter?_append_left hn, insideAfter?_append_left (by decide),
      insideAfter?_append, hinside]
    exact insideAfter?_eq_self (by decide) inside'

/-- The new parameter begins with a name and ends with `None`. -/
theorem exists_withNone (n a : Text) : ∃ r, withNone n a = n ++ (r ++ "None".toList) := by
  rw [withNone]
  split
  · exact ⟨"=".toList, by simp⟩
  · exact ⟨": Optional[".toList ++ a ++ "] = ".toList, by simp⟩

/-- The rewritten parameter begins and ends visibly, and not with a comma. -/
theorem Shares.ends_withNone (h : Shares n a v p) : ∃ c, (withNone n a).head? = some c ∧
    isBlank c = false ∧ c ≠ ',' ∧ (withNone n a).getLast? = some 'e' := by
  obtain ⟨r, hr⟩ := exists_withNone n a
  obtain ⟨c, n', rfl⟩ := List.exists_cons_of_ne_nil h.visible
  have hword := h.word
  rw [List.all_cons, Bool.and_eq_true] at hword
  refine ⟨c, by rw [hr]; rfl, ?_, ?_, ?_⟩
  · cases hblank : isBlank c with
    | false => rfl
    | true =>
      rw [isWord_of_isBlank hblank] at hword
      cases hword.1
  · rintro rfl
    exact absurd hword.1 (by decide)
  · rw [hr, ← List.append_assoc, List.getLast?_append]
    rfl

/-- The new parameter is one parameter. -/
theorem Shares.splitParams_withNone (h : Shares n a v p)
    (ha : Nesting.params.cutFrom ⟨1, none⟩ a = [a]) :
    splitParams (withNone n a) = [withNone n a] := by
  obtain ⟨c, hhead, hvisible, -, hlast⟩ := h.ends_withNone
  have htrim : trim (withNone n a) = withNone n a :=
    trim_eq_self (by rw [hhead, Option.all_some, hvisible]; rfl) (by rw [hlast]; decide)
  rw [splitParams_of_uncut (h.uncut_withNone_iff.mpr ha), htrim]
  refine List.filter_cons_of_pos ?_
  cases hnil : withNone n a with
  | nil =>
    rw [hnil] at hhead
    cases hhead
  | cons d r => rfl

/-- If its annotation is cut, there are several parameters in its place. -/
theorem Shares.one_lt_length (h : Shares n a v p)
    (ha : Nesting.params.cutFrom ⟨1, none⟩ a ≠ [a]) :
    1 < (splitParams (withNone n a)).length := by
  obtain ⟨c, hhead, hvisible, hcomma, hlast⟩ := h.ends_withNone
  rcases Nesting.params.cutFrom_cases .start (withNone n a) with huncut | ⟨w, r, hsplit, -, hrun, -⟩
  · exact absurd (h.uncut_withNone_iff.mp huncut) ha
  · -- Both parts hold something: the first one begins with the name, the other one ends in `None`.
    rw [hsplit] at hhead hlast
    have hfirst : splitParams w ≠ [] := by
      cases w with
      | nil => exact absurd (Option.some.inj hhead).symm hcomma
      | cons d w =>
        obtain rfl : d = c := Option.some.inj hhead
        exact splitParams_ne_nil List.mem_cons_self hvisible hcomma
    have hrest : splitParams r ≠ [] := by
      have hmem : 'e' ∈ r := by
        rw [List.getLast?_append, List.getLast?_cons, Option.some_or] at hlast
        have hlast := Option.some.inj hlast
        cases hr : r.getLast? with
        | none =>
          rw [hr] at hlast
          exact absurd hlast (by decide)
        | some d =>
          rw [hr] at hlast
          obtain rfl : d = 'e' := hlast
          exact List.mem_of_getLast? hr
      exact splitParams_ne_nil hmem (by decide) (by decide)
    have hpos := List.length_pos_of_ne_nil hfirst
    have hpos' := List.length_pos_of_ne_nil hrest
    rw [hsplit, splitParams_append_comma hrun, List.length_append]
    omega

end

/-! ### Parameters that are rewritten -/

/-- The rule treats the parameter as it should: a shared default is read where the text has the form
that the rule looks for, and the annotation is not cut inside of `Optional[…]`. -/
structure IsSafe (p : Text) : Prop where
  recognized (g : Guard) : (Param.ofText p).guard? = some g ↔ ∃ a, Shares g.name a g.value p
  uncut : (Param.ofText p).guard? ≠ none →
    Nesting.params.cutFrom ⟨1, none⟩ (Param.ofText p).hint = [(Param.ofText p).hint]

/-- The rule finds the shared default that is read, and none else. -/
theorem recognized_iff {p : Text} (htrim : trim p = p) :
    (withoutMutableDefault p).2 = (Param.ofText p).guard? ↔
      ∀ g, (Param.ofText p).guard? = some g ↔ ∃ a, Shares g.name a g.value p := by
  rw [Option.ext_iff]
  refine forall_congr' fun g => ?_
  rw [withoutMutableDefault_eq_some_iff htrim]
  exact Iff.comm

/-- What is found of a shared default is the one that is read, if the annotation is closed. -/
theorem Shares.guard?_eq {n a v p : Text} (h : Shares n a v p) :
    brackets.run .start a = .start ∧ Param.ofText p = ⟨n, trim a, some v⟩ ∧
        (Param.ofText p).guard? = some ⟨n, v⟩ ∨
      (Param.ofText p).guard? = none := by
  by_cases hclosed : brackets.run .start a = .start
  · have hread := h.ofText_eq hclosed
    refine .inl ⟨hclosed, hread, ?_⟩
    rw [hread, Param.guard?]
    exact if_pos (List.contains_iff_mem.mpr h.shared)
  · have hread : (Param.ofText p).default? = none := congrArg Prod.snd (h.pair_ofText hclosed)
    refine .inr ?_
    rw [Param.guard?, hread]

/-- A parameter that is not guarded keeps its default. -/
theorem Param.guarded_of_none {p : Param} (h : p.guard? = none) : p.guarded = p.pair := by
  rw [Param.guarded, h]
  rfl

/-- A default that stays as it is, is not shared. -/
theorem Param.guard?_of_pair {p : Param} (h : p.pair = p.guarded) : p.guard? = none := by
  cases hguard : p.guard? with
  | none => rfl
  | some g =>
    rw [Param.guarded, hguard, Option.isSome_some, if_pos rfl] at h
    have hdefault : p.default? = some "None".toList := congrArg Prod.snd h
    rw [Param.guard?, hdefault] at hguard
    exact absurd hguard (by simp [sharedDefaults])

/-! ### The parameters of a header -/

section

variable {p : Text} {ps : List Text}

/-- A rewritten parameter leaves no bracket open. -/
theorem closed_withoutMutableDefault (htrim : trim p = p)
    (hp : Nesting.params.run .start p = .start) :
    Nesting.params.run .start (withoutMutableDefault p).1 = .start := by
  rcases withoutMutableDefault_cases htrim with heq | ⟨n, a, v, hshares, heq⟩
  · rwa [heq]
  · rw [heq]
    exact hshares.closed_withNone hp

/-- A rewritten parameter has no parentheses within parentheses, as the pattern for headers asks. -/
theorem insideAfter?_withoutMutableDefault (htrim : trim p = p) {inside inside' : Bool}
    (hp : insideAfter? inside p = some inside') :
    insideAfter? inside (withoutMutableDefault p).1 = some inside' := by
  rcases withoutMutableDefault_cases htrim with heq | ⟨n, a, v, hshares, heq⟩
  · rwa [heq]
  · rw [heq]
    exact hshares.insideAfter?_withNone hp

/-- A safe parameter is rewritten to one that has the same name, and the default that it has to
have. -/
theorem IsSafe.kept (hps : AreParams ps) (hp : p ∈ ps) (h : IsSafe p) :
    splitParams (withoutMutableDefault p).1 = [(withoutMutableDefault p).1] ∧
      (Param.ofText (withoutMutableDefault p).1).pair = (Param.ofText p).guarded := by
  have hrecognized := (recognized_iff (hps.trimmed p hp)).mpr h.recognized
  have huncut := h.uncut
  rcases withoutMutableDefault_cases (hps.trimmed p hp) with heq | ⟨n, a, v, hshares, heq⟩
  · rw [heq] at hrecognized ⊢
    exact ⟨splitParams_of_areParams hps hp, (Param.guarded_of_none hrecognized.symm).symm⟩
  · rw [heq] at hrecognized ⊢
    rcases hshares.guard?_eq with ⟨hclosed, hread, hguard⟩ | hnone
    · have hann := huncut (by rw [hguard]; exact Option.some_ne_none _)
      rw [hread] at hann
      have hadmits : Nesting.params.Admits ⟨1, none⟩ := nofun
      have hann' := (uncut_trim_iff hadmits a).mp hann
      refine ⟨hshares.splitParams_withNone hann', ?_⟩
      rw [hshares.ofText_withNone hclosed, Param.guarded, hguard, hread]
      rfl
    · rw [hnone] at hrecognized
      cases hrecognized

/-- A rewritten parameter is not empty. -/
theorem splitParams_withoutMutableDefault_ne_nil (hps : AreParams ps) (hp : p ∈ ps) :
    splitParams (withoutMutableDefault p).1 ≠ [] := by
  rcases withoutMutableDefault_cases (hps.trimmed p hp) with heq | ⟨n, a, v, hshares, heq⟩
  · rw [heq, splitParams_of_areParams hps hp]
    exact List.cons_ne_nil _ _
  · rw [heq]
    by_cases ha : Nesting.params.cutFrom ⟨1, none⟩ a = [a]
    · rw [hshares.splitParams_withNone ha]
      exact List.cons_ne_nil _ _
    · exact List.ne_nil_of_length_pos (Nat.lt_trans Nat.zero_lt_one (hshares.one_lt_length ha))

/-- Where the pair is as it has to be, the guard that is read is the one that is put in. -/
theorem guard?_cases (hps : AreParams ps) (hp : p ∈ ps)
    (hpair : (Param.ofText (withoutMutableDefault p).1).pair = (Param.ofText p).guarded) :
    (Param.ofText p).guard? = none ∨ (Param.ofText p).guard? = (withoutMutableDefault p).2 := by
  rcases withoutMutableDefault_cases (hps.trimmed p hp) with heq | ⟨n, a, v, hshares, heq⟩
  · rw [heq] at hpair
    exact .inl (Param.guard?_of_pair hpair)
  · rw [heq]
    rcases hshares.guard?_eq with ⟨-, -, hguard⟩ | hnone
    · exact .inr hguard
    · exact .inl hnone

/-- The parameters as the rule writes them. -/
def rewritten (ps : List Text) : List Text := ps.map fun p => (withoutMutableDefault p).1

/-- What the rule writes is cut parameter by parameter. -/
theorem splitParams_rewritten (hps : AreParams ps) :
    splitParams (joinWith ", " (rewritten ps)) = (rewritten ps).flatMap splitParams := by
  refine splitParams_joinWith fun q hq => ?_
  rw [rewritten, ← List.map_dropLast] at hq
  obtain ⟨p, hp, rfl⟩ := List.mem_map.mp hq
  exact closed_withoutMutableDefault (hps.trimmed p (List.dropLast_subset ps hp)) (hps.closed p hp)

/-- A list of lists with as many elements as there are lists, of which none is empty. -/
theorem length_eq_one_of_flatMap {α β : Type} {f : α → List β} {l : List α}
    (hne : ∀ x ∈ l, f x ≠ []) (hlength : (l.flatMap f).length = l.length) :
    ∀ x ∈ l, (f x).length = 1 := by
  -- If one list were longer, all of them together would be too long.
  have hle (l : List α) (hne : ∀ x ∈ l, f x ≠ []) : l.length ≤ (l.flatMap f).length := by
    induction l with
    | nil => exact Nat.le_refl 0
    | cons x l ih =>
      rw [List.forall_mem_cons] at hne
      have hpos := List.length_pos_of_ne_nil hne.1
      have hrest := ih hne.2
      rw [List.flatMap_cons, List.length_append, List.length_cons]
      omega
  induction l with
  | nil => exact List.forall_mem_nil _
  | cons x l ih =>
    rw [List.forall_mem_cons] at hne ⊢
    have hpos := List.length_pos_of_ne_nil hne.1
    have hrest := hle l hne.2
    rw [List.flatMap_cons, List.length_append, List.length_cons] at hlength
    exact ⟨by omega, ih hne.2 (by omega)⟩

/-- Two choices, of which one chooses no more than the other, choose the same if they choose as
much. -/
theorem eq_of_filterMap_eq {α β : Type} {f g : α → Option β} {l : List α}
    (h : ∀ x ∈ l, g x = none ∨ g x = f x) (heq : l.filterMap f = l.filterMap g) :
    ∀ x ∈ l, f x = g x := by
  -- If the second choice left one out, it would choose less in all.
  have hle (l : List α) (h : ∀ x ∈ l, g x = none ∨ g x = f x) :
      (l.filterMap g).length ≤ (l.filterMap f).length := by
    rw [List.length_filterMap_eq_countP, List.length_filterMap_eq_countP]
    refine List.countP_mono_left fun x hx hsome => ?_
    rcases h x hx with hg | hg
    · rw [hg] at hsome
      cases hsome
    · rwa [← hg]
  induction l with
  | nil => exact List.forall_mem_nil _
  | cons x l ih =>
    rw [List.forall_mem_cons] at h ⊢
    have hrest := hle l h.2
    rcases h.1 with hg | hg
    · cases hf : f x with
      | none =>
        rw [List.filterMap_cons_none hf, List.filterMap_cons_none hg] at heq
        exact ⟨hg.symm, ih h.2 heq⟩
      | some b =>
        rw [List.filterMap_cons_some hf, List.filterMap_cons_none hg] at heq
        rw [← heq, List.length_cons] at hrest
        omega
    · cases hf : f x with
      | none =>
        rw [List.filterMap_cons_none hf, List.filterMap_cons_none (hg.trans hf)] at heq
        exact ⟨(hg.trans hf).symm, ih h.2 heq⟩
      | some b =>
        rw [List.filterMap_cons_some hf, List.filterMap_cons_some (hg.trans hf)] at heq
        exact ⟨(hg.trans hf).symm, ih h.2 (List.cons.inj heq).2⟩

/-- The names and defaults are as they have to be, and the guards are those of the shared defaults,
exactly if the parameters are safe. -/
theorem rewritten_iff (hps : AreParams ps) :
    (splitParams (joinWith ", " (rewritten ps))).map (fun q => (Param.ofText q).pair) =
          ps.map (fun p => (Param.ofText p).guarded) ∧
        ps.filterMap (fun p => (withoutMutableDefault p).2) =
          ps.filterMap (fun p => (Param.ofText p).guard?) ↔
      ∀ p ∈ ps, IsSafe p := by
  rw [splitParams_rewritten hps]
  -- If each parameter is one again, the list is read parameter by parameter.
  have hread (h : ∀ p ∈ ps, splitParams (withoutMutableDefault p).1 =
      [(withoutMutableDefault p).1]) :
      ((rewritten ps).flatMap splitParams).map (fun q => (Param.ofText q).pair) =
        ps.map fun p => (Param.ofText (withoutMutableDefault p).1).pair := by
    have hsplit : (rewritten ps).flatMap splitParams = rewritten ps :=
      calc (rewritten ps).flatMap splitParams
          = ps.flatMap fun p => splitParams (withoutMutableDefault p).1 := List.flatMap_map _ _ _
        _ = ps.flatMap fun p => [(withoutMutableDefault p).1] := List.flatMap_congr h
        _ = rewritten ps := List.map_eq_flatMap.symm
    rw [hsplit, rewritten, List.map_map]
    rfl
  constructor
  · rintro ⟨hpairs, hguards⟩
    -- There are as many parameters as before, so none has been cut.
    have hlength : ((rewritten ps).flatMap splitParams).length = (rewritten ps).length := by
      have hcount := congrArg List.length hpairs
      rw [List.length_map, List.length_map] at hcount
      rw [hcount, rewritten, List.length_map]
    have hne : ∀ q ∈ rewritten ps, splitParams q ≠ [] := by
      intro q hq
      obtain ⟨p, hp, rfl⟩ := List.mem_map.mp hq
      exact splitParams_withoutMutableDefault_ne_nil hps hp
    have hone := length_eq_one_of_flatMap hne hlength
    have huncut {p n a v : Text} (hp : p ∈ ps) (hshares : Shares n a v p)
        (heq : withoutMutableDefault p = (withNone n a, some ⟨n, v⟩)) :
        Nesting.params.cutFrom ⟨1, none⟩ a = [a] := by
      by_contra hcut
      have hq : withNone n a ∈ rewritten ps := List.mem_map.mpr ⟨p, hp, by rw [heq]⟩
      have hmore := hshares.one_lt_length hcut
      rw [hone _ hq] at hmore
      omega
    have hsplit : ∀ p ∈ ps, splitParams (withoutMutableDefault p).1 =
        [(withoutMutableDefault p).1] := by
      intro p hp
      rcases withoutMutableDefault_cases (hps.trimmed p hp) with heq | ⟨n, a, v, hshares, heq⟩
      · rw [heq]
        exact splitParams_of_areParams hps hp
      · rw [heq]
        exact hshares.splitParams_withNone (huncut hp hshares heq)
    rw [hread hsplit, List.map_inj_left] at hpairs
    -- A default that is read is found, so that there are no other guards either.
    have hrecognized := eq_of_filterMap_eq (fun p hp => guard?_cases hps hp (hpairs p hp)) hguards
    refine fun p hp => ⟨(recognized_iff (hps.trimmed p hp)).mp (hrecognized p hp), fun hsome => ?_⟩
    rcases withoutMutableDefault_cases (hps.trimmed p hp) with heq | ⟨n, a, v, hshares, heq⟩
    · rw [← hrecognized p hp, heq] at hsome
      exact absurd rfl hsome
    · rcases hshares.guard?_eq with ⟨-, hann, -⟩ | hnone
      · rw [hann]
        have hadmits : Nesting.params.Admits ⟨1, none⟩ := nofun
        exact (uncut_trim_iff hadmits a).mpr (huncut hp hshares heq)
      · exact absurd hnone hsome
  · intro hsafe
    refine ⟨?_, List.filterMap_congr fun p hp =>
      (recognized_iff (hps.trimmed p hp)).mpr (hsafe p hp).recognized⟩
    rw [hread fun p hp => ((hsafe p hp).kept hps hp).1]
    exact List.map_congr_left fun p hp => ((hsafe p hp).kept hps hp).2

end

/-! ### Headers, and what stands between them -/

/-- What the header `l` becomes, with the lines of the guards: the names and defaults are as they
have to be, and each shared default has its guard, exactly if all parameters are safe. -/
def GuardsHeader (l new : Text) (guards : List Text) : Prop :=
  ∃ ps margin gs, paramTexts? l = some ps ∧ margin.all isIndent = true ∧ gs ≠ [] ∧
    guards = gs.flatMap (Guard.lines margin) ∧
    (signature? new = some (ps.map fun p => (Param.ofText p).guarded) ∧
        gs = ps.filterMap (fun p => (Param.ofText p).guard?) ↔
      ∀ p ∈ ps, IsSafe p)

/-- The lines are kept, but for headers; guards are put in behind the docstrings of these. -/
inductive Guarded : List Text → List Text → Prop where
  | done : Guarded [] []
  | keep {l : Text} {ls ls' : List Text} (rest : Guarded ls ls') : Guarded (l :: ls) (l :: ls')
  | header {l new : Text} {doc guards ls ls' : List Text} (hheader : GuardsHeader l new guards)
      (hdoc : docstringLength (doc ++ ls) = doc.length) (rest : Guarded ls ls') :
      Guarded (l :: (doc ++ ls)) (new :: (doc ++ (guards ++ ls')))

section

variable {l new p : Text} {guards ls : List Text}

/-- A line that changes is a header. -/
theorem Guarded.guardsHeader {ls' : List Text} (h : Guarded (l :: ls) (new :: ls'))
    (hne : new ≠ l) : ∃ guards, GuardsHeader l new guards := by
  cases h with
  | keep => exact absurd rfl hne
  | header hheader => exact ⟨_, hheader⟩

/-- Neither a rewritten parameter nor its guard holds a line feed. -/
theorem not_mem_withoutMutableDefault (htrim : trim p = p) (hp : '\n' ∉ p) :
    '\n' ∉ (withoutMutableDefault p).1 ∧
      ∀ g ∈ (withoutMutableDefault p).2, '\n' ∉ g.name ∧ '\n' ∉ g.value := by
  rcases withoutMutableDefault_cases htrim with heq | ⟨n, a, v, hshares, heq⟩
  · rw [heq]
    exact ⟨hp, nofun⟩
  · have hn : '\n' ∉ n := not_mem_of_all hshares.word (by decide)
    obtain ⟨-, -, hv, -⟩ := sharedDefaults_spec hshares.shared
    -- The annotation is a part of the parameter.
    have ha : '\n' ∉ a := by
      obtain ⟨s, gap, s', rfl, -, -, ⟨-, rfl⟩ | ⟨s₁, s₂, rfl, -⟩⟩ := hshares.eq
      · exact List.not_mem_nil
      · intro hmem
        exact hp (by simp [hmem])
    rw [heq]
    constructor
    · rw [withNone]
      split <;> simp [hn, ha]
    · rintro g hg
      obtain rfl := Option.some.inj hg
      exact ⟨hn, hv⟩

/-- The body is indented with spaces and tabs. -/
theorem all_isIndent_bodyIndent (following : List Text) {headerIndent : Text}
    (h : headerIndent.all isIndent = true) :
    (bodyIndent following headerIndent).all isIndent = true := by
  have hmore : (headerIndent ++ "    ").all isIndent = true := by
    rw [List.all_append, h]
    rfl
  rw [bodyIndent]
  split
  · split
    · exact List.all_takeWhile
    · exact hmore
  · exact hmore

/-- A header that is rewritten keeps its parameters with their guarded defaults, and the guards are
lines. -/
theorem exists_of_guardedHeader? (hl : '\n' ∉ l) (h : guardedHeader? l ls = some (new, guards)) :
    GuardsHeader l new guards ∧ '\n' ∉ new ∧ ∀ g ∈ guards, '\n' ∉ g := by
  rw [guardedHeader?, Option.bind_eq_bind, Option.bind_eq_some_iff] at h
  obtain ⟨m, hm, h⟩ := h
  dsimp only at h
  split at h
  · cases h
  · next hguards =>
    obtain ⟨rfl, rfl⟩ := Prod.mk.inj (Option.some.inj h)
    obtain ⟨before, after, hheader, hstart, hstop, hmargin, -⟩ := exists_of_defLine hl hm
    have hps := areParams_splitParams (m.group 3)
    have htexts := hheader.paramTexts?_eq hl
    generalize hparams : splitParams (m.group 3) = ps at hps htexts hguards ⊢
    -- The new header has the rewritten parameters between the parentheses of the old one.
    have hnew : withParams l m ((ps.map withoutMutableDefault).map Prod.fst) =
        before ++ '(' :: (joinWith ", " (rewritten ps) ++ ')' :: after) := by
      rw [withParams, hstart, hstop, hheader.around.1, hheader.around.2, List.map_map]
      simp [rewritten, Function.comp_def]
    have hfeed : ∀ p ∈ ps, '\n' ∉ p := by
      intro p hp hmem
      exact (hheader.not_mem_withParams hl List.not_mem_nil).1
        (subset_of_mem_splitParams (hparams ▸ hp) hmem)
    have hjoin : '\n' ∉ joinWith ", " (rewritten ps) := by
      refine not_mem_joinWith (by decide) fun q hq => ?_
      obtain ⟨p, hp, rfl⟩ := List.mem_map.mp hq
      exact (not_mem_withoutMutableDefault (hps.trimmed p hp) (hfeed p hp)).1
    have hnewline := (hheader.not_mem_withParams hl hjoin).2
    -- They nest as the old ones, so they are read again.
    have hflat : IsFlat (joinWith ", " (rewritten ps)) := by
      rw [← hparams]
      refine hheader.flat.map_splitParams fun p hp _ _ => ?_
      exact insideAfter?_withoutMutableDefault (hps.trimmed p (hparams ▸ hp))
    have hsignature := (hheader.withParams hflat).paramTexts?_eq hnewline
    have hindent := all_isIndent_bodyIndent ls hmargin
    rw [hnew]
    refine ⟨⟨ps, bodyIndent ls (m.group 1), (ps.map withoutMutableDefault).filterMap Prod.snd,
      htexts, hindent, by simpa using hguards, rfl, ?_⟩, hnewline, ?_⟩
    · rw [signature?, hsignature, Option.map_some, Option.some.injEq, List.filterMap_map]
      exact rewritten_iff hps
    · intro line hmem
      obtain ⟨g, hg, hmem⟩ := List.mem_flatMap.mp hmem
      obtain ⟨p, hp, hsome⟩ := List.mem_filterMap.mp (List.filterMap_map ▸ hg)
      obtain ⟨hname, hvalue⟩ :=
        (not_mem_withoutMutableDefault (hps.trimmed p hp) (hfeed p hp)).2 g hsome
      have hblank : '\n' ∉ bodyIndent ls (m.group 1) := not_mem_of_all hindent (by decide)
      simp only [Guard.lines, List.mem_cons, List.not_mem_nil, or_false] at hmem
      rcases hmem with rfl | rfl <;> simp [hblank, hname, hvalue]

/-- Lines of a docstring come first, then the guards, and then the rest is looked at. -/
theorem guardLines_eq (skip : Nat) (pending ls : List Text) :
    guardLines skip pending ls = ls.take skip ++ (pending ++ guardLines 0 [] (ls.drop skip)) := by
  induction ls generalizing skip with
  | nil => cases skip <;> simp [guardLines]
  | cons l ls ih =>
    cases skip with
    | succ skip =>
      rw [guardLines, ih]
      rfl
    | zero =>
      rw [List.take_zero, List.nil_append, List.drop_zero, guardLines, guardLines]
      split <;> rfl

/-- The lines that come out are the old ones with headers rewritten and guards put in behind their
docstrings. -/
theorem guarded_guardLines (hls : ∀ l ∈ ls, '\n' ∉ l) :
    Guarded ls (guardLines 0 [] ls) ∧ ∀ l ∈ guardLines 0 [] ls, '\n' ∉ l := by
  induction hlength : ls.length using Nat.strong_induction_on generalizing ls with
  -- The docstring behind a header is passed in one step, so the induction is on the number of
  -- lines.
  | _ length ih =>
    cases ls with
    | nil => exact ⟨.done, nofun⟩
    | cons l ls =>
      rw [List.forall_mem_cons] at hls
      rw [List.length_cons] at hlength
      rw [guardLines]
      split
      · obtain ⟨hrest, hfeed⟩ := ih ls.length (by omega) hls.2 rfl
        exact ⟨.keep hrest, List.forall_mem_cons.mpr ⟨hls.1, hfeed⟩⟩
      · next new guards hnew =>
        obtain ⟨hheader, hnewline, hguards⟩ := exists_of_guardedHeader? hls.1 hnew
        have hdrop : (ls.drop (docstringLength ls)).length < length := by
          rw [List.length_drop]
          omega
        obtain ⟨hrest, hfeed⟩ :=
          ih _ hdrop (fun l hl => hls.2 l (List.mem_of_mem_drop hl)) rfl
        rw [List.nil_append, guardLines_eq]
        constructor
        · have hdoc :
              docstringLength (ls.take (docstringLength ls) ++ ls.drop (docstringLength ls)) =
                (ls.take (docstringLength ls)).length := by
            rw [List.take_append_drop, List.length_take, Nat.min_eq_left (docstringLength_le ls)]
          have hguarded := Guarded.header hheader hdoc hrest
          rwa [List.take_append_drop] at hguarded
        · refine List.forall_mem_cons.mpr ⟨hnewline, fun line hline => ?_⟩
          rcases List.mem_append.mp hline with hline | hline
          · exact hls.2 line (List.mem_of_mem_take hline)
          · rcases List.mem_append.mp hline with hline | hline
            · exact hguards line hline
            · exact hfeed line hline

/-- Lines that are guarded stay lines. -/
theorem guardLines_ne_nil {skip : Nat} {pending : List Text} (hls : ls ≠ []) :
    guardLines skip pending ls ≠ [] := by
  cases ls with
  | nil => exact absurd rfl hls
  | cons l ls =>
    cases skip with
    | succ skip => exact List.cons_ne_nil _ _
    | zero =>
      rw [guardLines]
      split <;> simp

/-- What the rule makes of any text. -/
theorem guarded_guardMutableDefaults (t : Text) :
    Guarded (lines t) (lines (guardMutableDefaults t)) := by
  obtain ⟨hguarded, hfeed⟩ := guarded_guardLines fun l (hl : l ∈ lines t) => not_mem_of_mem_lines hl
  rw [guardMutableDefaults, lines_unlines (guardLines_ne_nil (lines_ne_nil t)) hfeed]
  exact hguarded

end

end CodeTidy.Python
