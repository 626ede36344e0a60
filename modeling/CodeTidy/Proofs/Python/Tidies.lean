import CodeTidy.Proofs.Python.FString
import CodeTidy.Proofs.Python.Loop
import CodeTidy.Proofs.Python.Statement
import CodeTidy.Python.Table

/-!
# `CodeTidy.Proofs.Python.Tidies`: no rule for a cell is ever undone

Each rule for a cell of a notebook leaves the text as it is, or lowers its gauge
(`CodeTidy.Proofs.Text.Gauge`). An f-string gives a quote its prefix; a
comprehension or a `with` block takes a loud line away; a loop over elements
opens fewer parentheses; and a comparison loses its clutter. So a text that the
rules change is never the result of a later rule again. The theorems:

* `gauge_replace`: a replacement is a step if each match is.
* `gauge_replace_prefixed`, `loudLines_comprehends`, `gauge_toElementLoop`,
  `gauge_toWithBlock`, `Compares.eases`: the rules, one kind after the other.
* `tidies_of_mem_cellRules`: each rule for a cell.
* `RuleTable.gauge_apply`, `gauge_cellRules`: the table of them.
-/

set_option autoImplicit false

namespace CodeTidy

open Pattern Text

/-- The rule leaves a text as it is or lowers its gauge. -/
def Rule.Tidies (r : Rule) : Prop :=
  ∀ t t', r.apply t = .ok t' → t' ≠ t → gauge t' < gauge t

/-- The second text is the first one, or has a lower gauge. -/
def IsTidier (t t' : Text) : Prop := t' = t ∨ gauge t' < gauge t

/-- A text is as tidy as itself. -/
theorem IsTidier.refl (t : Text) : IsTidier t t := .inl rfl

/-- Tidier than what is tidier is tidier. -/
theorem IsTidier.trans {a b c : Text} (hab : IsTidier a b) (hbc : IsTidier b c) : IsTidier a c := by
  -- Two steps down are one, and a text that stays adds none.
  rcases hab with rfl | hab
  · exact hbc
  · rcases hbc with rfl | hbc
    · exact .inr hab
    · exact .inr (lt_trans hbc hab)

/-- Rules that are steps, one after the other. -/
theorem RuleTable.gauge_apply {table : RuleTable} (h : ∀ r ∈ table, r.Tidies) {t t' : Text}
    (hok : table.apply t = .ok t') : t' = t ∨ gauge t' < gauge t := by
  refine apply_related IsTidier.refl (fun _ _ _ => IsTidier.trans) (fun r hr u u' hu => ?_) hok
  by_cases hsame : u' = u
  · exact .inl hsame
  · exact .inr (h r hr u u' hu hsame)

namespace Pattern

/-- A replacement is a step if each match that it changes is. -/
theorem gauge_replace {p : Pattern} (hp : IsSolid p) {f : Match → Text} {t : Text}
    (hf : ∀ v m, MatchesBehind p t v m → f m ≠ m.text → ∀ x,
      gauge (x ++ (f m ++ m.stop.after)) < gauge (x ++ (m.text ++ m.stop.after)))
    (hchange : p.replace f t ≠ t) : gauge (p.replace f t) < gauge t := by
  have htidier : IsTidier t (p.replace f t) :=
    replace_related hp IsTidier.refl (fun _ _ _ => IsTidier.trans)
      fun v m hm hne x => .inr (hf v m hm hne x)
  exact htidier.resolve_left hchange

end Pattern

namespace Rule

/-- A rule that replaces matches tidies if each replacement is a step. -/
theorem tidies_replacing (name : String) {p : Pattern} (hp : p.isSolid = true) {f : Match → Text}
    (hf : ∀ t v m, MatchesBehind p t v m → f m ≠ m.text → ∀ x,
      gauge (x ++ (f m ++ m.stop.after)) < gauge (x ++ (m.text ++ m.stop.after))) :
    (replacing name p f).Tidies := by
  intro t t' hok hchange
  cases hok
  exact gauge_replace (isSolid_spec hp) (hf t) hchange

end Rule

namespace Python

/-! ### Formatted strings -/

/-- A text in front of a match does not end with a word. -/
theorem endsWithF_of_opening {rest : Pattern} {t v : Text} {m : Match}
    (h : MatchesBehind (.both openingQuote rest) t v m) : endsWithF false v = false := by
  obtain ⟨c₁, caps₁, ⟨c₂, caps₂, ⟨hcondition, rfl, rfl⟩, -⟩, -⟩ := h.takes
  rcases List.eq_nil_or_concat v with rfl | ⟨v, a, rfl⟩
  · rfl
  · rw [List.concat_eq_append] at h ⊢
    rw [endsWithF_concat, beq_eq_false_iff_ne]
    rintro rfl
    change (!m.start.follows isWord) = true at hcondition
    rw [h.1.follows] at hcondition
    revert hcondition
    decide

/-- A replacement by f-strings does nothing or lowers the gauge. -/
theorem gauge_replace_prefixed {rest : Pattern} {f : Match → Text} {t : Text}
    (hsolid : IsSolid (.both openingQuote rest))
    (hf : ∀ v m, MatchesBehind (.both openingQuote rest) t v m → f m ≠ m.text →
      Prefixed m.text (f m))
    (hchange : Pattern.replace (.both openingQuote rest) f t ≠ t) :
    gauge (Pattern.replace (.both openingQuote rest) f t) < gauge t := by
  refine gauge_lt_of_quoteForms ?_ ?_
  · refine replace_related hsolid (R := fun a b => loudLines b ≤ loudLines a)
      (fun t => Nat.le_refl _) (fun a b c hab hbc => Nat.le_trans hbc hab)
      (fun v m hm hne x => ?_)
    obtain ⟨⟨q, u', o', hq, hu, -⟩, hfeed⟩ := hf v m hm hne
    refine loudLines_mono_line hfeed ?_ x m.stop.after
    rw [hu, List.any_cons, isLoud_of_isQuote hq, Bool.true_or]
  · obtain ⟨v, m, later, hm, hne, ht, -, ht', -⟩ := exists_first_change hsolid hchange
    obtain ⟨⟨q, u', o', hq, hu, ho⟩, -⟩ := hf v m hm hne
    rw [ht', ho]
    conv_lhs => rw [ht, hu]
    exact quoteForms_lt (endsWithF_of_opening hm) hq _ _

/-- The rules for f-strings tidy: each of them puts a prefix in front of a quote. -/
theorem tidies_of_mem_fStringRules {r : Rule} (h : r ∈ fStringRules) : r.Tidies := by
  intro t t' hok hchange
  obtain ⟨rest, f, hsolid, rfl, hf⟩ := exists_replace_of_mem_fStringRules h hok
  exact gauge_replace_prefixed hsolid hf hchange

/-! ### Loops -/

/-- Behind the end of a line the loud lines of two texts are the same ones. -/
theorem exists_loudLines_append {c : Cursor} (h : EndsLine c) :
    ∃ n, ∀ t, loudLines (t ++ c.after) = loudLines t + n := by
  rcases h with hend | ⟨r, hr⟩
  · exact ⟨0, fun t => by rw [hend, List.append_nil, Nat.add_zero]⟩
  · exact ⟨loudLines r, fun t => by rw [hr, loudLines_append_feed]⟩

/-- A comprehension has fewer loud lines than the loop. -/
theorem loudLines_comprehends {u o : Text} (h : Comprehends u o) (x : Text) :
    loudLines (x ++ o) < loudLines (x ++ u) := by
  obtain ⟨ha, hk, hnames, -, hhead, hopening, hopen, hit, hclosing, hd⟩ := h
  rename_i a b names d k head opening it closing
  -- The first line of the comprehension is in the place of the empty collection.
  have hfirst : loudLines (x ++ (head ++ (" = " ++ (opening ++ " for ")))) ≤
      loudLines (x ++ a) := by
    have hline := loudLines_mono_line (o := head ++ (" = " ++ (opening ++ " for ")))
      (by simp [hhead, hopening]) ha x []
    rwa [List.append_nil, List.append_nil] at hline
  have hlast : loudLines (" in " ++ (it ++ closing)) ≤ loudLines d := by
    cases hloud : (" in ".toList ++ (it ++ closing)).any isLoud with
    | false => rw [loudLines_eq_zero hloud]; exact Nat.zero_le _
    | true =>
      refine Nat.le_trans (loudLines_line_le (by simp [hit, hclosing])) (one_le_loudLines (hd ?_))
      simpa [isLoud] using hloud
  have ho : loudLines (x ++ (head ++ (" = " ++ (opening ++ (" for " ++ (names ++ (" in " ++
      (it ++ closing)))))))) ≤ loudLines (x ++ a) + loudLines d := by
    have hsplit := loudLines_append_le (x ++ (head ++ (" = " ++ (opening ++ " for "))))
      (names ++ (" in " ++ (it ++ closing)))
    have hrest := loudLines_append_le names (" in " ++ (it ++ closing))
    rw [loudLines_eq_zero hnames] at hrest
    simp only [List.append_assoc] at hsplit hrest hfirst ⊢
    omega
  have hu : loudLines (x ++ a) + loudLines d + 1 ≤
      loudLines (x ++ (a ++ '\n' :: (b ++ (names ++ (d ++ '\n' :: k))))) := by
    have hbody := loudLines_append_feed (b ++ (names ++ d)) k
    have hd := loudLines_le_append_right (b ++ names) d
    have hk := one_le_loudLines hk
    rw [← List.append_assoc, loudLines_append_feed]
    simp only [List.append_assoc] at hbody hd ⊢
    omega
  omega

/-- A comprehension is a step: it takes a loud line away, and the rest of the last line counts the
same behind both. -/
theorem gauge_comprehends {u o : Text} (h : Comprehends u o) {c : Cursor} (hc : EndsLine c)
    (x : Text) : gauge (x ++ (o ++ c.after)) < gauge (x ++ (u ++ c.after)) := by
  obtain ⟨n, hn⟩ := exists_loudLines_append hc
  refine gauge_lt_of_loudLines ?_
  rw [← List.append_assoc, ← List.append_assoc, hn, hn]
  exact Nat.add_lt_add_right (loudLines_comprehends h x) n

/-- The name of an element may take the place of the element. -/
theorem eases_elementAt {sequence index element : Text}
    (hsequence : sequence.all (CharSet.or isWord (CharSet.of ".")) = true)
    (hindex : index.all isWord = true) (helement : element.all isWord = true) (t : Text) :
    Eases t ((elementAt sequence index).replace (fun _ => element) t) := by
  refine replace_related (isSolid_elementAt sequence index) Eases.refl
    (fun a b c hab hbc => hab.trans hbc) (fun v m hm _ x => ?_)
  obtain ⟨s, s', hs, hs', hu⟩ := spells_elementAt hm.spells
  refine (Eases.append_right ?_ m.stop.after).append_left x
  refine .of_plain ?_ (any_makesLines_eq_false (filter_eq_nil_of_all helement (by decide))) ?_
  · rw [hu]
    simp only [List.any_append, any_isQuote_of_all hsequence (by decide),
      any_isQuote_of_all hindex (by decide), any_isQuote_of_all hs (by decide),
      any_isQuote_of_all hs' (by decide)]
    decide
  · intro behind hend
    rw [hu] at hend
    simp only [endsWithF_append] at hend
    cases hend

/-- A loop over elements is a step: it opens fewer parentheses and eases the rest. -/
theorem gauge_toElementLoop {m : Match} (h : IsRangeLoop m) (hchange : toElementLoop m ≠ m.text)
    (x y : Text) : gauge (x ++ (toElementLoop m ++ y)) < gauge (x ++ (m.text ++ y)) := by
  obtain ⟨head, htext, hdouble, hsingle, hcount⟩ := h.exists_head
  obtain ⟨head', element, ho, helement, -, -, hfilter⟩ := exists_of_toElementLoop h hchange
  have hbody := eases_elementAt h.sequence h.index helement (m.group 4)
  rw [htext, ho]
  generalize (elementAt (m.group 3) (m.group 2)).replace (fun _ => element) (m.group 4) = body'
    at hbody ⊢
  have hcount' : head'.count '(' ≤ 1 := by
    rw [← List.count_filter (p := makesLines) rfl]
    rcases hfilter with hfilter | hfilter <;> rw [hfilter] <;> decide
  -- Of what makes lines loud the new head keeps an opening parenthesis at most.
  have hquote' : head'.any isQuote = false := by
    have hkept : ∀ q, isQuote q = true → q ∉ head' := by
      intro q hq hmem
      have hmem' := List.mem_filter.mpr ⟨hmem, show makesLines q = true by
        rw [makesLines, isLoud_of_isQuote hq, Bool.true_or]⟩
      rcases hfilter with hfilter | hfilter
      · rw [hfilter] at hmem'
        cases hmem'
      · rw [hfilter, List.mem_singleton] at hmem'
        subst hmem'
        cases hq
    exact any_isQuote_eq_false (hkept '"' rfl) (hkept '\'' rfl)
  have hhead : Eases (head ++ ['\n']) (head' ++ ['\n']) := by
    refine ⟨?_, quoteForms_le ?_ ?_ ?_⟩
    · rw [List.filter_append, List.filter_append]
      refine List.Sublist.append ?_ (List.Sublist.refl _)
      rcases hfilter with hfilter | hfilter
      · rw [hfilter]
        exact List.nil_sublist _
      · rw [hfilter, List.singleton_sublist, List.mem_filter]
        exact ⟨List.count_pos_iff.mp (by omega), rfl⟩
    · rw [List.any_append, any_isQuote_eq_false hdouble hsingle]
      rfl
    · rw [List.any_append, hquote']
      rfl
    · intro behind hend
      rw [endsWithF_concat] at hend
      cases hend
  -- The head and the body are eased one after the other.
  have heases : Eases (head ++ '\n' :: m.group 4) (head' ++ '\n' :: body') := by
    have hfirst := hhead.append_right (m.group 4)
    have hsecond := hbody.append_left (head' ++ ['\n'])
    simpa using hfirst.trans hsecond
  refine heases.gauge_lt_of_count ?_ x y
  have hle := hbody.count_le
  rw [List.count_append, List.count_append, List.count_cons, List.count_cons]
  simp
  omega

/-- The rules for loops tidy. -/
theorem tidies_of_mem_loopRules {r : Rule} (h : r ∈ loopRules) : r.Tidies := by
  simp only [loopRules, List.mem_cons, List.not_mem_nil, or_false] at h
  rcases h with rfl | rfl | rfl | rfl
  · exact Rule.tidies_replacing _ rfl fun t v m hm _ =>
      gauge_comprehends (comprehends_filtered hm) (endsLine_of_loop hm (by simp) rfl)
  · exact Rule.tidies_replacing _ rfl fun t v m hm _ =>
      gauge_comprehends (comprehends_append hm) (endsLine_of_loop hm (by simp) rfl)
  · exact Rule.tidies_replacing _ rfl fun t v m hm _ =>
      gauge_comprehends (comprehends_item hm) (endsLine_of_loop hm (by simp) rfl)
  · exact Rule.tidies_replacing _ rfl fun t v m hm hne x =>
      gauge_toElementLoop (isRangeLoop hm) hne x m.stop.after

/-! ### Comparisons -/

/-- What has neither brackets nor quotes may take the place of a comparison. -/
theorem Compares.eases {operator word w o : Text} (h : Compares operator word w)
    (hoperator : operator.any isQuote = false) (hword : word.any isQuote = false)
    (hend : ∀ behind, endsWithF behind word = false) (ho : o.any makesLines = false) :
    Eases w o := by
  obtain ⟨s, s', hs, hs', rfl⟩ := h
  refine .of_plain ?_ ho ?_
  · simp only [List.any_append, any_isQuote_of_all hs (by decide),
      any_isQuote_of_all hs' (by decide), hoperator, hword]
    rfl
  · intro behind hf
    simp only [endsWithF_append, hend] at hf
    cases hf

/-- The clutter of a comparison is that of its operator and its word. -/
theorem Compares.le_clutterFrom {operator word w : Text} (h : Compares operator word w)
    {a b : Nat} (hoperator : ∀ behind, a ≤ clutterFrom behind operator)
    (hword : ∀ behind, b ≤ clutterFrom behind word) (behind : Bool) :
    a + b ≤ clutterFrom behind w := by
  obtain ⟨s, s', -, -, rfl⟩ := h
  simp only [clutterFrom_append]
  have hoperator := hoperator (endsWithEq behind s)
  have hword := hword (endsWithEq (endsWithEq (endsWithEq behind s) operator) s')
  omega

/-- To drop a comparison with `True` is a step: it is clutter. -/
theorem gauge_trueComparison {w g : Text} (h : Compares "==" "True" w) (x y : Text) :
    gauge (x ++ (g ++ y)) < gauge (x ++ ((g ++ w) ++ y)) := by
  have heases : Eases (g ++ w) g := by
    have hnothing := (h.eases (o := []) (by decide) (by decide) (fun _ => rfl) rfl).append_left g
    rwa [List.append_nil] at hnothing
  refine heases.gauge_lt_of_clutter (fun behind => ?_) x y
  have hclutter := h.le_clutterFrom (a := 1) (b := 1) (by decide) (by decide) (endsWithEq behind g)
  have hend := Bool.toNat_le (endsWithEq behind g)
  rw [clutterFrom_append]
  omega

/-- A name or a call does not end with an equals sign. -/
theorem endsWithEq_call {name call : Text} (hne : name ≠ [])
    (hname : name.all (CharSet.or isWord (CharSet.of ".")) = true)
    (hcall : call.getLast?.all (· == ')') = true) (behind : Bool) :
    endsWithEq behind (name ++ call) = false := by
  rcases List.eq_nil_or_concat call with rfl | ⟨call, c, rfl⟩
  · rw [List.append_nil, ← List.dropLast_append_getLast hne, endsWithEq_concat,
      beq_eq_false_iff_ne]
    intro heq
    have hlast := List.all_eq_true.mp hname _ (List.getLast_mem hne)
    rw [heq] at hlast
    revert hlast
    decide
  · rw [List.concat_eq_append] at hcall ⊢
    rw [List.getLast?_concat, Option.all_some, beq_iff_eq] at hcall
    rw [← List.append_assoc, endsWithEq_concat, hcall]
    rfl

/-- To write `not` for a comparison with `False` is a step: the comparison was clutter, and what it
was about is no more clutter behind `not`. -/
theorem gauge_falseComparison {w g name call : Text} (h : Compares "==" "False" w)
    (hne : name ≠ []) (hname : name.all (CharSet.or isWord (CharSet.of ".")) = true)
    (hcall : call.getLast?.all (· == ')') = true) (x y : Text) :
    gauge (x ++ ((g ++ ("not " ++ (name ++ call))) ++ y)) <
      gauge (x ++ ((g ++ ((name ++ call) ++ w)) ++ y)) := by
  have heases : Eases (g ++ ((name ++ call) ++ w)) (g ++ ("not " ++ (name ++ call))) := by
    have hnothing : Eases ((name ++ call) ++ w) (name ++ call) := by
      have hdrop := (h.eases (o := []) (by decide) (by decide) (fun _ => rfl) rfl).append_left
        (name ++ call)
      rwa [List.append_nil] at hdrop
    have hnot : Eases name ("not " ++ name) := by
      refine .of_plain (any_isQuote_of_all hname (by decide)) ?_ (fun behind hend => ?_)
      · rw [List.any_append, any_makesLines_eq_false (filter_eq_nil_of_all hname (by decide))]
        decide
      · -- The name ends as it did, whatever stands in front of it.
        rw [← List.dropLast_append_getLast hne, endsWithF_concat] at hend
        rw [← List.dropLast_append_getLast hne, ← List.append_assoc, endsWithF_concat, hend]
    have hcalled := hnothing.trans (hnot.append_right call)
    rw [List.append_assoc "not ".toList] at hcalled
    exact hcalled.append_left g
  refine heases.gauge_lt_of_clutter (fun behind => ?_) x y
  have hnot : ∀ behind, clutterFrom behind "not " = 0 ∧ endsWithEq behind "not " = false := by
    decide
  have hclutter := h.le_clutterFrom (a := 1) (b := 0) (by decide) (fun _ => Nat.zero_le _)
    (endsWithEq (endsWithEq behind g) (name ++ call))
  rw [endsWithEq_append, endsWithEq_append, endsWithEq_call hne hname hcall, Bool.toNat_false,
    clutterFrom_append behind g, clutterFrom_append behind g, clutterFrom_append _ "not ",
    clutterFrom_append _ (name ++ call), (hnot _).1, (hnot _).2]
  -- What the name adds behind an equals sign it adds behind `not` at most.
  have hle : clutterFrom false (name ++ call) ≤ clutterFrom (endsWithEq behind g)
      (name ++ call) := by
    cases endsWithEq behind g with
    | true => exact (clutterFrom_true_le _).1
    | false => exact Nat.le_refl _
  omega

/-- To write an identity for a comparison with `None` is a step, since that has no clutter. -/
theorem gauge_noneComparison {operator w o : Text} (h : Compares operator "None" w)
    (hquote : operator.any isQuote = false)
    (hoperator : ∀ behind, 1 ≤ clutterFrom behind operator) (ho : o.any makesLines = false)
    (hclutter : ∀ behind, clutterFrom behind o = 0 ∧ endsWithEq behind o = false) (x y : Text) :
    gauge (x ++ (o ++ y)) < gauge (x ++ (w ++ y)) := by
  have heases : Eases w o := h.eases hquote (by decide) (fun _ => rfl) ho
  refine heases.gauge_lt_of_clutter (fun behind => ?_) x y
  rw [(hclutter behind).1, (hclutter behind).2]
  exact h.le_clutterFrom (a := 1) (b := 0) hoperator (fun _ => Nat.zero_le _) behind

/-- To turn an argument `shell=True` off is a step: `shell=False` has no clutter. -/
theorem gauge_shellArgument {s s' : Text} (hs : s.all isBlank = true) (hs' : s'.all isBlank = true)
    (x y : Text) : gauge (x ++ ("shell=False" ++ y)) <
      gauge (x ++ (("shell" ++ (s ++ ("=" ++ (s' ++ "True")))) ++ y)) := by
  have heases : Eases ("shell" ++ (s ++ ("=" ++ (s' ++ "True")))) "shell=False" := by
    refine .of_plain ?_ (by decide) (fun behind hend => ?_)
    · simp only [List.any_append, any_isQuote_of_all hs (by decide),
        any_isQuote_of_all hs' (by decide)]
      rfl
    · simp only [endsWithF_append] at hend
      cases hend
  refine heases.gauge_lt_of_clutter (fun behind => ?_) x y
  have hnone : ∀ behind, clutterFrom behind "shell=False" = 0 ∧
      endsWithEq behind "shell=False" = false := by decide
  have hone : ∀ behind, clutterFrom behind "True" = 1 := by decide
  rw [(hnone behind).1, (hnone behind).2]
  simp only [clutterFrom_append, hone, Bool.toNat_false]
  omega

/-! ### Files -/

/-- A `with` block is a step: the line that closes the file was a loud one, and the other lines stay
as loud as they are. -/
theorem gauge_toWithBlock {m : Match} (h : IsOpenAndClose m) (x : Text) :
    gauge (x ++ (toWithBlock m ++ m.stop.after)) < gauge (x ++ (m.text ++ m.stop.after)) := by
  obtain ⟨first, last, htext, hfirst, hlast⟩ := h.exists_parts
  obtain ⟨head, inner, ho, hfeed, -, -, -, hkept⟩ := exists_of_toWithBlock h
  -- The line of the closing ends where the match does.
  obtain ⟨n, hn⟩ : ∃ n, ∀ t, loudLines (t ++ (m.group 5 ++ m.stop.after)) = loudLines t + n := by
    rcases h.stop with hstop | ⟨hstop, hend⟩
    · exact ⟨loudLines m.stop.after, fun t => by
        rw [hstop, List.singleton_append, loudLines_append_feed]⟩
    · rw [hstop]
      exact exists_loudLines_append hend
  -- The lines of the block end a line, so the closing line is one on its own.
  have hclose : loudLines (m.group 4) + 1 ≤ loudLines (m.group 4 ++ last) := by
    have hone := one_le_loudLines hlast
    rcases h.body with hbody | ⟨t, hbody⟩
    · rw [hbody]
      simpa [loudLines, loudFrom] using hone
    · rw [hbody, List.append_assoc, List.singleton_append, loudLines_append_feed,
        loudLines_append_feed]
      simpa [loudLines, loudFrom] using hone
  have hopen : loudLines (x ++ head) ≤ loudLines (x ++ first) := by
    have hline := loudLines_mono_line hfeed hfirst x []
    rwa [List.append_nil, List.append_nil] at hline
  have hinner : loudLines inner ≤ loudLines (m.group 4) := by
    have hline := loudLines_mono_filter hkept [] []
    rwa [List.nil_append, List.nil_append, List.append_nil, List.append_nil] at hline
  refine gauge_lt_of_loudLines ?_
  have hnew : loudLines (x ++ (toWithBlock m ++ m.stop.after)) =
      loudLines (x ++ head) + loudLines inner + n := by
    rw [← loudLines_append_feed, ← hn, ho]
    simp
  have hold : loudLines (x ++ (m.text ++ m.stop.after)) =
      loudLines (x ++ first) + loudLines (m.group 4 ++ last) + n := by
    rw [← loudLines_append_feed, ← hn, htext]
    simp
  omega

/-- The rules for statements tidy. -/
theorem tidies_of_mem_statementRules {r : Rule} (h : r ∈ statementRules) : r.Tidies := by
  simp only [statementRules, List.mem_cons, List.not_mem_nil, or_false] at h
  -- The two comparisons with `None` differ in their operators only.
  rcases h with rfl | rfl | rfl | rfl | rfl | rfl
  · refine Rule.tidies_replacing _ rfl fun t v m hm _ x => ?_
    obtain ⟨w, hw, htext, -, -⟩ := exists_of_trueComparison hm
    rw [htext]
    exact gauge_trueComparison hw x m.stop.after
  · refine Rule.tidies_replacing _ rfl fun t v m hm _ x => ?_
    obtain ⟨w, hw, htext, -, -, -, -, name, call, hgroup, hne, hname, hcall⟩ :=
      exists_of_falseComparison hm
    rw [htext, hgroup, List.append_assoc (m.group 1)]
    exact gauge_falseComparison hw hne hname hcall x m.stop.after
  · refine Rule.tidies_replacing _ rfl fun t v m hm _ x => ?_
    exact gauge_noneComparison (exists_of_noneComparison hm) (by decide) (by decide) (by decide)
      (by decide) x m.stop.after
  · refine Rule.tidies_replacing _ rfl fun t v m hm _ x => ?_
    exact gauge_noneComparison (exists_of_noneComparison hm) (by decide) (by decide) (by decide)
      (by decide) x m.stop.after
  · exact Rule.tidies_replacing _ rfl fun t v m hm _ x => gauge_toWithBlock (isOpenAndClose hm) x
  · refine Rule.tidies_replacing _ rfl fun t v m hm _ x => ?_
    obtain ⟨s, s', hs, hs', htext⟩ := exists_of_shellArgument hm
    rw [htext]
    exact gauge_shellArgument hs hs' x m.stop.after

/-! ### The table -/

/-- Each rule for a cell tidies, whatever kind it is of. -/
theorem tidies_of_mem_cellRules {r : Rule} (h : r ∈ cellRules) : r.Tidies := by
  rw [cellRules, List.mem_append, List.mem_append] at h
  rcases h with (h | h) | h
  · exact tidies_of_mem_fStringRules h
  · exact tidies_of_mem_loopRules h
  · exact tidies_of_mem_statementRules h

/-- The rules for a cell leave its text as it is or lower its gauge. -/
theorem gauge_cellRules {t t' : Text} (h : cellRules.apply t = .ok t') :
    t' = t ∨ gauge t' < gauge t :=
  RuleTable.gauge_apply (fun _ => tidies_of_mem_cellRules) h

end Python

end CodeTidy
