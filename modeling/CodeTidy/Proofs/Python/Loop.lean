import CodeTidy.Proofs.Pattern.Spells
import CodeTidy.Proofs.Text.Gauge
import CodeTidy.Proofs.Text.Lines
import CodeTidy.Proofs.Text.Pieces
import CodeTidy.Python.Loop

/-!
# `CodeTidy.Proofs.Python.Loop`: what a loop over elements takes the place of

The rules that make a comprehension of a loop, and the one that counts no index
any more.
-/

set_option autoImplicit false

namespace CodeTidy.Python

open Pattern Text

/-! ### Comprehensions -/

/-- The loop and the comprehension that takes its place. The loop begins with the empty collection
and ends with a line that holds a bracket. The names that it runs over stand in both; nothing else
in the comprehension has more than one line. -/
inductive Comprehends : Text → Text → Prop where
  | intro {a b names d k head opening it closing : Text} (ha : a.any isLoud = true)
      (hk : k.any isLoud = true) (hnames : names.any isLoud = false) (hassign : '=' ∉ names)
      (hhead : '\n' ∉ head) (hopening : '\n' ∉ opening) (hopen : opening.any isLoud = true)
      (hit : '\n' ∉ it) (hclosing : '\n' ∉ closing)
      (hd : it.any isLoud = true ∨ closing.any isLoud = true → d.any isLoud = true) :
      Comprehends (a ++ '\n' :: (b ++ (names ++ (d ++ '\n' :: k))))
        (head ++ (" = " ++ (opening ++ (" for " ++ (names ++ (" in " ++ (it ++ closing)))))))

/-- The names that a loop binds are not loud. -/
theorem target_any_isLoud {e e' : Groups} {u : Text} (h : Spells target e u e') :
    u.any isLoud = false := by
  rw [List.any_eq_false]
  intro c hc hloud
  have havoids : "([\x7b\"'#".toList.all (fun c => target.avoids c) = true := by decide
  exact h.not_mem (List.all_eq_true.mp havoids c (by simpa [isLoud] using hloud)) hc

/-- The head of the loop, up to the line feed in front of its body. -/
theorem exists_of_accumulatorLoop {empty : String} {u : Text} {e : Groups}
    (h : Spells (accumulatorLoop empty) [] u e) :
    ∃ i x names it a b d, e = [(4, it), (3, names), (2, x), (1, i)] ∧
      u = a ++ '\n' :: (b ++ (names ++ (d ++ ['\n']))) ∧ '\n' ∉ i ∧ '\n' ∉ x ∧ '\n' ∉ it ∧
      (empty.toList.any isLoud = true → a.any isLoud = true) ∧ names.any isLoud = false ∧
      '=' ∉ names ∧ (it.any isLoud = true → d.any isLoud = true) := by
  simp only [accumulatorLoop, lineStart, indent, space, space1, word, many, many1,
    spells_place_then, spells_group_then, spells_text_then, spells_run_then, spells_again_then,
    spells_seq_one, spells_text, spells_run] at h
  obtain ⟨i, _, ⟨hi, -, rfl⟩, _, rfl, x, _, ⟨hx, -, rfl⟩, _, rfl, h⟩ := h
  obtain ⟨s₁, -, -, _, rfl, _, rfl, s₂, -, -, _, rfl, _, rfl, s₃, -, -, _, rfl, _, rfl, h⟩ := h
  obtain ⟨i', -, _, rfl, _, rfl, s₄, -, -, _, rfl, names, _, hnames, _, rfl, h⟩ := h
  obtain ⟨s₅, -, -, _, rfl, _, rfl, s₆, -, -, _, rfl, it, _, ⟨hit, -, rfl⟩, _, rfl, h⟩ := h
  obtain ⟨_, rfl, s₇, -, -, _, rfl, rfl, rfl⟩ := h
  obtain rfl := hnames.groups_eq (by decide)
  refine ⟨i, x, names, it, i ++ (x ++ (s₁ ++ ("=" ++ (s₂ ++ (empty.toList ++ s₃))))),
    i' ++ ("for" ++ s₄), s₅ ++ ("in" ++ (s₆ ++ (it ++ (":" ++ s₇)))), rfl, by simp,
    not_mem_of_all hi rfl, not_mem_of_all hx (by decide), not_mem_of_all hit (by decide), ?_,
    target_any_isLoud hnames, hnames.not_mem (by decide), ?_⟩
  · intro hempty
    simp [hempty]
  · intro hloud
    simp [hloud]

/-- The groups of an appending call. -/
theorem exists_of_appendCall {n : Nat} {e e' : Groups} {u : Text}
    (h : Spells (appendCall n) e u e') :
    ∃ value, e' = (n, value) :: e ∧ '\n' ∉ value ∧ u.any isLoud = true := by
  simp only [appendCall, many1, spells_again_then, spells_text_then, spells_group_then,
    spells_seq_one, spells_text, spells_run] at h
  obtain ⟨x, -, _, rfl, _, rfl, value, _, ⟨hvalue, -, rfl⟩, _, rfl, rfl, rfl⟩ := h
  refine ⟨value, rfl, not_mem_of_all hvalue (by decide), ?_⟩
  simp [isLoud]

/-- What the rule for plain loops makes of a match is a comprehension. -/
theorem comprehends_append {t v : Text} {m : Match} (h : MatchesBehind appendLoop t v m) :
    Comprehends m.text (toComprehension m) := by
  have hspells := h.spells
  have hgroups := group_eq m
  generalize m.text = u at hspells ⊢
  generalize textsOf m.groups = e at hspells hgroups
  simp only [appendLoop, @spells_seq (accumulatorLoop "[]"), spells_again_then, indent1, many1,
    spells_run_then, @spells_seq (appendCall 5), spells_seq_one] at hspells
  obtain ⟨_, _, hhead, _, rfl, i', -, _, rfl, s, -, -, _, rfl, w, _, hcall, w', rfl,
    hend⟩ := hspells
  obtain ⟨i, x, names, it, a, b, d, rfl, rfl, hi, hx, hit, ha, hnames, hassign, hd⟩ :=
    exists_of_accumulatorLoop hhead
  obtain ⟨value, rfl, hvalue, hw⟩ := exists_of_appendCall hcall
  obtain rfl := hend.groups_eq (by decide)
  -- The line that goes away is the one with the call, which is loud for its parenthesis.
  have hcomprehends : Comprehends
      (a ++ '\n' :: (b ++ (names ++ (d ++ '\n' :: (i' ++ (s ++ (w ++ w')))))))
      ((i ++ x) ++
        (" = " ++ (("[" ++ value) ++ (" for " ++ (names ++ (" in " ++ (it ++ "]"))))))) := by
    refine .intro (ha (by decide)) (by simp [hw]) hnames hassign (by simp [hi, hx])
      (by simp [hvalue]) (by simp [isLoud]) hit (by decide) ?_
    rintro (hloud | hloud)
    · exact hd hloud
    · cases hloud
  unfold toComprehension assigned forClause
  simpa [hgroups, List.lookup_cons] using hcomprehends

/-- What the rule for loops with a condition makes of a match is a comprehension. -/
theorem comprehends_filtered {t v : Text} {m : Match} (h : MatchesBehind filteredLoop t v m) :
    Comprehends m.text (toFilteredComprehension m) := by
  have hspells := h.spells
  have hgroups := group_eq m
  generalize m.text = u at hspells ⊢
  generalize textsOf m.groups = e at hspells hgroups
  simp only [filteredLoop, @spells_seq (accumulatorLoop "[]"), spells_again_then, indent, indent1,
    space1, many, many1, spells_text_then, spells_group_then, spells_run_then, spells_run,
    @spells_seq (appendCall 7), spells_seq_one] at hspells
  obtain ⟨_, _, hhead, _, rfl, i₁, -, _, rfl, s₁, _, ⟨-, -, rfl⟩, _, rfl, _, rfl,
    hspells⟩ := hspells
  obtain ⟨s₂, -, -, _, rfl, condition, _, ⟨hcondition, -, rfl⟩, _, rfl, _, rfl, hspells⟩ := hspells
  obtain ⟨s₃, -, -, _, rfl, _, rfl, i₂, -, _, rfl, i₃, -, _, rfl, s₄, -, -, _, rfl,
    hspells⟩ := hspells
  obtain ⟨w, _, hcall, w', rfl, hend⟩ := hspells
  obtain ⟨i, x, names, it, a, b, d, rfl, rfl, hi, hx, hit, ha, hnames, hassign, hd⟩ :=
    exists_of_accumulatorLoop hhead
  obtain ⟨value, rfl, hvalue, hw⟩ := exists_of_appendCall hcall
  obtain rfl := hend.groups_eq (by decide)
  have hfeed : '\n' ∉ condition := not_mem_of_all hcondition (by decide)
  have hcomprehends : Comprehends
      (a ++ '\n' :: (b ++ (names ++ ((d ++ '\n' ::
        (i₁ ++ (s₁ ++ ("if" ++ (s₂ ++ (condition ++ (":" ++ s₃)))))))
          ++ '\n' :: (i₂ ++ (i₃ ++ (s₄ ++ (w ++ w'))))))))
      ((i ++ x) ++ (" = " ++ (("[" ++ value) ++ (" for " ++ (names ++ (" in " ++
        (it ++ (" if " ++ (condition ++ "]"))))))))) := by
    refine .intro (ha (by decide)) (by simp [hw]) hnames hassign (by simp [hi, hx])
      (by simp [hvalue]) (by simp [isLoud]) hit (by simp [hfeed]) ?_
    -- A loud bracket of the new line comes of the iterable or of the condition.
    rintro (hloud | hloud)
    · simp [hd hloud]
    · have hcondition : condition.any isLoud = true := by simpa [isLoud] using hloud
      simp [hcondition]
  unfold toFilteredComprehension assigned forClause
  simpa [hgroups, List.lookup_cons] using hcomprehends

/-- What the rule for loops over items makes of a match is a comprehension. -/
theorem comprehends_item {t v : Text} {m : Match} (h : MatchesBehind itemLoop t v m) :
    Comprehends m.text (toDictComprehension m) := by
  have hspells := h.spells
  have hgroups := group_eq m
  generalize m.text = u at hspells ⊢
  generalize textsOf m.groups = e at hspells hgroups
  simp only [itemLoop, @spells_seq (accumulatorLoop "\x7b\x7d"), spells_again_then, indent1, space,
    many, many1, few1, spells_text_then, spells_group_then, spells_run_then, spells_run,
    spells_seq_one] at hspells
  obtain ⟨_, _, hhead, _, rfl, i₁, -, _, rfl, s₁, -, -, _, rfl, x', -, _, rfl, _, rfl, hspells⟩ :=
    hspells
  obtain ⟨key, _, ⟨hkey, -, rfl⟩, _, rfl, _, rfl, s₂, -, -, _, rfl, _, rfl, hspells⟩ := hspells
  obtain ⟨s₃, -, -, _, rfl, value, _, ⟨hvalue, -, rfl⟩, w, rfl, hend⟩ := hspells
  obtain ⟨i, x, names, it, a, b, d, rfl, rfl, hi, hx, hit, ha, hnames, hassign, hd⟩ :=
    exists_of_accumulatorLoop hhead
  obtain rfl := hend.groups_eq (by decide)
  -- The key and the value are on one line, so the comprehension is.
  have hfeed : '\n' ∉ key := not_mem_of_all hkey (by decide)
  have hfeed' : '\n' ∉ value := not_mem_of_all hvalue (by decide)
  have hcomprehends : Comprehends
      (a ++ '\n' :: (b ++ (names ++ (d ++ '\n' :: (i₁ ++ (s₁ ++ (x' ++ ("[" ++
        (key ++ ("]" ++ (s₂ ++ ("=" ++ (s₃ ++ (value ++ w))))))))))))))
      ((i ++ x) ++ (" = " ++ (("\x7b" ++ (key ++ (": " ++ value))) ++ (" for " ++ (names ++
        (" in " ++ (it ++ "\x7d"))))))) := by
    refine .intro (ha (by decide)) (by simp [isLoud]) hnames hassign (by simp [hi, hx])
      (by simp [hfeed, hfeed']) (by simp [isLoud]) hit (by decide) ?_
    rintro (hloud | hloud)
    · exact hd hloud
    · cases hloud
  unfold toDictComprehension assigned forClause
  simpa [hgroups, List.lookup_cons] using hcomprehends

/-- The line ends where the body of the loop does. -/
theorem endsLine_of_bodyEnd {c c' : Cursor} {caps caps' : Captures}
    (h : Takes bodyEnd c caps c' caps') : EndsLine c' := by
  obtain ⟨c₁, caps₁, -, c₂, caps₂, ⟨rfl, c₃, hahead⟩, rfl, -, -⟩ := h
  obtain ⟨c₄, caps₄, htakes, -⟩ := exists_takes_of_run? hahead
  rcases htakes with hfeed | ⟨hend, -, -⟩
  · obtain ⟨hreads, -⟩ := takes_text_iff.mp hfeed
    exact .inr ⟨_, hreads.after_eq⟩
  · exact .inl (by simpa [Cursor.atEnd] using hend)

/-- A match that ends with the end of the body ends its line. -/
theorem endsLine_of_loop {ps : List Pattern} {t v : Text} {m : Match}
    (h : MatchesBehind (seq ps) t v m) (hps : ps ≠ []) (hlast : ps.getLast hps = bodyEnd) :
    EndsLine m.stop := by
  obtain ⟨c, caps, htakes⟩ := takes_seq_last hps h.takes
  rw [hlast] at htakes
  exact endsLine_of_bodyEnd htakes

/-! ### Loops over indices -/

/-- What a loop over indices consists of: a head without quotes in which two parentheses open, and
a body of which no line starts at the margin. -/
structure IsRangeLoop (m : Match) : Prop where
  exists_head : ∃ head, m.text = head ++ '\n' :: m.group 4 ∧ '"' ∉ head ∧ '\'' ∉ head ∧
    2 ≤ head.count '('
  indent : (m.group 1).all isIndent = true
  index : (m.group 2).all isWord = true
  sequence : (m.group 3).all (CharSet.or isWord (CharSet.of ".")) = true
  body : isIndented true (m.group 4) = true

/-- A line of the body of a loop over indices. -/
def bodyLine : Pattern := seq [.again 1, indent1, restOfLine, oneOf ["\n", lineEnd]]

/-- A line of the body, or a line without text. -/
def bodyRound : Pattern := oneOf [bodyLine, seq [indent, "\n"]]

/-- The pattern for loops over a range, with its parts in a row. -/
theorem rangeLoop_eq : rangeLoop =
    seq [lineStart, .group 1 indent, "for", space1, .group 2 word, space1, "in", space1, "range(",
      space, "len(", space, .group 3 (many1 (CharSet.or isWord (CharSet.of "."))), space, ")",
      space, "):", indent, "\n", .group 4 (seq [bodyRound, .rounds .most bodyRound])] := rfl

/-- A line of the body is indented. -/
theorem isIndented_of_bodyRound {e e' : Groups} {i u : Text} (hi : i.all isIndent = true)
    (he : e.lookup 1 = some i) (h : Spells bodyRound e u e') : isIndented true u = true := by
  have hfeed : ∀ {s : Text}, s.all isIndent = true → '\n' ∉ s := fun hs => not_mem_of_all hs rfl
  simp only [bodyRound, bodyLine, indent, indent1, restOfLine, lineEnd, many, many1, spells_oneOf,
    spells_oneOf_one, spells_again_then, spells_run_then, spells_seq_one, spells_text,
    spells_place] at h
  -- The line begins with the margin of the loop and more white space, or it is blank.
  rcases h with ⟨i', hi', _, rfl, s, hs, hlength, _, rfl, r, hr, -, _, rfl, hend⟩ |
    ⟨s, hs, -, _, rfl, rfl, -⟩
  · rw [he, Option.some.injEq] at hi'
    subst hi'
    have hline : isIndented true (i ++ (s ++ r)) = true := by
      refine isIndented_line ?_ ?_
      · have hrest : '\n' ∉ r := not_mem_of_all hr (by decide)
        simp [hfeed hi, hfeed hs, hrest]
      · cases i with
        | cons a i =>
          rw [List.all_cons, Bool.and_eq_true] at hi
          exact isBlank_of_isIndent hi.1
        | nil =>
          cases s with
          | nil => cases hlength
          | cons a s =>
            rw [List.all_cons, Bool.and_eq_true] at hs
            exact isBlank_of_isIndent hs.1
    rcases hend with ⟨rfl, -⟩ | ⟨rfl, -⟩
    · have h := isIndented_append_of_fresh (u := "\n") true hline rfl
      simpa using h
    · simpa using hline
  · refine isIndented_append_of_fresh true ?_ rfl
    refine isIndented_line (hfeed hs) ?_
    cases s with
    | nil => rfl
    | cons a s =>
      rw [List.all_cons, Bool.and_eq_true] at hs
      exact isBlank_of_isIndent hs.1

/-- The body of a loop is indented. -/
theorem isIndented_of_repeats {e e' : Groups} {i u : Text} (hi : i.all isIndent = true)
    (he : e.lookup 1 = some i) (h : Repeats (Spells bodyRound) e u e') :
    isIndented true u = true := by
  induction h with
  | none => rfl
  | more round _ ih =>
    obtain rfl := round.groups_eq (by decide)
    exact isIndented_append_of_fresh true (isIndented_of_bodyRound hi he round) (ih he)

/-- What the rule matches is a loop over a range. -/
theorem isRangeLoop {t v : Text} {m : Match} (h : MatchesBehind rangeLoop t v m) :
    IsRangeLoop m := by
  have hspells := h.spells
  have hgroups := group_eq m
  generalize hu : m.text = u at hspells
  generalize textsOf m.groups = e at hspells hgroups
  rw [rangeLoop_eq] at hspells
  simp only [lineStart, indent, space, space1, word, many, many1, spells_place_then,
    spells_group_then, spells_text_then, spells_run_then, spells_seq_one, spells_run,
    spells_group] at hspells
  obtain ⟨i, _, ⟨hi, -, rfl⟩, _, rfl, _, rfl, s₁, hs₁, -, _, rfl, hspells⟩ := hspells
  obtain ⟨x, _, ⟨hx, -, rfl⟩, _, rfl, s₂, hs₂, -, _, rfl, _, rfl, s₃, hs₃, -, _, rfl, hspells⟩ :=
    hspells
  obtain ⟨_, rfl, s₄, hs₄, -, _, rfl, _, rfl, s₅, hs₅, -, _, rfl, hspells⟩ := hspells
  obtain ⟨n, _, ⟨hn, -, rfl⟩, _, rfl, s₆, hs₆, -, _, rfl, _, rfl, s₇, hs₇, -, _, rfl, hspells⟩ :=
    hspells
  obtain ⟨_, rfl, s₈, hs₈, -, _, rfl, body, rfl, _, hbody, rfl⟩ := hspells
  obtain ⟨first, _, hfirst, later, rfl, hlater⟩ := hbody
  obtain rfl := hfirst.groups_eq (by decide)
  obtain rfl := hlater.groups_eq (by decide)
  -- None of the parts of the head holds a quote.
  have hquote : ∀ q ∈ ['"', '\''], q ∉ i ++ ("for" ++ (s₁ ++ (x ++ (s₂ ++ ("in" ++ (s₃ ++
      ("range(" ++ (s₄ ++ ("len(" ++ (s₅ ++ (n ++ (s₆ ++ (")" ++ (s₇ ++ ("):" ++ s₈)))))))))))))))
      := by
    have hindent : excludes isIndent ['"', '\''] = true := by decide
    have hblank : excludes isBlank ['"', '\''] = true := by decide
    have hword : excludes isWord ['"', '\''] = true := by decide
    have hpart : excludes (CharSet.or isWord (CharSet.of ".")) ['"', '\''] = true := by decide
    intro q hq
    have htexts : q ∉ "for".toList ∧ q ∉ "in".toList ∧ q ∉ "range(".toList ∧ q ∉ "len(".toList ∧
        q ∉ ")".toList ∧ q ∉ "):".toList := by
      rw [List.mem_cons, List.mem_singleton] at hq
      rcases hq with rfl | rfl <;> decide
    simp only [List.mem_append, not_or, htexts, not_mem_of_excludes hi hindent hq,
      not_mem_of_excludes hx hword hq, not_mem_of_excludes hn hpart hq,
      not_mem_of_excludes hs₁ hblank hq, not_mem_of_excludes hs₂ hblank hq,
      not_mem_of_excludes hs₃ hblank hq, not_mem_of_excludes hs₄ hblank hq,
      not_mem_of_excludes hs₅ hblank hq, not_mem_of_excludes hs₆ hblank hq,
      not_mem_of_excludes hs₇ hblank hq, not_mem_of_excludes hs₈ hindent hq, not_false_eq_true,
      and_self]
  refine ⟨⟨_, ?_, hquote '"' (by decide), hquote '\'' (by decide), ?_⟩, ?_, ?_, ?_, ?_⟩
  · rw [hgroups, hu]
    simp
  · have hopen : ("range(".toList.count '(' = 1) ∧ "len(".toList.count '(' = 1 := by decide
    simp only [List.count_append, hopen]
    omega
  · rw [hgroups]
    exact hi
  · rw [hgroups]
    exact hx
  · rw [hgroups]
    exact hn
  · rw [hgroups]
    exact isIndented_append_of_fresh true (isIndented_of_bodyRound hi rfl hfirst)
      (isIndented_of_repeats hi rfl hlater)

/-- A name for an element is a word if the name of the collection consists of word characters. -/
theorem isWord_singular {name : Text} (h : name.all isWord = true) :
    (singular name).all isWord = true ∧ singular name ≠ [] := by
  have htake : ∀ n, (name.take n).all isWord = true := fun n =>
    List.all_eq_true.mpr fun c hc => List.all_eq_true.mp h c (List.mem_of_mem_take hc)
  rw [singular]
  split
  · refine ⟨?_, by simp⟩
    rw [List.all_append, htake, Bool.true_and]
    decide
  · split
    · next hcondition =>
      rw [List.dropLast_eq_take]
      refine ⟨htake _, ?_⟩
      simp only [Bool.and_eq_true, decide_eq_true_eq] at hcondition
      have hlength := hcondition.2
      rw [Ne, List.take_eq_nil_iff, not_or]
      refine ⟨by omega, ?_⟩
      rintro rfl
      cases hlength
    · exact ⟨by decide, by decide⟩

/-- The name for the element is a word. -/
theorem isWord_elementName? {sequence body element : Text}
    (hsequence : sequence.all (CharSet.or isWord (CharSet.of ".")) = true)
    (h : elementName? sequence body = some element) :
    element.all isWord = true ∧ element ≠ [] := by
  -- The last name of a path has no dot, so it consists of word characters.
  have hlast : ((splitAtEach (· == '.') sequence).getLastD []).all isWord = true := by
    rw [List.getLastD_eq_getLast?, List.getLast?_eq_some_getLast (splitAtEach_ne_nil _ sequence),
      Option.getD_some, List.all_eq_true]
    intro c hc
    obtain ⟨hmem, hdot⟩ := mem_of_mem_splitAtEach (List.getLast_mem _) hc
    have hset := List.all_eq_true.mp hsequence c hmem
    rw [CharSet.or, Bool.or_eq_true] at hset
    rcases hset with hset | hset
    · exact hset
    · simp [CharSet.of] at hset
      rw [hset] at hdot
      cases hdot
  simp only [elementName?] at h
  split at h
  · cases h
    exact isWord_singular hlast
  · split at h
    · cases h
      exact ⟨by decide, by decide⟩
    · cases h

/-- What a loop over elements consists of, if it takes the place of one over indices: a head in
which nothing but one parenthesis may open, and the body with a word in the place of each
element. -/
theorem exists_of_toElementLoop {m : Match} (h : IsRangeLoop m)
    (hchange : toElementLoop m ≠ m.text) :
    ∃ head element, toElementLoop m = head ++ '\n' ::
        (elementAt (m.group 3) (m.group 2)).replace (fun _ => element) (m.group 4) ∧
      element.all isWord = true ∧ element ≠ [] ∧ head.any Char.isLower = true ∧
      (head.filter makesLines = [] ∨ head.filter makesLines = ['(']) := by
  simp only [toElementLoop] at hchange ⊢
  split at hchange
  · exact absurd rfl hchange
  · rw [if_neg ‹_›]
    cases helement : elementName? (m.group 3) (m.group 4) with
    | none =>
      rw [helement] at hchange
      exact absurd rfl hchange
    | some element =>
      obtain ⟨hword, hne⟩ := isWord_elementName? h.sequence helement
      -- Margins, names and paths are plain.
      have hindent := filter_eq_nil_of_all h.indent (by decide)
      have hindex := filter_eq_nil_of_all h.index (by decide)
      have hsequence := filter_eq_nil_of_all h.sequence (by decide)
      have helement := filter_eq_nil_of_all hword (by decide)
      dsimp only
      split
      · refine ⟨m.group 1 ++ ("for " ++ (m.group 2 ++ (", " ++ (element ++ (" in enumerate(" ++
          (m.group 3 ++ "):")))))), element, by simp, hword, hne, by simp, .inr ?_⟩
        simp only [List.filter_append, hindent, hindex, hsequence, helement]
        decide
      · refine ⟨m.group 1 ++ ("for " ++ (element ++ (" in " ++ (m.group 3 ++ ":")))), element,
          by simp, hword, hne, by simp, .inl ?_⟩
        simp only [List.filter_append, hindent, hsequence, helement]
        decide

/-- The pattern for the element matches nothing empty. -/
theorem isSolid_elementAt (sequence index : Text) : IsSolid (elementAt sequence index) := by
  refine isSolid_spec ?_
  rw [elementAt]
  have hbracket : isSolid (text ['[']) = true := rfl
  simp [seq, isSolid, hbracket]

/-- An element begins with its sequence and ends with a bracket. -/
theorem spells_elementAt {sequence index u : Text} {e e' : Groups}
    (h : Spells (elementAt sequence index) e u e') :
    ∃ s s', s.all isBlank = true ∧ s'.all isBlank = true ∧
      u = sequence ++ ("[" ++ (s ++ (index ++ (s' ++ "]")))) := by
  simp only [elementAt, notAfter, space, many, spells_place_then, spells_text_then,
    spells_run_then, spells_seq_one, spells_text] at h
  obtain ⟨_, rfl, _, rfl, s, hs, -, _, rfl, _, rfl, s', hs', -, _, rfl, rfl, -⟩ := h
  exact ⟨s, s', hs, hs', rfl⟩

end CodeTidy.Python
