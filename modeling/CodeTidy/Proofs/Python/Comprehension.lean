import CodeTidy.Proofs.Pattern.Places
import CodeTidy.Proofs.Python.Loop
import Mathlib.Data.List.Perm.Subperm

/-!
# `CodeTidy.Proofs.Python.Comprehension`: when a comprehension does what the loop did

A comprehension builds its collection before it gives it a name, so it must not
speak of that name, and it runs nothing but what it is made of, so the call or the
assignment that it comes from must be the whole body of the loop. The three rules
never look at the first, and for the second they look at the next line only. The
theorems:

* `three_le_mentions`: a part that speaks of the name does so at a third place of the
  loop.
* `not_isDeeper_next`: the next line, if it begins with something to see, is not part
  of the body.
* `comprehension_keeps_meaning`: what the two rules above mean for every comprehension.
-/

set_option autoImplicit false

namespace CodeTidy.Python

open Pattern Text

/-! ### Names in a text -/

/-- The name stands at a position of the text, as a word of its own. -/
def standsAt (x t : Text) (k : Nat) : Bool :=
  x.isPrefixOf (t.drop k) && !(t.take k).getLast?.any isWord &&
    !(t.drop (k + x.length)).head?.any isWord

/-- The positions at which the name stands in the text. -/
def mentions (x t : Text) : List Nat := (List.range (t.length + 1)).filter (standsAt x t)

/-- The text speaks of the name. -/
def SpeaksOf (t x : Text) : Prop := mentions x t ≠ []

/-- A word stands between two texts of which none goes on with it. -/
theorem standsAt_append {x a b : Text} (ha : a.getLast?.any isWord = false)
    (hb : b.head?.any isWord = false) : standsAt x (a ++ (x ++ b)) a.length = true := by
  rw [standsAt, List.drop_left, List.take_left, ha, ← List.drop_drop, List.drop_left,
    List.drop_left, hb]
  simp

/-- Such a place is one of its mentions. -/
theorem length_mem_mentions {x a b : Text} (ha : a.getLast?.any isWord = false)
    (hb : b.head?.any isWord = false) : a.length ∈ mentions x (a ++ (x ++ b)) := by
  rw [mentions, List.mem_filter, List.mem_range]
  refine ⟨?_, standsAt_append ha hb⟩
  rw [List.length_append]
  omega

/-- A mention stands between two texts of which none goes on with it. -/
theorem exists_of_mem_mentions {x t : Text} {k : Nat} (h : k ∈ mentions x t) :
    ∃ a b, t = a ++ (x ++ b) ∧ a.length = k ∧ a.getLast?.any isWord = false ∧
      b.head?.any isWord = false := by
  rw [mentions, List.mem_filter, List.mem_range] at h
  obtain ⟨hlt, h⟩ := h
  simp only [standsAt, Bool.and_eq_true, Bool.not_eq_true', List.isPrefixOf_iff_prefix] at h
  obtain ⟨⟨⟨b, hb⟩, hbefore⟩, hbehind⟩ := h
  refine ⟨t.take k, b, by rw [hb, List.take_append_drop], by rw [List.length_take]; omega,
    hbefore, ?_⟩
  rwa [← List.drop_drop, ← hb, List.drop_left] at hbehind

/-- No character of a kind ends two texts if it ends none of them. -/
theorem getLast?_append_any {p : Char → Bool} {u v : Text} (hu : u.getLast?.any p = false)
    (hv : v.getLast?.any p = false) : (u ++ v).getLast?.any p = false := by
  rw [List.getLast?_append]
  cases hlast : v.getLast? with
  | none => exact hu
  | some a => rwa [hlast] at hv

/-- No character of a kind begins two texts if it begins none of them. -/
theorem head?_append_any {p : Char → Bool} {u v : Text} (hu : u.head?.any p = false)
    (hv : v.head?.any p = false) : (u ++ v).head?.any p = false := by
  cases u with
  | nil => exact hv
  | cons a u => exact hu

/-- White space ends no word. -/
theorem getLast?_blank {s : Text} (hs : s.all isBlank = true) : s.getLast?.any isWord = false := by
  cases hlast : s.getLast? with
  | none => rfl
  | some a => exact isWord_of_isBlank (List.all_eq_true.mp hs a (List.mem_of_getLast? hlast))

/-- A stretch of a text that stands behind some other, with no word going on into it or out of it.
-/
def IsPart (part before t : Text) : Prop :=
  before.getLast?.any isWord = false ∧
    ∃ b, t = before ++ (part ++ b) ∧ b.head?.any isWord = false

/-- A name in a part is one in the text. -/
theorem IsPart.mem_mentions {part before t x : Text} (h : IsPart part before t) {k : Nat}
    (hk : k ∈ mentions x part) :
    before.length + k ∈ mentions x t ∧ k + x.length ≤ part.length := by
  obtain ⟨hbefore, b, rfl, hb⟩ := h
  obtain ⟨a, b', rfl, rfl, ha, hb'⟩ := exists_of_mem_mentions hk
  have hmem := length_mem_mentions (x := x) (getLast?_append_any hbefore ha)
    (head?_append_any hb' hb)
  rw [List.length_append] at hmem
  refine ⟨by simpa using hmem, ?_⟩
  rw [List.length_append, List.length_append]
  omega

/-- The name itself is a part in which it stands. -/
theorem IsPart.length_mem_mentions {x before t : Text} (h : IsPart x before t) :
    before.length ∈ mentions x t := by
  obtain ⟨hbefore, b, rfl, hb⟩ := h
  exact Python.length_mem_mentions hbefore hb

/-- A text that goes on with something else has the same parts. -/
theorem IsPart.append {part before t r : Text} (h : IsPart part before t)
    (hr : r.head?.any isWord = false) : IsPart part before (t ++ r) := by
  obtain ⟨hbefore, b, rfl, hb⟩ := h
  exact ⟨hbefore, b ++ r, by simp, head?_append_any hb hr⟩

/-- A part that speaks of a name does so at a third place, if the name stands at one place before it
and at another one that it does not cover. -/
theorem three_le_mentions {x t part before set added : Text} (hx : x ≠ []) (hset : IsPart x set t)
    (hadded : IsPart x added t) (hpart : IsPart part before t)
    (hset_lt : set.length < before.length ∧ set.length < added.length)
    (hapart : before.length + part.length ≤ added.length ∨ added.length < before.length)
    (h : SpeaksOf part x) : 3 ≤ (mentions x t).length := by
  obtain ⟨k, hk⟩ := List.exists_mem_of_ne_nil _ h
  obtain ⟨hmem, hfits⟩ := hpart.mem_mentions hk
  have hpositive := List.length_pos_of_ne_nil hx
  -- The name is set, it is added to, and the part speaks of it: these are three places.
  have hsubset : [set.length, added.length, before.length + k] ⊆ mentions x t := by
    intro n hn
    simp only [List.mem_cons, List.not_mem_nil, or_false] at hn
    rcases hn with rfl | rfl | rfl
    · exact hset.length_mem_mentions
    · exact hadded.length_mem_mentions
    · exact hmem
  have hnodup : [set.length, added.length, before.length + k].Nodup := by
    simp only [List.nodup_cons, List.mem_cons, List.not_mem_nil, or_false, not_or,
      not_false_eq_true, List.nodup_nil, and_true]
    omega
  exact (List.Nodup.subperm hnodup hsubset).length_le

/-! ### The parts of the loops -/

/-- White space begins no word. -/
theorem head?_blank {s : Text} (hs : s.all isBlank = true) : s.head?.any isWord = false := by
  cases s with
  | nil => rfl
  | cons a s =>
    rw [List.all_cons, Bool.and_eq_true] at hs
    exact isWord_of_isBlank hs.1

/-- Behind some white space no word goes on. -/
theorem getLast?_append_blank {p s : Text} (hs : s.all isBlank = true) (hne : 1 ≤ s.length) :
    (p ++ s).getLast?.any isWord = false := by
  rw [List.getLast?_append_of_ne_nil _ (List.ne_nil_of_length_pos hne)]
  exact getLast?_blank hs

/-- In front of some white space no word goes on. -/
theorem head?_append_blank {s r : Text} (hs : s.all isBlank = true) (hne : 1 ≤ s.length) :
    (s ++ r).head?.any isWord = false := by
  rw [List.head?_append_of_ne_nil _ (List.ne_nil_of_length_pos hne)]
  exact head?_blank hs

/-- The name and the iterated expression in the head of a loop. -/
theorem exists_parts_of_accumulatorLoop {empty : String} {u : Text} {e : Groups}
    (h : Spells (accumulatorLoop empty) [] u e) :
    ∃ i x names it before, e = [(4, it), (3, names), (2, x), (1, i)] ∧ i.all isIndent = true ∧
      x ≠ [] ∧ IsPart x i u ∧ IsPart it before u ∧ i.length < before.length ∧
      before.length + it.length ≤ u.length := by
  simp only [accumulatorLoop, lineStart, indent, space, space1, word, many, many1,
    spells_place_then, spells_group_then, spells_text_then, spells_run_then, spells_again_then,
    spells_seq_one, spells_text, spells_run] at h
  obtain ⟨i, _, ⟨hi, -, rfl⟩, _, rfl, x, _, ⟨hx, hxlen, rfl⟩, _, rfl, h⟩ := h
  obtain ⟨s₁, hs₁, -, _, rfl, _, rfl, s₂, -, -, _, rfl, _, rfl, s₃, -, -, _, rfl, _, rfl, h⟩ := h
  obtain ⟨i', -, _, rfl, _, rfl, s₄, -, -, _, rfl, names, _, hnames, _, rfl, h⟩ := h
  obtain ⟨s₅, -, -, _, rfl, _, rfl, s₆, hs₆, hs₆len, _, rfl, it, _, ⟨hit, -, rfl⟩, _, rfl, h⟩ := h
  obtain ⟨_, rfl, s₇, -, -, _, rfl, rfl, rfl⟩ := h
  obtain rfl := hnames.groups_eq (by decide)
  -- White space comes in front of the name, and none of its characters behind it.
  have hset : IsPart x i (i ++ (x ++ (s₁ ++ ("=" ++ (s₂ ++ (empty.toList ++ (s₃ ++ ("\n" ++
      (i' ++ ("for" ++ (s₄ ++ (names ++ (s₅ ++ ("in" ++ (s₆ ++ (it ++ (":" ++
        (s₇ ++ "\n")))))))))))))))))) :=
    ⟨getLast?_blank (all_isBlank_of_isIndent hi), _, rfl,
      head?_append_any (head?_blank hs₁) (by rfl)⟩
  refine ⟨i, x, names, it, (i ++ (x ++ (s₁ ++ ("=" ++ (s₂ ++ (empty.toList ++ (s₃ ++ ("\n" ++
    (i' ++ ("for" ++ (s₄ ++ (names ++ (s₅ ++ "in"))))))))))))) ++ s₆, rfl, hi,
    List.ne_nil_of_length_pos hxlen, hset, ⟨getLast?_append_blank hs₆ hs₆len, ':' :: (s₇ ++ ['\n']),
      by simp, (by decide : isWord ':' = false)⟩, ?_, ?_⟩
  · simp only [List.length_append]
    omega
  · simp
    omega

/-- The line ends behind the call or the assignment. -/
theorem isBlank_of_bodyEnd {e e' : Groups} {u : Text} (h : Spells bodyEnd e u e') :
    u.all isBlank = true := by
  obtain ⟨s, _, ⟨hs, -, rfl⟩, w, rfl, w', _, ⟨rfl, -⟩, w'', rfl, rfl, -⟩ := h
  simpa using all_isBlank_of_isIndent hs

/-- A rule that makes a comprehension of a loop, and the groups of its match that the
comprehension is made of, the loop target apart. -/
structure ComprehensionRule where
  name : String
  pattern : Pattern
  rewrite : Match → Text
  isRule : Rule.replacing name pattern rewrite ∈ loopRules
  moved : List Nat

/-- The rule for loops with a condition. -/
def filteredRule : ComprehensionRule where
  name := "filtered_loop_to_comprehension"
  pattern := filteredLoop
  rewrite := toFilteredComprehension
  isRule := by simp [loopRules]
  moved := [4, 6, 7]

/-- The rule for other loops that append. -/
def appendRule : ComprehensionRule where
  name := "loop_to_comprehension"
  pattern := appendLoop
  rewrite := toComprehension
  isRule := by simp [loopRules]
  moved := [4, 5]

/-- The rule for loops that set items. -/
def itemRule : ComprehensionRule where
  name := "loop_to_dict_comprehension"
  pattern := itemLoop
  rewrite := toDictComprehension
  isRule := by simp [loopRules]
  moved := [4, 5, 6]

/-- The rules that make comprehensions. -/
def comprehensionRules : List ComprehensionRule := [filteredRule, appendRule, itemRule]

/-- The loop says the name that it builds at two places, the parts that move stand elsewhere, and
its margin is remembered. -/
structure HasParts (u : Text) (e : Groups) (moved : List Nat) : Prop where
  exists_margin : ∃ i, e.lookup 1 = some i
  exists_places : ∃ x set added, e.lookup 2 = some x ∧ x ≠ [] ∧ IsPart x set u ∧ IsPart x added u ∧
    set.length < added.length ∧
    ∀ n ∈ moved, ∃ part before, e.lookup n = some part ∧ IsPart part before u ∧
      set.length < before.length ∧
      (before.length + part.length ≤ added.length ∨ added.length < before.length)

/-- The groups of an appending call, and its characters. -/
theorem eq_of_appendCall {n : Nat} {e e' : Groups} {u : Text} (h : Spells (appendCall n) e u e') :
    ∃ x value, e.lookup 2 = some x ∧ e' = (n, value) :: e ∧
      u = x ++ (".append(" ++ (value ++ ")")) := by
  simp only [appendCall, many1, spells_again_then, spells_text_then, spells_group_then,
    spells_seq_one, spells_text, spells_run] at h
  obtain ⟨x, hx, _, rfl, _, rfl, value, _, ⟨-, -, rfl⟩, _, rfl, rfl, rfl⟩ := h
  exact ⟨x, value, hx, rfl, rfl⟩

/-- Behind an opening bracket a part begins. -/
theorem getLast?_append_bracket {p : Text} {a : Char} (ha : isWord a = false) :
    (p ++ [a]).getLast?.any isWord = false := by
  rw [List.getLast?_concat]
  exact ha

/-- What the pattern for a plain loop spells has the parts that are moved: the iterable and the
element. -/
theorem hasParts_append {u : Text} {e : Groups} (h : Spells appendLoop [] u e) :
    HasParts u e appendRule.moved := by
  simp only [appendLoop, @spells_seq (accumulatorLoop "[]"), spells_again_then, indent1, many1,
    spells_run_then, @spells_seq (appendCall 5), spells_seq_one] at h
  obtain ⟨u₀, _, hhead, _, rfl, i', hi', _, rfl, s, hs, hslen, _, rfl, w, _, hcall, w',
    rfl, hend⟩ := h
  obtain ⟨i, x, names, it, before, rfl, hi, hx, hset, hit, hlt, hfits⟩ :=
    exists_parts_of_accumulatorLoop hhead
  obtain ⟨x', value, hx', rfl, rfl⟩ := eq_of_appendCall hcall
  obtain rfl := hend.groups_eq (by decide)
  obtain rfl : i = i' := by simpa [List.lookup_cons] using hi'
  obtain rfl : x = x' := by simpa [List.lookup_cons] using hx'
  have hsblank := all_isBlank_of_isIndent hs
  have hbody : (i ++ (s ++ (x ++ (".append(" ++ (value ++ ")")) ++ w'))).head?.any isWord = false :=
    head?_append_any (head?_blank (all_isBlank_of_isIndent hi)) (head?_append_blank hsblank hslen)
  have hadded :
    IsPart x (u₀ ++ i ++ s) (u₀ ++ (i ++ (s ++ (x ++ (".append(" ++ (value ++ ")")) ++ w')))) :=
    ⟨getLast?_append_blank hsblank hslen, ".append(" ++ (value ++ (")" ++ w')), by simp, by rfl⟩
  have hvalue : IsPart value (u₀ ++ i ++ s ++ x ++ ".append".toList ++ ['('])
      (u₀ ++ (i ++ (s ++ (x ++ (".append(" ++ (value ++ ")")) ++ w')))) :=
    ⟨getLast?_append_bracket (by decide), ")" ++ w', by simp, by rfl⟩
  refine ⟨⟨i, rfl⟩, x, i, _, rfl, hx, hset.append hbody, hadded, ?_, ?_⟩
  · simp
    omega
  · intro n hn
    -- The iterable stands in front of the line feed, and the element behind the name that it is
    -- added to.
    have hcases : n = 4 ∨ n = 5 := by simpa [appendRule] using hn
    rcases hcases with rfl | rfl
    · refine ⟨it, before, rfl, hit.append hbody, hlt, .inl ?_⟩
      simp
      omega
    · refine ⟨value, _, rfl, hvalue, ?_, .inr ?_⟩
      · simp
        omega
      · simp

/-- What the pattern for a loop with a condition spells has the parts that are moved: the iterable,
the condition and the element. -/
theorem hasParts_filtered {u : Text} {e : Groups} (h : Spells filteredLoop [] u e) :
    HasParts u e filteredRule.moved := by
  simp only [filteredLoop, @spells_seq (accumulatorLoop "[]"), spells_again_then, indent, indent1,
    space1, many, many1, spells_text_then, spells_group_then, spells_run_then, spells_run,
    @spells_seq (appendCall 7), spells_seq_one] at h
  obtain ⟨u₀, _, hhead, _, rfl, i₁, hi₁, _, rfl, s₁, _, ⟨hs₁, hs₁len, rfl⟩, _, rfl, _, rfl, h⟩ := h
  obtain ⟨s₂, hs₂, hs₂len, _, rfl, condition, _, ⟨-, -, rfl⟩, _, rfl, _, rfl, h⟩ := h
  obtain ⟨s₃, -, -, _, rfl, _, rfl, i₂, -, _, rfl, i₃, -, _, rfl, s₄, hs₄, hs₄len, _, rfl, h⟩ := h
  obtain ⟨w, _, hcall, w', rfl, hend⟩ := h
  obtain ⟨i, x, names, it, before, rfl, hi, hx, hset, hit, hlt, hfits⟩ :=
    exists_parts_of_accumulatorLoop hhead
  obtain ⟨x', value, hx', rfl, rfl⟩ := eq_of_appendCall hcall
  obtain rfl := hend.groups_eq (by decide)
  obtain rfl : i = i₁ := by simpa [List.lookup_cons] using hi₁
  obtain rfl : x = x' := by simpa [List.lookup_cons] using hx'
  have hbody :
      (i ++ (s₁ ++ ("if" ++ (s₂ ++ (condition ++ (":" ++ (s₃ ++ ("\n" ++ (i₂ ++ (i₃ ++ (s₄ ++
      (x ++ (".append(" ++ (value ++ ")")) ++ w')))))))))))).head?.any isWord = false :=
    head?_append_any (head?_blank (all_isBlank_of_isIndent hi))
      (head?_append_blank (all_isBlank_of_isIndent hs₁) hs₁len)
  have hiterated := hit.append hbody
  have hname := hset.append hbody
  -- The whole text gets a name, so that each part is found in it by one equation.
  generalize hu : u₀ ++ (i ++ (s₁ ++ ("if" ++ (s₂ ++ (condition ++ (":" ++ (s₃ ++ ("\n" ++ (i₂ ++
    (i₃ ++ (s₄ ++ (x ++ (".append(" ++ (value ++ ")")) ++ w')))))))))))) = u at hiterated hname ⊢
  have hcondition : IsPart condition (u₀ ++ i ++ s₁ ++ "if".toList ++ s₂) u :=
    ⟨getLast?_append_blank hs₂ hs₂len, _, by rw [← hu]; simp; rfl, by rfl⟩
  have hadded : IsPart x (u₀ ++ i ++ s₁ ++ "if".toList ++ s₂ ++ condition ++ ":".toList ++ s₃ ++
      "\n".toList ++ i₂ ++ i₃ ++ s₄) u :=
    ⟨getLast?_append_blank (all_isBlank_of_isIndent hs₄) hs₄len, _, by rw [← hu]; simp; rfl, by rfl⟩
  have hvalue : IsPart value (u₀ ++ i ++ s₁ ++ "if".toList ++ s₂ ++ condition ++ ":".toList ++ s₃ ++
      "\n".toList ++ i₂ ++ i₃ ++ s₄ ++ x ++ ".append".toList ++ ['(']) u :=
    ⟨getLast?_append_bracket (by decide), _, by rw [← hu]; simp; rfl, by rfl⟩
  refine ⟨⟨i, rfl⟩, x, i, _, rfl, hx, hname, hadded, ?_, ?_⟩
  · simp
    omega
  · intro n hn
    have hcases : n = 4 ∨ n = 6 ∨ n = 7 := by simpa [filteredRule] using hn
    rcases hcases with rfl | rfl | rfl
    · refine ⟨it, before, rfl, hiterated, hlt, .inl ?_⟩
      simp
      omega
    · refine ⟨condition, _, rfl, hcondition, ?_, .inl ?_⟩
      · simp
        omega
      · simp
        omega
    · refine ⟨value, _, rfl, hvalue, ?_, .inr ?_⟩
      · simp
        omega
      · simp

/-- What the pattern for a loop over items spells has the parts that are moved: the iterable, the
key and the value. -/
theorem hasParts_item {u : Text} {e : Groups} (h : Spells itemLoop [] u e) :
    HasParts u e itemRule.moved := by
  simp only [itemLoop, @spells_seq (accumulatorLoop "\x7b\x7d"), spells_again_then, indent1, space,
    many, many1, few1, spells_text_then, spells_group_then, spells_run_then, spells_run,
    spells_seq_one] at h
  obtain ⟨u₀, _, hhead, _, rfl, i₁, hi₁, _, rfl, s₁, hs₁, hs₁len, _, rfl, x', hx', _, rfl, _, rfl,
    h⟩ := h
  obtain ⟨key, _, ⟨-, -, rfl⟩, _, rfl, _, rfl, s₂, -, -, _, rfl, _, rfl, h⟩ := h
  obtain ⟨s₃, hs₃, -, _, rfl, value, _, ⟨-, -, rfl⟩, w, rfl, hend⟩ := h
  obtain ⟨i, x, names, it, before, rfl, hi, hx, hset, hit, hlt, hfits⟩ :=
    exists_parts_of_accumulatorLoop hhead
  obtain rfl := hend.groups_eq (by decide)
  obtain rfl : i = i₁ := by simpa [List.lookup_cons] using hi₁
  obtain rfl : x = x' := by simpa [List.lookup_cons] using hx'
  have hbody : (i ++ (s₁ ++ (x ++ ("[" ++ (key ++ ("]" ++ (s₂ ++ ("=" ++ (s₃ ++
      (value ++ w)))))))))).head?.any isWord = false :=
    head?_append_any (head?_blank (all_isBlank_of_isIndent hi))
      (head?_append_blank (all_isBlank_of_isIndent hs₁) hs₁len)
  have hiterated := hit.append hbody
  have hname := hset.append hbody
  -- The whole text gets a name, so that each part is found in it by one equation.
  generalize hu : u₀ ++ (i ++ (s₁ ++ (x ++ ("[" ++ (key ++ ("]" ++ (s₂ ++ ("=" ++ (s₃ ++
    (value ++ w)))))))))) = u at hiterated hname ⊢
  have hadded : IsPart x (u₀ ++ i ++ s₁) u :=
    ⟨getLast?_append_blank (all_isBlank_of_isIndent hs₁) hs₁len, _, by rw [← hu]; simp; rfl, by rfl⟩
  have hkey : IsPart key (u₀ ++ i ++ s₁ ++ x ++ ['[']) u :=
    ⟨getLast?_append_bracket (by decide), _, by rw [← hu]; simp; rfl, by rfl⟩
  have hvalue :
    IsPart value (u₀ ++ i ++ s₁ ++ x ++ ['['] ++ key ++ ("]".toList ++ s₂) ++ ['='] ++ s₃) u :=
    ⟨getLast?_append_any (getLast?_append_bracket (by decide)) (getLast?_blank hs₃), w,
      by rw [← hu]; simp, head?_blank (isBlank_of_bodyEnd hend)⟩
  refine ⟨⟨i, rfl⟩, x, i, _, rfl, hx, hname, hadded, ?_, ?_⟩
  · simp
    omega
  · intro n hn
    have hcases : n = 4 ∨ n = 5 ∨ n = 6 := by simpa [itemRule] using hn
    rcases hcases with rfl | rfl | rfl
    · refine ⟨it, before, rfl, hiterated, hlt, .inl ?_⟩
      simp
      omega
    · refine ⟨key, _, rfl, hkey, ?_, .inr ?_⟩
      · simp
        omega
      · simp
    · refine ⟨value, _, rfl, hvalue, ?_, .inr ?_⟩
      · simp
        omega
      · simp only [List.length_append, List.length_singleton]
        omega

/-- The name does not occur in the parts of a loop that moves, if the loop says it twice only. -/
theorem HasParts.not_speaksOf {u : Text} {e : Groups} {moved : List Nat} (h : HasParts u e moved)
    (hmentions : (mentions ((e.lookup 2).getD []) u).length ≤ 2) {n : Nat} (hn : n ∈ moved) :
    ¬SpeaksOf ((e.lookup n).getD []) ((e.lookup 2).getD []) := by
  obtain ⟨x, set, added, hx, hne, hset, hadded, hlt, hparts⟩ := h.exists_places
  obtain ⟨part, before, hpart, hispart, hset_lt, hapart⟩ := hparts n hn
  rw [hx, Option.getD_some] at hmentions
  rw [hx, hpart, Option.getD_some, Option.getD_some]
  intro hspeaks
  have hthree := three_le_mentions hne hset hadded hispart ⟨hset_lt, hlt⟩ hapart hspeaks
  omega

/-! ### The line behind the loop -/

/-- The lines behind the one in which the match ends. -/
def linesBehind (m : Match) : List Text := (lines m.stop.after).tail

/-- The line is indented deeper than a margin. -/
def IsDeeper (margin line : Text) : Prop := ∃ s, s ≠ [] ∧ indentOf line = margin ++ s

/-- Right behind its indentation the line has something to see. -/
def beginsVisibly (line : Text) : Bool := (line.dropWhile isIndent).head?.any (fun a => !isBlank a)

/-- A line that begins visibly has a visible character behind its indentation. -/
theorem exists_of_beginsVisibly {l : Text} (h : beginsVisibly l = true) :
    ∃ a w, l = indentOf l ++ a :: w ∧ isBlank a = false ∧ allBlank l = false := by
  have hsplit : l = indentOf l ++ l.dropWhile isIndent := List.takeWhile_append_dropWhile.symm
  rw [beginsVisibly] at h
  cases hrest : l.dropWhile isIndent with
  | nil =>
    rw [hrest] at h
    cases h
  | cons a w =>
    rw [hrest, List.head?_cons, Option.any_some, Bool.not_eq_true'] at h
    rw [hrest] at hsplit
    refine ⟨a, w, hsplit, h, ?_⟩
    rw [allBlank, hsplit, List.all_append, List.all_cons, h, Bool.false_and, Bool.and_false]

/-- A line that a loop of deeper lines could go on with. -/
def deeperLine : Pattern := seq ["\n", .again 1, indent1, .one (fun c => !isBlank c)]

/-- Behind the end of the body no deeper line comes next. -/
theorem takes_bodyEnd {c c' : Cursor} {caps caps' : Captures} (h : Takes bodyEnd c caps c' caps') :
    ∀ c₁ caps₁, ¬Takes deeperLine c' caps' c₁ caps₁ := by
  obtain ⟨c₁, caps₁, -, c₂, caps₂, -, rfl, rfl, hnone⟩ := h
  exact run?_first_eq_none_iff.mp hnone

/-- The next line, if it begins with something to see, is not indented deeper than the loop. -/
theorem not_isDeeper_next {m : Match} {i l : Text} {ls : List Text} (hend : EndsLine m.stop)
    (hmargin : ∃ capture, m.groups.lookup 1 = some capture ∧ capture.text = i)
    (hnone : ∀ c caps, ¬Takes deeperLine m.stop m.groups c caps)
    (hbehind : linesBehind m = l :: ls) (hvisible : beginsVisibly l = true) : ¬IsDeeper i l := by
  rintro ⟨s, hs, hindent⟩
  obtain ⟨capture, hlookup, rfl⟩ := hmargin
  obtain ⟨a, w, hl, ha, -⟩ := exists_of_beginsVisibly hvisible
  have hall : (indentOf l).all isIndent = true := List.all_takeWhile
  rw [hindent, List.all_append, Bool.and_eq_true] at hall
  rcases hend with hnil | ⟨r, hr⟩
  · rw [linesBehind, hnil] at hbehind
    cases hbehind
  · have hlines : lines r = l :: ls := by
      rw [linesBehind, hr, lines_cons, if_pos (by rfl)] at hbehind
      exact hbehind
    obtain ⟨r', rfl, -⟩ := exists_of_lines_eq hlines
    -- A deeper line would be found by the pattern: a line feed, the margin, more white space and a
    -- visible character.
    have hafter : m.stop.after = "\n".toList ++ (capture.text ++ (s ++ ([a] ++ (w ++ r')))) := by
      rw [hr, hl, hindent]
      simp
    obtain ⟨c₁, hfeed, hafter⟩ := Cursor.exists_reads hafter
    obtain ⟨c₂, hagain, hafter⟩ := Cursor.exists_reads hafter
    obtain ⟨c₃, hspace, hafter⟩ := Cursor.exists_reads hafter
    obtain ⟨c₄, hsign, -⟩ := Cursor.exists_reads hafter
    refine hnone c₄ m.groups ⟨c₁, _, takes_text_iff.mpr ⟨hfeed, rfl⟩, c₂, _,
      ⟨capture, hlookup, hagain, rfl⟩, c₃, _,
      ⟨s, hall.2, List.length_pos_of_ne_nil hs, hspace, rfl⟩, a, by simp [ha], hsign, rfl⟩

/-! ### Comprehensions -/

/-- What the three rules have in common. -/
structure IsLoop (m : Match) (moved : List Nat) : Prop where
  parts : HasParts m.text (textsOf m.groups) moved
  ends : EndsLine m.stop
  none_deeper : ∀ c caps, ¬Takes deeperLine m.stop m.groups c caps

/-- A match with these parts that ends with the end of the body is a loop. -/
theorem isLoop_of_bodyEnd {ps : List Pattern} {moved : List Nat} {t v : Text} {m : Match}
    (h : MatchesBehind (seq ps) t v m) (hps : ps ≠ []) (hlast : ps.getLast hps = bodyEnd)
    (hparts : HasParts m.text (textsOf m.groups) moved) : IsLoop m moved := by
  obtain ⟨c, caps, htakes⟩ := takes_seq_last hps h.takes
  rw [hlast] at htakes
  exact ⟨hparts, endsLine_of_bodyEnd htakes, takes_bodyEnd htakes⟩

/-- What a rule for comprehensions matches is a loop. -/
theorem isLoop {r : ComprehensionRule} (hr : r ∈ comprehensionRules) {t v : Text} {m : Match}
    (h : MatchesBehind r.pattern t v m) : IsLoop m r.moved := by
  have hcases : r = filteredRule ∨ r = appendRule ∨ r = itemRule := by
    simpa [comprehensionRules] using hr
  rcases hcases with rfl | rfl | rfl
  · exact isLoop_of_bodyEnd h (List.cons_ne_nil _ _) rfl (hasParts_filtered h.spells)
  · exact isLoop_of_bodyEnd h (List.cons_ne_nil _ _) rfl (hasParts_append h.spells)
  · exact isLoop_of_bodyEnd h (List.cons_ne_nil _ _) rfl (hasParts_item h.spells)

/-- The rules for comprehensions match nothing empty. -/
theorem isSolid_of_mem_comprehensionRules {r : ComprehensionRule} (hr : r ∈ comprehensionRules) :
    IsSolid r.pattern := by
  have hcases : r = filteredRule ∨ r = appendRule ∨ r = itemRule := by
    simpa [comprehensionRules] using hr
  rcases hcases with rfl | rfl | rfl <;> exact isSolid_spec rfl

/-- Wherever a comprehension takes the place of a loop, two things hold. If the loop says the name
that it builds twice only, then no part of the comprehension speaks of it. And if the next line
begins with something to see, then the first line behind the loop that is not blank is not indented
deeper than the loop, so that nothing of the body is left behind. -/
theorem comprehension_keeps_meaning : ∀ r ∈ comprehensionRules, ∀ t, ∀ m ∈ r.pattern.hits t,
    ((mentions (m.group 2) m.text).length ≤ 2 →
      ∀ n ∈ r.moved, ¬SpeaksOf (m.group n) (m.group 2)) ∧
    ((∀ l ∈ (linesBehind m).head?, beginsVisibly l = true) →
      ∀ l ∈ (linesBehind m).find? (fun l => !allBlank l), ¬IsDeeper (m.group 1) l) := by
  intro r hr t m hm
  obtain ⟨v, hv⟩ := exists_matchesBehind_of_mem_hits (isSolid_of_mem_comprehensionRules hr) hm
  have hloop := isLoop hr hv
  constructor
  · intro hmentions n hn
    rw [group_eq] at hmentions ⊢
    rw [group_eq]
    exact hloop.parts.not_speaksOf hmentions hn
  · intro hvisible l hl
    cases hbehind : linesBehind m with
    | nil =>
      rw [hbehind] at hl
      cases hl
    | cons l' ls =>
      rw [hbehind] at hl hvisible
      have hnext := hvisible l' rfl
      obtain ⟨-, -, -, -, hblank⟩ := exists_of_beginsVisibly hnext
      rw [List.find?_cons_of_pos (by rw [hblank]; rfl), Option.mem_some] at hl
      subst hl
      -- The margin of the loop is the first group of the match.
      obtain ⟨i, hi⟩ := hloop.parts.exists_margin
      rw [lookup_textsOf, Option.map_eq_some_iff] at hi
      obtain ⟨capture, hlookup, rfl⟩ := hi
      have hmargin : m.group 1 = capture.text := by
        rw [Match.group, Match.group?, hlookup]
        rfl
      rw [hmargin]
      exact not_isDeeper_next hloop.ends ⟨capture, hlookup, rfl⟩ hloop.none_deeper hbehind hnext

/-- A loop that builds a list of squares, and a line behind it. -/
def squaresLoop : Text :=
  "squares = []\nfor n in numbers:\n    squares.append(n * n)\nprint(squares)\n"

/-- The loop is all there is in its body, and it does not read the list. -/
theorem comprehension_of_squares : ∃ m ∈ appendLoop.hits squaresLoop,
    (∀ n ∈ [4, 5], ¬SpeaksOf (m.group n) (m.group 2)) ∧
    ∀ l ∈ (linesBehind m).find? (fun l => !allBlank l), ¬IsDeeper (m.group 1) l := by
  have hmatch : (appendLoop.hits squaresLoop).any (fun m =>
      decide ((mentions (m.group 2) m.text).length ≤ 2) &&
        (linesBehind m).head?.all beginsVisibly) = true := by
    decide +kernel
  obtain ⟨m, hm, hloop⟩ := List.any_eq_true.mp hmatch
  rw [Bool.and_eq_true, decide_eq_true_eq] at hloop
  obtain ⟨hmentions, hvisible⟩ := hloop
  obtain ⟨hname, hbody⟩ := comprehension_keeps_meaning appendRule (by simp [comprehensionRules])
    squaresLoop m hm
  refine ⟨m, hm, hname hmentions, hbody ?_⟩
  intro l hl
  rw [Option.mem_def] at hl
  rwa [hl] at hvisible

/-- A loop that drops what it has seen before, and that prints behind a blank line. -/
def distinctLoop : Text :=
  "out = []\nfor n in ns:\n    if n not in out:\n        out.append(n)\n\n    print(n)\n"

/-- The condition reads the list, and the body goes on behind the blank line. The loop becomes a
comprehension all the same. -/
theorem comprehension_of_distinct :
    filteredLoop.replace toFilteredComprehension distinctLoop =
      "out = [n for n in ns if n not in out]\n\n    print(n)\n" ∧
    ∃ m ∈ filteredLoop.hits distinctLoop, SpeaksOf (m.group 6) (m.group 2) ∧
      ∃ l ∈ (linesBehind m).find? (fun l => !allBlank l), IsDeeper (m.group 1) l := by
  have hmatch : (filteredLoop.hits distinctLoop).any (fun m =>
      mentions (m.group 2) (m.group 6) != [] && m.group 1 == [] &&
        (linesBehind m).find? (fun l => !allBlank l) == some "    print(n)".toList) = true := by
    decide +kernel
  obtain ⟨m, hm, hloop⟩ := List.any_eq_true.mp hmatch
  simp only [Bool.and_eq_true, bne_iff_ne, beq_iff_eq] at hloop
  obtain ⟨⟨hspeaks, hmargin⟩, hnext⟩ := hloop
  refine ⟨by decide +kernel, m, hm, hspeaks, _, hnext, ?_⟩
  rw [hmargin]
  exact ⟨"    ", by decide, by decide⟩

end CodeTidy.Python
