import CodeTidy.Cpp.Table
import CodeTidy.Java.Loop
import CodeTidy.JavaScript.Loop
import CodeTidy.Proofs.Pattern.Places
import CodeTidy.Python.Loop
import CodeTidy.Rule.Nesting

/-!
# `CodeTidy.Proofs.Rule.ElementUpdate`: updates of elements in loops over indices

Four rules turn a loop over the indices of a sequence into one over its elements.
The element at the index becomes a variable there, so that an update of it would
be lost. Each rule has its own test for updates, and none of the tests knows all
forms of them. `IndexRule` says for each rule which forms it looks for and which
it misses. The theorems:

* `occursIn_elementAssignment`, `occursIn_elementUpdate`, `occursIn_elementCount`: a form that
  a rule looks for is found.
* `exists_of_changed`: in C++, what is found is an update.
* `keepsUpdates_iff`: a loop that is rewritten loses no update exactly if its body
  has none of a form that the rule misses, or, in C++, also one of a form that it
  looks for.
-/

set_option autoImplicit false

namespace CodeTidy

open Pattern Text

/-! ### Updates -/

/-- The ways to update an element: by an assignment, plain if the operator is empty, by counting up
or down in front of it or behind it, and as one of the targets of an assignment. -/
inductive ElementUpdate where
  | assign (operator : Text)
  | countAfter
  | countBefore
  | listed
  deriving DecidableEq

/-- The signs that count up and down. -/
def countSigns : List Text := ["++", "--"]

/-- The brackets and quotes that a target may hold. -/
def targetNesting : Nesting := ⟨"\"'", "([\x7b", ")]\x7d"⟩

/-- Whether the brackets and quotes are closed in the end, with no equals sign and no end of a
statement outside of them. -/
def isClosedFrom : Nesting.State → Text → Bool
  | s, [] => s == .start
  | s, c :: r =>
    !(s == .start && "=;\n".toList.contains c) && 0 ≤ s.depth &&
      isClosedFrom (targetNesting.step s c) r

/-- What stands before and behind an element in a list of targets. -/
inductive TargetContext : Text → Text → Prop where
  | behind {s w : Text} (hs : s.all isBlank = true) (hw : isClosedFrom .start w = true) :
      TargetContext [] (s ++ ',' :: w)
  | before {w s : Text} (hw : isClosedFrom .start w = true) (hs : s.all isBlank = true) :
      TargetContext (w ++ ',' :: s) []
  | bracketed {o c : Char} {s s' : Text} (h : (o, c) ∈ [('(', ')'), ('[', ']')])
      (hs : s.all isBlank = true) (hs' : s'.all isBlank = true) : TargetContext (o :: s) (s' ++ [c])
  | spread {sign : Text} (h : sign ∈ ["*".toList, "...".toList]) : TargetContext sign []
  | nested {l r l' r' : Text} (inner : TargetContext l r) (outer : TargetContext l' r') :
      TargetContext (l' ++ l) (r ++ r')

/-- A rule that rewrites loops over indices. The loop's index, the sequence and the body are groups
of its match. -/
structure IndexRule where
  name : String
  table : RuleTable
  pattern : Pattern
  rewrite : Match → Text
  isRule : Rule.replacing name pattern rewrite ∈ table
  index : Nat
  sequence : Nat
  body : Nat
  /-- A character behind which the name of the sequence is part of something else. -/
  isPart : CharSet
  /-- Whether a list of targets may begin with the second text behind the first. -/
  listsTargets : Text → Text → Bool
  /-- The forms of updates that the rule looks for. -/
  guarded : List ElementUpdate
  /-- The other forms of updates that the language has. -/
  unguarded : List ElementUpdate
  /-- How a loop begins in which the variable stands for the element itself. -/
  updating? : Option Text

namespace IndexRule

/-- The element of the sequence at the index. -/
def IsElement (r : IndexRule) (sequence index before u : Text) : Prop :=
  before.getLast?.any r.isPart = false ∧
    ∃ s s', s.all isBlank = true ∧ s'.all isBlank = true ∧
      u = sequence ++ ('[' :: (s ++ (index ++ (s' ++ [']']))))

/-- An update of that form occurs in a text. -/
def Updates (r : IndexRule) (sequence index t : Text) : ElementUpdate → Prop
  | .assign operator => ∃ v u s y, r.IsElement sequence index v u ∧ s.all isBlank = true ∧
      t = v ++ (u ++ (s ++ (operator ++ '=' :: y))) ∧ y.head? ≠ some '='
  | .countAfter => ∃ v u s sign y, r.IsElement sequence index v u ∧ s.all isBlank = true ∧
      sign ∈ countSigns ∧ t = v ++ (u ++ (s ++ (sign ++ y)))
  | .countBefore => ∃ v sign s u y, sign ∈ countSigns ∧ s.all isBlank = true ∧
      r.IsElement sequence index (v ++ (sign ++ s)) u ∧ t = v ++ (sign ++ (s ++ (u ++ y)))
  | .listed => ∃ v l u l' s y, TargetContext l l' ∧ r.listsTargets v (l ++ u) = true ∧
      r.IsElement sequence index (v ++ l) u ∧ s.all isBlank = true ∧
      t = v ++ (l ++ (u ++ (l' ++ (s ++ '=' :: y)))) ∧ y.head? ≠ some '='

/-- The body of the loop updates the element in that form. -/
def BodyUpdates (r : IndexRule) (m : Match) (form : ElementUpdate) : Prop :=
  r.Updates (m.group r.sequence) (m.group r.index) (m.group r.body) form

/-- An update in the loop is one of the element still after the rewriting. -/
def KeepsUpdates (r : IndexRule) (m : Match) : Prop :=
  (∃ form ∈ r.guarded ++ r.unguarded, r.BodyUpdates m form) →
    ∃ head ∈ r.updating?, head <+: r.rewrite m

end IndexRule

/-! ### The rules -/

/-- Assignments with these operators. -/
def assignments (operators : List Text) : List ElementUpdate := operators.map .assign

/-- The operators of one sign that all rules know, and none. -/
def simpleOperators : List Text := [] :: "-+*/%&|^".toList.map (fun a => [a])

/-- A statement may begin behind the text, as far as its last line tells. -/
def beginsStatement (before : Text) : Bool :=
  let line := (before.reverse.takeWhile (· != '\n')).reverse
  line.foldl targetNesting.step .start == .start && (trimEnd line).getLast?.all (CharSet.of ":;=")

/-- The rule for Python. -/
def pythonIndexRule : IndexRule where
  name := "range_len_to_iteration"
  table := Python.loopRules
  pattern := Python.rangeLoop
  rewrite := Python.toElementLoop
  isRule := by simp [Python.loopRules]
  index := 2
  sequence := 3
  body := 4
  isPart := CharSet.or isWord (CharSet.of ".")
  listsTargets before _ := beginsStatement before
  guarded := assignments (simpleOperators ++ ["//".toList, "**".toList])
  unguarded := .listed :: assignments ["@", "<<", ">>"]
  updating? := none

/-- The rule for JavaScript. A list of targets is an array pattern there, and it cannot be an
indexing. -/
def javaScriptIndexRule : IndexRule where
  name := "index_loop_to_foreach"
  table := JavaScript.loopRules
  pattern := JavaScript.indexLoop
  rewrite := JavaScript.toForEach
  isRule := by simp [JavaScript.loopRules]
  index := 1
  sequence := 2
  body := 3
  isPart := JavaScript.isNamePart.or (CharSet.of ".")
  listsTargets before list := list.head? == some '[' &&
    !(trimEnd before).getLast?.any (JavaScript.isNamePart.or (CharSet.of ")]"))
  guarded := []
  unguarded := .listed :: .countAfter :: .countBefore ::
    assignments (simpleOperators ++ (["**", "<<", ">>", ">>>", "&&", "||", "??"] : List String).map
      String.toList)
  updating? := none

/-- The rule for Java. -/
def javaIndexRule : IndexRule where
  name := "index_loop_to_enhanced_for"
  table := Java.loopRules
  pattern := Java.indexLoop
  rewrite := Java.toEnhancedFor
  isRule := by simp [Java.loopRules]
  index := 1
  sequence := 2
  body := 3
  isPart := Java.isPathPart
  listsTargets _ _ := false
  guarded := .countAfter :: assignments simpleOperators
  unguarded := .countBefore :: assignments ["<<", ">>", ">>>"]
  updating? := none

/-- The rule for C++. The variable may be a reference to the element there. -/
def cppIndexRule : IndexRule where
  name := "index_loop_to_range_for"
  table := Cpp.rules
  pattern := Cpp.indexLoop
  rewrite := Cpp.toRangeFor
  isRule := by simp [Cpp.rules]
  index := 1
  sequence := 2
  body := 3
  isPart := CharSet.or isWord (CharSet.of ".")
  listsTargets _ _ := false
  guarded := .countAfter :: .countBefore :: assignments simpleOperators
  unguarded := assignments ["<<", ">>"]
  updating? := some "for (auto& ".toList

/-- The rules for loops over indices. -/
def indexRules : List IndexRule :=
  [pythonIndexRule, javaScriptIndexRule, javaIndexRule, cppIndexRule]

/-! ### What the tests find -/

section Tests

variable {r : IndexRule} {sequence index t v u : Text} {c c' : Cursor} {caps caps' : Captures}

/-- The element of a sequence at an index, behind no character of the set. -/
def indexed (set : CharSet) (sequence index : Text) : Pattern :=
  seq [notAfter set, text sequence, "[", space, text index, space, "]"]

/-- The pattern of an element takes exactly the ways to write the element. -/
theorem takes_indexed_iff (hv : (Cursor.start t).Reads v c) :
    Takes (indexed r.isPart sequence index) c caps c' caps' ↔
      ∃ u, r.IsElement sequence index v u ∧ c.Reads u c' ∧ caps' = caps := by
  constructor
  · -- What is matched is read piece by piece, and put together.
    rintro ⟨c₁, caps₁, hplace, c₂, caps₂, hsequence, c₃, caps₃, hopen, c₄, caps₄,
      ⟨s, hs, -, hspace, rfl⟩, c₅, caps₅, hindex, c₆, caps₆, ⟨s', hs', -, hspace', rfl⟩, hclose⟩
    obtain ⟨hnot, rfl, rfl⟩ := takes_notAfter_iff.mp hplace
    obtain ⟨hreads₁, rfl⟩ := takes_text_iff.mp hsequence
    obtain ⟨hreads₂, rfl⟩ := takes_text_iff.mp hopen
    obtain ⟨hreads₃, rfl⟩ := takes_text_iff.mp hindex
    obtain ⟨hreads₄, rfl⟩ := takes_text_iff.mp hclose
    rw [hv.follows_start] at hnot
    exact ⟨_, ⟨hnot, s, s', hs, hs', rfl⟩,
      hreads₁.trans (hreads₂.trans (hspace.trans (hreads₃.trans (hspace'.trans hreads₄)))), rfl⟩
  · -- What is written is taken apart into the pieces, each of which matches.
    rintro ⟨u, ⟨hnot, s, s', hs, hs', rfl⟩, hreads, rfl⟩
    obtain ⟨c₁, hreads₁, hreads⟩ := hreads.split
    obtain ⟨c₂, hreads₂, hreads⟩ := Cursor.Reads.split (u := ['[']) hreads
    obtain ⟨c₃, hreads₃, hreads⟩ := hreads.split
    obtain ⟨c₄, hreads₄, hreads⟩ := hreads.split
    obtain ⟨c₅, hreads₅, hreads⟩ := hreads.split
    refine ⟨c, caps', takes_notAfter_iff.mpr ⟨?_, rfl, rfl⟩, c₁, caps',
      takes_text_iff.mpr ⟨hreads₁, rfl⟩, c₂, caps',
      takes_text_iff.mpr ⟨hreads₂, rfl⟩, c₃, caps', ⟨s, hs, Nat.zero_le _, hreads₃, rfl⟩, c₄, caps',
      takes_text_iff.mpr ⟨hreads₄, rfl⟩, c₅, caps', ⟨s', hs', Nat.zero_le _, hreads₅, rfl⟩,
      takes_text_iff.mpr ⟨hreads, rfl⟩⟩
    rw [hv.follows_start, hnot]

/-- What an update begins with, up to where the operator or the sign stands. -/
theorem exists_reads_element {s y : Text} (helement : r.IsElement sequence index v u)
    (hs : s.all isBlank = true) (ht : t = v ++ (u ++ (s ++ y))) :
    ∃ c c₁ c₂, (Cursor.start t).Reads v c ∧
      Takes (indexed r.isPart sequence index) c [] c₁ [] ∧ Takes space c₁ [] c₂ [] ∧
      c₂.after = y := by
  obtain ⟨c, hv, hafter⟩ := Cursor.exists_reads (c := Cursor.start t) ht
  obtain ⟨c₁, hu, hafter⟩ := Cursor.exists_reads hafter
  obtain ⟨c₂, hspace, hafter⟩ := Cursor.exists_reads hafter
  exact ⟨c, c₁, c₂, hv, (takes_indexed_iff hv).mpr ⟨u, helement, hu, rfl⟩,
    ⟨s, hs, Nat.zero_le _, hspace, rfl⟩, hafter⟩

/-- An equals sign that no second one follows. -/
def equalsSign : Pattern := seq ["=", .notAhead "="]

/-- A single equals sign is one that no other one follows. -/
theorem takes_equalsSign_iff :
    Takes equalsSign c caps c' caps' ↔
      c.Reads ['='] c' ∧ c'.after.head? ≠ some '=' ∧ caps' = caps := by
  constructor
  · rintro ⟨c₁, caps₁, hsign, rfl, rfl, hnone⟩
    obtain ⟨hreads, rfl⟩ := takes_text_iff.mp hsign
    refine ⟨hreads, ?_, rfl⟩
    intro hhead
    obtain ⟨y, hy⟩ : ∃ y, c'.after = ['='] ++ y := by
      cases hafter : c'.after with
      | nil => simp [hafter] at hhead
      | cons a y => exact ⟨y, by simp_all⟩
    -- Another sign would be taken by what the pattern looks for in vain.
    obtain ⟨c₂, hreads', -⟩ := Cursor.exists_reads hy
    exact run?_first_eq_none_iff.mp hnone c₂ _ (takes_text_iff.mpr ⟨hreads', rfl⟩)
  · rintro ⟨hreads, hhead, rfl⟩
    refine ⟨c', caps', takes_text_iff.mpr ⟨hreads, rfl⟩, rfl, rfl, ?_⟩
    rw [run?_first_eq_none_iff]
    intro c₂ caps₂ htakes
    rw [(takes_text_iff.mp htakes).1.after_eq] at hhead
    exact hhead rfl

/-- The operators that are one sign, or none. -/
def simpleOperator : Pattern := opt (.one (CharSet.of "-+*/%&|^"))

/-- The pattern takes one of the operators that are one sign, or nothing. -/
theorem takes_simpleOperator_iff :
    Takes simpleOperator c caps c' caps' ↔
      ∃ o ∈ simpleOperators, c.Reads o c' ∧ caps' = caps := by
  constructor
  · rintro (⟨a, ha, hreads, rfl⟩ | ⟨rfl, rfl⟩)
    · have hmem : [a] ∈ simpleOperators :=
        List.mem_cons_of_mem _ (List.mem_map.mpr ⟨a, List.contains_iff_mem.mp ha, rfl⟩)
      exact ⟨[a], hmem, hreads, rfl⟩
    · exact ⟨[], .head _, .refl c', rfl⟩
  · rintro ⟨o, ho, hreads, rfl⟩
    rcases List.mem_cons.mp ho with rfl | ho
    · exact .inr ⟨hreads.unique (.refl c), rfl⟩
    · obtain ⟨a, ha, rfl⟩ := List.mem_map.mp ho
      exact .inl ⟨a, List.contains_iff_mem.mpr ha, hreads, rfl⟩

/-- The updates by assignment have an operator each. -/
theorem mem_assignments {operators : List Text} {form : ElementUpdate}
    (h : form ∈ assignments operators) : ∃ o ∈ operators, form = .assign o := by
  obtain ⟨o, ho, rfl⟩ := List.mem_map.mp h
  exact ⟨o, ho, rfl⟩

/-! ### Python -/

/-- The operators that the rule for Python looks for. -/
theorem takes_pythonOperator {o : Text} (ho : o ∈ simpleOperators ++ ["//".toList, "**".toList])
    (hreads : c.Reads o c') :
    Takes (opt (oneOf [.one (CharSet.of "-+*/%&|^"), "//", "**"])) c caps c' caps := by
  rcases List.mem_append.mp ho with ho | ho
  · rcases takes_simpleOperator_iff.mpr ⟨o, ho, hreads, rfl⟩ with h | h
    · exact .inl (.inl h)
    · exact .inr h
  · have hcases : o = "//".toList ∨ o = "**".toList := by simpa using ho
    rcases hcases with rfl | rfl
    · exact .inl (.inr (.inl (takes_text_iff.mpr ⟨hreads, rfl⟩)))
    · exact .inl (.inr (.inr (takes_text_iff.mpr ⟨hreads, rfl⟩)))

/-- An assignment that the rule for Python looks for is found. -/
theorem occursIn_elementAssignment {form : ElementUpdate} (hform : form ∈ pythonIndexRule.guarded)
    (h : pythonIndexRule.Updates sequence index t form) :
    (Python.elementAssignment sequence index).occursIn t = true := by
  obtain ⟨o, ho, rfl⟩ := mem_assignments hform
  obtain ⟨v, u, s, y, helement, hs, ht, hy⟩ := h
  obtain ⟨c, c₁, c₂, hv, htakes, hspace, hafter⟩ := exists_reads_element helement hs ht
  obtain ⟨c₃, hoperator, hafter⟩ := Cursor.exists_reads hafter
  obtain ⟨c₄, hsign, hafter⟩ := Cursor.exists_reads (u := ['=']) hafter
  rw [← hafter] at hy
  exact occursIn_of_takes hv ⟨c₁, [], htakes, c₂, [], hspace, c₃, [],
    takes_pythonOperator ho hoperator, takes_equalsSign_iff.mpr ⟨hsign, hy, rfl⟩⟩

/-- The rule for Python leaves a loop alone where it finds an update. -/
theorem seen_python {m : Match} (hchange : Python.toElementLoop m ≠ m.text) {form : ElementUpdate}
    (hform : form ∈ pythonIndexRule.guarded) : ¬pythonIndexRule.BodyUpdates m form := by
  intro h
  refine hchange ?_
  unfold Python.toElementLoop
  exact if_pos (occursIn_elementAssignment hform h)

/-! ### Java and C++ -/

/-- An assignment or a count behind the element, with the operators that the rules for Java and C++
look for. -/
def updateSign : Pattern :=
  oneOf [seq [simpleOperator, "=", .notAhead "="], "++", "--"]

/-- The forms of updates behind an element. -/
theorem exists_of_updates_behind {form : ElementUpdate}
    (hform : form ∈ ElementUpdate.countAfter :: assignments simpleOperators)
    (h : r.Updates sequence index t form) :
    ∃ v c c₁, (Cursor.start t).Reads v c ∧
      Takes (indexed r.isPart sequence index) c [] c₁ [] ∧
      ∃ c', Takes (seq [space, updateSign]) c₁ [] c' [] := by
  rcases List.mem_cons.mp hform with rfl | hform
  · obtain ⟨v, u, s, sign, y, helement, hs, hsign, ht⟩ := h
    obtain ⟨c, c₁, c₂, hv, htakes, hspace, hafter⟩ := exists_reads_element helement hs ht
    obtain ⟨c₃, hreads, -⟩ := Cursor.exists_reads hafter
    have hcases : sign = "++".toList ∨ sign = "--".toList := by simpa [countSigns] using hsign
    refine ⟨v, c, c₁, hv, htakes, c₃, c₂, [], hspace, ?_⟩
    rcases hcases with rfl | rfl
    · exact .inr (.inl (takes_text_iff.mpr ⟨hreads, rfl⟩))
    · exact .inr (.inr (takes_text_iff.mpr ⟨hreads, rfl⟩))
  · -- An assignment has its operator in front of the equals sign.
    obtain ⟨o, ho, rfl⟩ := mem_assignments hform
    obtain ⟨v, u, s, y, helement, hs, ht, hy⟩ := h
    obtain ⟨c, c₁, c₂, hv, htakes, hspace, hafter⟩ := exists_reads_element helement hs ht
    obtain ⟨c₃, hoperator, hafter⟩ := Cursor.exists_reads hafter
    obtain ⟨c₄, hsign, hafter⟩ := Cursor.exists_reads (u := ['=']) hafter
    rw [← hafter] at hy
    exact ⟨v, c, c₁, hv, htakes, c₄, c₂, [], hspace, .inl ⟨c₃, [],
      takes_simpleOperator_iff.mpr ⟨o, ho, hoperator, rfl⟩,
      takes_equalsSign_iff.mpr ⟨hsign, hy, rfl⟩⟩⟩

/-- The rule for Java leaves a loop alone where it finds an update. -/
theorem seen_java {m : Match} (hchange : Java.toEnhancedFor m ≠ m.text) {form : ElementUpdate}
    (hform : form ∈ javaIndexRule.guarded) : ¬javaIndexRule.BodyUpdates m form := by
  intro h
  obtain ⟨v, c, c₁, hv, ⟨c₂, caps₂, hplace, hindexed⟩, c', hsign⟩ :=
    exists_of_updates_behind hform h
  have hfound : (Java.elementUpdate (m.group 2) (m.group 1)).occursIn (m.group 3) = true :=
    occursIn_of_takes hv ⟨c₁, [], ⟨c₂, caps₂, hplace, .inr hindexed⟩, hsign⟩
  refine hchange ?_
  unfold Java.toEnhancedFor
  dsimp only
  rw [hfound, Bool.or_true, if_pos rfl]

/-- Whether the rule for C++ finds an update. -/
def cppChanged (container index body : Text) : Bool :=
  (Cpp.elementUpdate container index).occursIn body ||
    (Cpp.elementCount container index).occursIn body

/-- What the rule for C++ looks for is found. -/
theorem cppChanged_of_updates {form : ElementUpdate} (hform : form ∈ cppIndexRule.guarded)
    (h : cppIndexRule.Updates sequence index t form) : cppChanged sequence index t = true := by
  rw [cppChanged, Bool.or_eq_true]
  -- A sign in front of the element is looked for by the second pattern, all else by the first one.
  by_cases hbefore : form = .countBefore
  · subst hbefore
    right
    obtain ⟨v, sign, s, u, y, hsign, hs, helement, ht⟩ := h
    obtain ⟨c, hv, hafter⟩ := Cursor.exists_reads (c := Cursor.start t) ht
    obtain ⟨c₁, hreads, hafter⟩ := Cursor.exists_reads hafter
    obtain ⟨c₂, hspace, hafter⟩ := Cursor.exists_reads hafter
    obtain ⟨c₃, hu, -⟩ := Cursor.exists_reads hafter
    have hbehind := hv.trans (hreads.trans hspace)
    have hcases : sign = "++".toList ∨ sign = "--".toList := by simpa [countSigns] using hsign
    have hcount : Takes (oneOf ["++", "--"]) c [] c₁ [] := by
      rcases hcases with rfl | rfl
      · exact .inl (takes_text_iff.mpr ⟨hreads, rfl⟩)
      · exact .inr (takes_text_iff.mpr ⟨hreads, rfl⟩)
    exact occursIn_of_takes hv ⟨c₁, [], hcount, c₂, [], ⟨s, hs, Nat.zero_le _, hspace, rfl⟩,
      (takes_indexed_iff hbehind).mpr ⟨u, helement, hu, rfl⟩⟩
  · left
    have hbehind : form ∈ ElementUpdate.countAfter :: assignments simpleOperators := by
      rcases List.mem_cons.mp hform with rfl | hform
      · exact .head _
      · exact .tail _ (List.mem_of_ne_of_mem hbefore hform)
    obtain ⟨v, c, c₁, hv, hindexed, c', hsign⟩ := exists_of_updates_behind hbehind h
    exact occursIn_of_takes hv ⟨c₁, [], hindexed, hsign⟩

/-- What the rule for C++ finds is an update. -/
theorem exists_of_cppChanged (h : cppChanged sequence index t = true) :
    ∃ form ∈ cppIndexRule.guarded, cppIndexRule.Updates sequence index t form := by
  rw [cppChanged, Bool.or_eq_true, occursIn_iff, occursIn_iff] at h
  rcases h with ⟨v, m, hmatch⟩ | ⟨v, m, hmatch⟩
  · obtain ⟨c₁, caps₁, hindexed, c₂, caps₂, ⟨s, hs, -, hspace, rfl⟩, hsign⟩ := hmatch.takes
    obtain ⟨u, helement, hu, rfl⟩ := (takes_indexed_iff (r := cppIndexRule) hmatch.1).mp hindexed
    have hbefore := hmatch.1.trans (hu.trans hspace)
    -- Behind the element stands an equals sign, with an operator or without, or one of the two
    -- signs that count.
    rcases hsign with ⟨c₃, caps₃, hoperator, hsign⟩ | hsign | hsign
    · obtain ⟨o, ho, hreads, rfl⟩ := takes_simpleOperator_iff.mp hoperator
      obtain ⟨hequals, hhead, -⟩ := takes_equalsSign_iff.mp hsign
      have ht : t = _ := (hbefore.trans (hreads.trans hequals)).after_eq
      refine ⟨.assign o, .tail _ (.tail _ (List.mem_map_of_mem ho)), v, u, s,
        m.stop.after, helement, hs, ?_, hhead⟩
      simpa using ht
    · have ht : t = _ := (hbefore.trans (takes_text_iff.mp hsign).1).after_eq
      refine ⟨.countAfter, by decide, v, u, s, "++", m.stop.after, helement, hs, by decide, ?_⟩
      simpa using ht
    · have ht : t = _ := (hbefore.trans (takes_text_iff.mp hsign).1).after_eq
      refine ⟨.countAfter, by decide, v, u, s, "--", m.stop.after, helement, hs, by decide, ?_⟩
      simpa using ht
  · obtain ⟨c₁, caps₁, hcount, c₂, caps₂, ⟨s, hs, -, hspace, rfl⟩, hindexed⟩ := hmatch.takes
    obtain ⟨sign, hsign, hreads⟩ : ∃ sign ∈ countSigns, m.start.Reads sign c₁ := by
      rcases hcount with hsign | hsign
      · exact ⟨"++", by decide, (takes_text_iff.mp hsign).1⟩
      · exact ⟨"--", by decide, (takes_text_iff.mp hsign).1⟩
    have hbefore := hmatch.1.trans (hreads.trans hspace)
    obtain ⟨u, helement, hu, -⟩ := (takes_indexed_iff (r := cppIndexRule) hbefore).mp hindexed
    have ht : t = _ := (hbefore.trans hu).after_eq
    refine ⟨.countBefore, by decide, v, sign, s, u, m.stop.after, hsign, hs, helement, ?_⟩
    simpa using ht

/-- The rule for C++ binds a reference where it finds an update, and only there. -/
theorem kept_cpp_iff {m : Match} (hchange : Cpp.toRangeFor m ≠ m.text) :
    "for (auto& ".toList <+: Cpp.toRangeFor m ↔
      cppChanged (m.group 2) (m.group 1) (m.group 3) = true := by
  unfold Cpp.toRangeFor at hchange ⊢
  dsimp only at hchange ⊢
  split at hchange
  · exact absurd rfl hchange
  · next hfree =>
    rw [if_neg hfree]
    split at hchange
    · exact absurd rfl hchange
    · next hunused =>
      rw [if_neg hunused, ← cppChanged]
      split
      · next hfound => exact iff_of_true ⟨_, rfl⟩ hfound
      · next hmissed =>
        refine iff_of_false ?_ hmissed
        rintro ⟨w, hw⟩
        simp at hw

end Tests

/-! ### No update is lost -/

/-- An update of a form that a rule looks for is not lost. -/
theorem kept_of_guarded {r : IndexRule} (hr : r ∈ indexRules) {m : Match}
    (hchange : r.rewrite m ≠ m.text) {form : ElementUpdate} (hform : form ∈ r.guarded)
    (h : r.BodyUpdates m form) : ∃ head ∈ r.updating?, head <+: r.rewrite m := by
  have hcases : r = pythonIndexRule ∨ r = javaScriptIndexRule ∨ r = javaIndexRule ∨
      r = cppIndexRule := by
    simpa [indexRules] using hr
  rcases hcases with rfl | rfl | rfl | rfl
  · exact absurd h (seen_python hchange hform)
  · cases hform
  · exact absurd h (seen_java hchange hform)
  · exact ⟨_, rfl, (kept_cpp_iff hchange).mpr (cppChanged_of_updates hform h)⟩

/-- A loop that is rewritten as one over references has an update of such a form. -/
theorem exists_guarded_of_kept {r : IndexRule} (hr : r ∈ indexRules) {m : Match}
    (hchange : r.rewrite m ≠ m.text) {head : Text} (hhead : head ∈ r.updating?)
    (h : head <+: r.rewrite m) : ∃ form ∈ r.guarded, r.BodyUpdates m form := by
  have hcases : r = pythonIndexRule ∨ r = javaScriptIndexRule ∨ r = javaIndexRule ∨
      r = cppIndexRule := by
    simpa [indexRules] using hr
  rcases hcases with rfl | rfl | rfl | rfl
  · cases hhead
  · cases hhead
  · cases hhead
  · obtain rfl := Option.mem_some.mp hhead
    exact exists_of_cppChanged ((kept_cpp_iff hchange).mp h)

/-- A loop that a rule rewrites loses no update of the element exactly if its body has none of a
form that the rule misses, or if the rule has a way to keep updates and finds another one. -/
theorem keepsUpdates_iff : ∀ r ∈ indexRules, ∀ t, ∀ m ∈ r.pattern.hits t, r.rewrite m ≠ m.text →
    (r.KeepsUpdates m ↔
      ((∃ form ∈ r.unguarded, r.BodyUpdates m form) →
        r.updating?.isSome = true ∧ ∃ form ∈ r.guarded, r.BodyUpdates m form)) := by
  intro r hr t m _ hchange
  constructor
  · rintro hkeeps ⟨form, hform, hupdates⟩
    obtain ⟨head, hhead, hrewritten⟩ := hkeeps ⟨form, List.mem_append_right _ hform, hupdates⟩
    exact ⟨Option.isSome_of_mem hhead, exists_guarded_of_kept hr hchange hhead hrewritten⟩
  · rintro hmissed ⟨form, hform, hupdates⟩
    rcases List.mem_append.mp hform with hguarded | hunguarded
    · exact kept_of_guarded hr hchange hguarded hupdates
    · obtain ⟨-, form', hguarded, hupdates'⟩ := hmissed ⟨form, hunguarded, hupdates⟩
      exact kept_of_guarded hr hchange hguarded hupdates'

/-- A loop in C++ that adds to its elements. -/
def addingLoop : Text := "for (int i = 0; i < v.size(); i++) \x7b v[i] += 1; \x7d"

/-- The loop becomes one over references. -/
theorem keepsUpdates_addingLoop :
    ∃ m ∈ Cpp.indexLoop.hits addingLoop, Cpp.toRangeFor m ≠ m.text ∧
      cppIndexRule.BodyUpdates m (.assign "+") ∧ cppIndexRule.KeepsUpdates m := by
  have hmatch : (Cpp.indexLoop.hits addingLoop).any (fun m => Cpp.toRangeFor m != m.text &&
      m.group 2 == "v" && m.group 1 == "i" && m.group 3 == " v[i] += 1; ") = true := by
    decide +kernel
  obtain ⟨m, hm, hgroups⟩ := List.any_eq_true.mp hmatch
  simp only [Bool.and_eq_true, bne_iff_ne, beq_iff_eq] at hgroups
  obtain ⟨⟨⟨hchange, hsequence⟩, hindex⟩, hbody⟩ := hgroups
  have hupdates : cppIndexRule.BodyUpdates m (.assign "+") := by
    show cppIndexRule.Updates (m.group 2) (m.group 1) (m.group 3) (.assign "+")
    rw [hsequence, hindex, hbody]
    exact ⟨" ", "v[i]", " ", " 1; ", ⟨by decide, [], [], rfl, rfl, rfl⟩, by decide, rfl, by decide⟩
  refine ⟨m, hm, hchange, hupdates, ?_⟩
  exact (keepsUpdates_iff cppIndexRule (by simp [indexRules]) addingLoop m hm hchange).mpr
    fun _ => ⟨rfl, .assign "+", by decide, hupdates⟩

/-- The rule for JavaScript looks for no update, and a loop that clears an array becomes one that
does not. -/
theorem clearing_loop_loses_updates :
    JavaScript.indexLoop.replace JavaScript.toForEach
        "for (let i = 0; i < a.length; i++) \x7b a[i] = 0; \x7d" =
      "a.forEach((item) => \x7b item = 0; \x7d);" ∧
      javaScriptIndexRule.Updates "a" "i" " a[i] = 0; " (.assign []) := by
  refine ⟨by decide +kernel, " ", "a[i]", " ", " 0; ", ⟨by decide, [], [], rfl, rfl, rfl⟩,
    by decide, rfl, by decide⟩

end CodeTidy
