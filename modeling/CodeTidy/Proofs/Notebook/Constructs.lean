import CodeTidy.Proofs.Notebook.Split

/-!
# `CodeTidy.Proofs.Notebook.Constructs`: what a split may cut in two

A cell should be split between whole statements only. A split behind a decorator,
or in front of a clause such as `else`, leaves two cells of which neither compiles.
Both happen, as each reason to split asks for a distance from the last split, and
none looks at what stands in front of the line.

`IsNextBreak` says which number follows another one: the first behind it at which
there is a reason to split. From this it is known how far the two are apart, and
where a decorator that is cut off can stand. The theorems:

* `isChain_breakPoints_next`, `infix_breakPoints_iff`: the numbers follow one another
  so, and each is followed by the only one that can.
* `mem_breakPoints_iff`: a number is one of them if there is a reason to split, seen from
  the last one in front of it.
* `IsCutOff.le_of_next`: a decorator that is cut off stands at most five lines behind
  the last split.
* `CutsClause.blank_of_next`, `splitsAt_clause_iff`: a clause is cut off at a blank line
  only, and when it is.
* `keepsConstructs_iff`: when nothing is cut in two.
* `breakPoints_cuts_constructs`: lines of which both are cut.
-/

set_option autoImplicit false

namespace CodeTidy.Notebook

open Text

/-! ### One split after the other -/

/-- Whether lines are split at the number `k` if the last split was at `p`. -/
def splitsAt (ls : List Text) (p k : Nat) : Bool :=
  match ls.drop k with
  | [] => false
  | raw :: following => splitsBefore ((ls.drop p).take (k - p)).reverse raw following

/-- The number `i` follows `p`: it is the first behind `p` at which lines are split, or the number
of lines. -/
structure IsNextBreak (ls : List Text) (p i : Nat) : Prop where
  lt : p < i
  le : i ≤ ls.length
  splits : i < ls.length → splitsAt ls p i = true
  passes : ∀ k, p < k → k < i → splitsAt ls p k = false

section

variable {ls : List Text} {p i k : Nat} {l : Text}

/-- Whether a line begins a section, by the lines since the last break and those that follow. -/
theorem splitsAt_eq (h : ls[k]? = some l) (p : Nat) :
    splitsAt ls p k = splitsBefore ((ls.drop p).take (k - p)).reverse l (ls.drop (k + 1)) := by
  obtain ⟨hk, hget⟩ := List.getElem?_eq_some_iff.mp h
  rw [splitsAt, List.drop_eq_getElem_cons hk, hget]

/-- The lines since the last split. -/
theorem length_since (hk : k ≤ ls.length) : ((ls.drop p).take (k - p)).reverse.length = k - p := by
  rw [List.length_reverse, List.length_take, List.length_drop]
  omega

/-- Why lines are split. -/
theorem SplitReason.of_splitsAt (h : splitsAt ls p k = true) (hl : ls[k]? = some l) :
    isIndented l = false ∧ SplitReason ((ls.drop p).take (k - p)).reverse l (ls.drop (k + 1)) := by
  rw [splitsAt_eq hl] at h
  exact SplitReason.of_splitsBefore h

/-- A section has more than five lines. -/
theorem distance_of_splitsAt (hk : k ≤ ls.length) (h : splitsAt ls p k = true) : p + 5 < k := by
  rcases Nat.lt_or_eq_of_le hk with hlt | rfl
  · have hfar := (SplitReason.of_splitsAt h (List.getElem?_eq_getElem hlt)).2.distance
    rw [length_since hk] at hfar
    omega
  · rw [splitsAt, List.drop_length] at h
    cases h

/-- Behind a break there is one next break. -/
theorem IsNextBreak.unique {i' : Nat} (h : IsNextBreak ls p i) (h' : IsNextBreak ls p i') :
    i = i' := by
  have hle : ∀ {i i' : Nat}, IsNextBreak ls p i → IsNextBreak ls p i' → i' ≤ i := by
    intro i i' h h'
    by_contra hlt
    have hlong := h'.le
    have hsplit := h.splits (by omega)
    rw [h'.passes i h.lt (by omega)] at hsplit
    cases hsplit
  exact Nat.le_antisymm (hle h' h) (hle h h')

/-- The walk from a line on. The lines before it are `before`, up to the last split, and those
since; at none of the latter there was a reason to split. -/
theorem isChain_breaksFrom_next {all before since ls : List Text}
    (hall : all = before ++ (since.reverse ++ ls)) (hpos : 0 < since.length + ls.length)
    (hpasses : ∀ k, before.length < k → k < before.length + since.length →
      splitsAt all before.length k = false) :
    (before.length :: breaksFrom (before.length + since.length) since ls).IsChain
      (IsNextBreak all) := by
  have hlength : all.length = before.length + since.length + ls.length := by
    rw [hall, List.length_append, List.length_append, List.length_reverse]
    omega
  induction ls generalizing before since with
  | nil =>
    rw [List.length_nil] at hpos hlength
    refine List.IsChain.cons_cons ⟨by omega, by omega, fun hlt => ?_, hpasses⟩
      (List.isChain_singleton _)
    omega
  | cons l ls ih =>
    rw [List.length_cons] at hlength
    -- What the walk asks at this line is what `splitsAt` asks.
    have hline : all[before.length + since.length]? = some l := by
      rw [hall, ← List.append_assoc, List.getElem?_append_right (by simp)]
      simp
    have hsplits : splitsAt all before.length (before.length + since.length) =
        splitsBefore since l ls := by
      have hsince : ((all.drop before.length).take since.length).reverse = since := by
        rw [hall, List.drop_left, List.take_left' List.length_reverse, List.reverse_reverse]
      have hfollowing : all.drop (before.length + since.length + 1) = ls := by
        have hfront : (before ++ since.reverse ++ [l]).length =
            before.length + since.length + 1 := by
          rw [List.length_append, List.length_append, List.length_reverse, List.length_singleton]
        rw [hall, ← List.append_assoc, List.append_cons]
        exact List.drop_left' hfront
      rw [splitsAt_eq hline, Nat.add_sub_cancel_left, hsince, hfollowing]
    rw [breaksFrom]
    split
    · next hsplit =>
      rw [hsplit] at hsplits
      have hfar := distance_of_splitsAt (by omega) hsplits
      refine List.IsChain.cons_cons ⟨by omega, by omega, fun _ => hsplits, hpasses⟩ ?_
      have hall' : all = before ++ since.reverse ++ ([l].reverse ++ ls) := by simp [hall]
      have hrest := ih hall' (by simp)
        (fun k hk hlt => by simp at hk hlt; omega) (by simp; omega)
      simpa using hrest
    · next hpass =>
      have hall' : all = before ++ ((l :: since).reverse ++ ls) := by simp [hall]
      refine ih hall' (by simp) (fun k hk hlt => ?_) (by simp; omega)
      rw [List.length_cons] at hlt
      rcases Nat.lt_or_eq_of_le (show k ≤ before.length + since.length by omega) with hlt' | rfl
      · exact hpasses k hk hlt'
      · rw [hsplits]
        exact Bool.eq_false_iff.mpr hpass

/-- The numbers follow one another. -/
theorem isChain_breakPoints_next (h : ls ≠ []) : (breakPoints ls).IsChain (IsNextBreak ls) := by
  have hpos : 0 < ([] : List Text).length + ls.length := by
    have hlength := List.length_pos_iff.mpr h
    omega
  have hall : ls = [] ++ (([] : List Text).reverse ++ ls) := rfl
  exact isChain_breaksFrom_next hall hpos fun k hk hlt => absurd hlt (by simp)

/-- Of two breaks in a row the second one is the next behind the first. -/
theorem IsNextBreak.of_consecutive (h : [p, i] <:+: breakPoints ls) (hne : ls ≠ []) :
    IsNextBreak ls p i := by
  have hchain := List.IsChain.infix (isChain_breakPoints_next hne) h
  exact List.isChain_pair.mp hchain

/-- A number other than the first follows one. -/
theorem exists_previous_break (h : i ∈ breakPoints ls) (hpos : 0 < i) :
    ∃ p, [p, i] <:+: breakPoints ls := by
  obtain ⟨before, after, heq⟩ := List.append_of_mem h
  rcases List.eq_nil_or_concat before with rfl | ⟨front, p, rfl⟩
  · -- The first number is zero.
    rw [breakPoints, List.nil_append] at heq
    rw [← (List.cons.inj heq).1] at hpos
    cases hpos
  · exact ⟨p, front, after, by rw [heq]; simp⟩

/-- A number other than the last is followed by one. -/
theorem exists_next_break (h : p ∈ breakPoints ls) (hlt : p < ls.length) :
    ∃ i, [p, i] <:+: breakPoints ls := by
  obtain ⟨before, after, heq⟩ := List.append_of_mem h
  cases after with
  | nil =>
    have hlast := getLast?_breakPoints ls
    rw [heq, List.getLast?_append_of_ne_nil _ (List.cons_ne_nil p []),
      List.getLast?_singleton] at hlast
    rw [Option.some.inj hlast] at hlt
    exact absurd hlt (Nat.lt_irrefl _)
  | cons i after => exact ⟨i, before, after, by rw [heq]; simp⟩

/-- A number is followed by the only one that can follow it. -/
theorem infix_breakPoints_iff (hp : p ∈ breakPoints ls) (hlt : p < ls.length) :
    [p, i] <:+: breakPoints ls ↔ IsNextBreak ls p i := by
  have hne : ls ≠ [] := List.ne_nil_of_length_pos (by omega)
  refine ⟨fun h => .of_consecutive h hne, fun h => ?_⟩
  obtain ⟨i', hi'⟩ := exists_next_break hp hlt
  rwa [h.unique (.of_consecutive hi' hne)]

/-- Between a number and the next one stands none. -/
theorem le_of_infix_breakPoints {q : Nat} (h : [p, i] <:+: breakPoints ls) (hne : ls ≠ [])
    (hq : q ∈ breakPoints ls) (hlt : p < q) : i ≤ q := by
  have hsorted := pairwise_breakPoints hne
  obtain ⟨before, after, heq⟩ := h
  rw [← heq, List.append_assoc] at hq hsorted
  rcases List.mem_append.mp hq with hq | hq
  · have hbefore := (List.pairwise_append.mp hsorted).2.2 q hq p (by simp)
    omega
  · have hafter := (List.pairwise_append.mp hsorted).2.1
    rw [List.cons_append, List.cons_append, List.nil_append] at hq hafter
    rcases List.mem_cons.mp hq with rfl | hq
    · exact absurd hlt (Nat.lt_irrefl q)
    · rcases List.mem_cons.mp hq with rfl | hq
      · exact Nat.le_refl q
      · exact Nat.le_of_lt (List.rel_of_pairwise_cons (List.pairwise_cons.mp hafter).2 hq)

/-- Lines are split where there is a reason to, seen from the last split in front. -/
theorem mem_breakPoints_iff (hp : p ∈ breakPoints ls) (hpi : p < i) (hi : i < ls.length)
    (hlast : ∀ q ∈ breakPoints ls, q < i → q ≤ p) :
    i ∈ breakPoints ls ↔ splitsAt ls p i = true := by
  have hne : ls ≠ [] := List.ne_nil_of_length_pos (by omega)
  constructor
  · intro hmem
    obtain ⟨p', hpair⟩ := exists_previous_break hmem (Nat.zero_lt_of_lt hpi)
    have hnext := IsNextBreak.of_consecutive hpair hne
    have hle := hlast p' (hpair.subset List.mem_cons_self) hnext.lt
    rcases Nat.lt_or_eq_of_le hle with hlt | rfl
    · have hafter := le_of_infix_breakPoints hpair hne hp hlt
      omega
    · exact hnext.splits hi
  · intro hsplits
    have hpasses : ∀ k, p < k → k < i → splitsAt ls p k = false := by
      intro k
      induction k using Nat.strongRecOn with
      | ind k ih =>
        intro hpk hki
        rw [Bool.eq_false_iff]
        intro hsplit
        -- It would be the number that follows.
        have hnext : IsNextBreak ls p k :=
          ⟨hpk, by omega, fun _ => hsplit, fun m hpm hmk => ih m hmk hpm (by omega)⟩
        have hpair := (infix_breakPoints_iff hp (by omega)).mpr hnext
        have hle := hlast k (hpair.subset (by simp)) hki
        omega
    have hpair := (infix_breakPoints_iff hp (by omega)).mpr
      ⟨hpi, Nat.le_of_lt hi, fun _ => hsplits, hpasses⟩
    exact hpair.subset (by simp)

end

/-! ### Decorators and clauses -/

/-- Whether the line begins with a decorator. -/
def isDecorator (l : Text) : Bool := startsWith l "@"

/-- The keywords that begin a further clause of a statement. -/
def clauseWords : List Text := ["else", "elif", "except", "finally"]

/-- Whether the line begins with one of these keywords, and not with a longer name. -/
def beginsClause (l : Text) : Bool :=
  clauseWords.any fun w => startsWith l w && !(l.drop w.length).head?.any isWord

/-- The lines from number `j` up to `i` hold nothing. -/
def AreBlank (ls : List Text) (j i : Nat) : Prop :=
  ∀ k l, j ≤ k → k < i → ls[k]? = some l → allBlank l = true

/-- The line at number `j` is a decorator, and a split at `i` cuts it off: it is the last line in
front of `i` that holds something. -/
structure IsCutOff (ls : List Text) (j i : Nat) : Prop where
  lt : j < i
  decorator : ∃ l, ls[j]? = some l ∧ isDecorator l = true
  blank : AreBlank ls (j + 1) i

/-- A split at `i` cuts a clause off: the first line from `i` on that holds something begins one. -/
def CutsClause (ls : List Text) (i : Nat) : Prop :=
  ∃ j l, i ≤ j ∧ AreBlank ls i j ∧ ls[j]? = some l ∧ beginsClause l = true

/-- No split but the first and the last cuts off a decorator or a clause. -/
def KeepsConstructs (ls : List Text) : Prop :=
  ∀ i ∈ breakPoints ls, 0 < i → i < ls.length → (∀ j, ¬IsCutOff ls j i) ∧ ¬CutsClause ls i

section

variable {ls : List Text} {p i j k : Nat} {l : Text}

/-- A line that begins with something visible begins with the same when it is trimmed. -/
theorem startsWith_trim {w : Text} (hw : w ≠ []) (hvisible : w.all (fun c => !isBlank c) = true)
    (h : startsWith l w = true) : startsWith (trim l) w = true := by
  rw [startsWith, List.isPrefixOf_iff_prefix] at h ⊢
  obtain ⟨s, s', hl, hs, hs'⟩ := exists_blanks_around l
  obtain ⟨c, w, rfl⟩ := List.exists_cons_of_ne_nil hw
  have hfront : s = [] := by
    cases s with
    | nil => rfl
    | cons d s =>
      -- The first character would be blank and visible.
      rw [hl, List.cons_append, List.cons_prefix_cons] at h
      rw [List.all_cons, Bool.and_eq_true, Bool.not_eq_true'] at hvisible
      rw [List.all_cons, Bool.and_eq_true, ← h.1, hvisible.1] at hs
      cases hs.1
  rw [hl, hfront, List.nil_append] at h
  rcases List.prefix_or_prefix_of_prefix h (List.prefix_append (trim l) s') with hprefix | hprefix
  · exact hprefix
  · obtain ⟨z, hz⟩ := hprefix
    rw [← hz, List.prefix_append_right_inj] at h
    cases z with
    | nil => rw [← hz, List.append_nil]
    | cons d z =>
      have hblank := List.all_eq_true.mp hs' d (h.subset List.mem_cons_self)
      have hd := List.all_eq_true.mp hvisible d (hz ▸ by simp)
      rw [hblank] at hd
      cases hd

/-- A line that begins with a visible character is not indented. -/
theorem isIndented_of_startsWith {c : Char} {w : Text} (h : startsWith l (c :: w) = true)
    (hc : isIndent c = false) : isIndented l = false := by
  rw [startsWith, List.isPrefixOf_iff_prefix] at h
  obtain ⟨r, rfl⟩ := h
  exact hc

/-- Lines are split before a definition that stands far enough from the last split. -/
theorem splitsAt_definition (hl : ls[k]? = some l) (hleft : isIndented l = false)
    (hword : startsWithAny (trim l) definitionWords = true) (hfar : p + 5 < k) :
    splitsAt ls p k = true := by
  obtain ⟨hk, -⟩ := List.getElem?_eq_some_iff.mp hl
  rw [splitsAt_eq hl, splitsBefore, if_neg (by rw [hleft]; decide), if_pos hword,
    length_since (Nat.le_of_lt hk)]
  exact decide_eq_true (by omega)

/-- A decorator is a line without indentation that begins a definition. -/
theorem definition_of_decorator (h : isDecorator l = true) :
    isIndented l = false ∧ startsWithAny (trim l) definitionWords = true := by
  refine ⟨isIndented_of_startsWith h rfl, ?_⟩
  have htrim : startsWith (trim l) "@" = true := startsWith_trim (by decide) (by decide) h
  exact List.any_eq_true.mpr ⟨"@".toList, by decide, htrim⟩

/-- A decorator that is cut off was too near to the last split for a split of its own. -/
theorem IsCutOff.le_of_next (h : IsCutOff ls j i) (hnext : IsNextBreak ls p i) : j ≤ p + 5 := by
  by_contra hfar
  obtain ⟨l, hl, hdecorator⟩ := h.decorator
  obtain ⟨hleft, hword⟩ := definition_of_decorator hdecorator
  have hsplit := splitsAt_definition hl hleft hword (show p + 5 < j by omega)
  rw [hnext.passes j (by omega) h.lt] at hsplit
  cases hsplit

/-- The words that begin a clause begin neither a definition nor a comment. -/
theorem clauseWords_spec : ∀ w ∈ clauseWords, w ≠ [] ∧ w.all (fun c => !isBlank c) = true ∧
    ∀ w' ∈ "# ".toList :: definitionWords, ¬w <+: w' ∧ ¬w' <+: w := by
  decide

/-- A clause that goes on a statement begins no definition and is no comment. -/
theorem not_startsWith_of_beginsClause (h : beginsClause l = true) :
    ∀ w' ∈ "# ".toList :: definitionWords, startsWith (trim l) w' = false := by
  intro w' hw'
  obtain ⟨w, hw, hbegins⟩ := List.any_eq_true.mp h
  obtain ⟨hne, hvisible, hother⟩ := clauseWords_spec w hw
  rw [Bool.and_eq_true] at hbegins
  have htrim := startsWith_trim hne hvisible hbegins.1
  rw [startsWith, List.isPrefixOf_iff_prefix] at htrim
  rw [Bool.eq_false_iff, Ne, startsWith, List.isPrefixOf_iff_prefix]
  intro hprefix
  rcases List.prefix_or_prefix_of_prefix htrim hprefix with hle | hle
  · exact (hother w' hw').1 hle
  · exact (hother w' hw').2 hle

/-- A clause is cut off only by a split at a blank line, far behind the last one. -/
theorem CutsClause.blank_of_next (h : CutsClause ls i) (hnext : IsNextBreak ls p i)
    (hlt : i < ls.length) : p + 15 < i ∧ ∃ l, ls[i]? = some l ∧ allBlank l = true := by
  obtain ⟨j, clause, hij, hblank, hj, hclause⟩ := h
  have hi := List.getElem?_eq_getElem hlt
  obtain ⟨-, hreason⟩ := SplitReason.of_splitsAt (hnext.splits hlt) hi
  -- The line at `i` is the clause itself or a blank line in front of it.
  have hline : allBlank ls[i] = true ∨ beginsClause ls[i] = true := by
    rcases Nat.eq_or_lt_of_le hij with rfl | hij
    · rw [hi, Option.some.injEq] at hj
      exact .inr (hj ▸ hclause)
    · exact .inl (hblank i _ (Nat.le_refl i) hij hi)
  have hplain : ∀ w ∈ "# ".toList :: definitionWords, startsWith (trim ls[i]) w = false := by
    rcases hline with hline | hline
    · intro w hw
      have htrim : trim ls[i] = [] := dropAroundWhile_eq_nil_iff.mpr (List.all_eq_true.mp hline)
      rw [htrim]
      revert w
      decide
    · exact not_startsWith_of_beginsClause hline
  cases hreason with
  | definition hword _ =>
    obtain ⟨w, hw, hbegins⟩ := List.any_eq_true.mp hword
    rw [hplain w (List.mem_cons_of_mem _ hw)] at hbegins
    cases hbegins
  | comment hmark _ =>
    rw [hplain _ List.mem_cons_self] at hmark
    cases hmark
  | blank hblank hfar _ _ =>
    rw [length_since (Nat.le_of_lt hlt)] at hfar
    exact ⟨by omega, _, hi, hblank⟩

/-- What begins a clause is visible, and not indented. -/
theorem visible_of_beginsClause (h : beginsClause l = true) :
    allBlank l = false ∧ isIndented l = false := by
  obtain ⟨w, hw, hbegins⟩ := List.any_eq_true.mp h
  rw [Bool.and_eq_true, startsWith, List.isPrefixOf_iff_prefix] at hbegins
  obtain ⟨⟨r, rfl⟩, -⟩ := hbegins
  have hfirst : ∀ w ∈ clauseWords, w ≠ [] ∧ w.all isBlank = false ∧ isIndented w = false := by
    decide
  obtain ⟨hne, hvisible, hleft⟩ := hfirst w hw
  constructor
  · rw [allBlank, List.all_append, hvisible]
    rfl
  · rw [isIndented, List.head?_append_of_ne_nil _ hne]
    exact hleft

/-- Behind a blank line in front of a clause, the first visible line begins the clause. -/
theorem CutsClause.exists_find? (h : CutsClause ls i) (hl : ls[i]? = some l)
    (hblank : allBlank l = true) :
    ∃ clause, (ls.drop (i + 1)).find? (fun l => !allBlank l) = some clause ∧
      isIndented clause = false := by
  obtain ⟨j, clause, hij, hblanks, hj, hclause⟩ := h
  obtain ⟨hvisible, hleft⟩ := visible_of_beginsClause hclause
  -- The clause is visible, so it comes later.
  have hne : i ≠ j := by
    rintro rfl
    rw [hl, Option.some.injEq] at hj
    rw [hj, hvisible] at hblank
    cases hblank
  obtain ⟨hlt, hget⟩ := List.getElem?_eq_some_iff.mp hj
  refine ⟨clause,
    List.find?_eq_some_iff_getElem.mpr ⟨by rw [hvisible]; rfl, j - (i + 1), ?_, ?_, ?_⟩, hleft⟩
  · rw [List.length_drop]
    omega
  · rw [List.getElem_drop, ← hget]
    congr 1
    omega
  · -- Between the two lines all are blank.
    intro k hk
    have hbetween := hblanks (i + 1 + k) _ (by omega) (by omega)
      (List.getElem?_eq_getElem (by omega))
    rw [List.getElem_drop, hbetween]
    rfl

/-- A blank line is split at if it is far enough from the last split, there is code in between, and
what comes behind it is not indented. -/
theorem splitsBefore_blank_iff {since following : List Text} {raw next : Text}
    (hleft : isIndented raw = false) (hblank : allBlank raw = true)
    (hnext : following.find? (fun l => !allBlank l) = some next)
    (hnextLeft : isIndented next = false) :
    splitsBefore since raw following = true ↔
      15 < since.length ∧ ∃ l ∈ since, allBlank l = false ∧ isComment l = false := by
  have htrim : trim raw = [] := dropAroundWhile_eq_nil_iff.mpr (List.all_eq_true.mp hblank)
  have hword : startsWithAny [] definitionWords = false := by decide
  have hmark : startsWith [] "# " = false := by decide
  simp only [splitsBefore, hleft, htrim, hword, hmark, hnext, Option.getD_some, hnextLeft]
  simp

/-- The lines since the last break, by their positions. -/
theorem mem_since_iff {m : Text} : m ∈ ((ls.drop p).take (k - p)).reverse ↔
    ∃ j, p ≤ j ∧ j < k ∧ ls[j]? = some m := by
  rw [List.mem_reverse, List.mem_iff_getElem?]
  constructor
  · rintro ⟨n, hn⟩
    rw [List.getElem?_take, List.getElem?_drop] at hn
    split at hn
    · exact ⟨p + n, by omega, by omega, hn⟩
    · cases hn
  · rintro ⟨j, hpj, hjk, hj⟩
    refine ⟨j - p, ?_⟩
    rw [List.getElem?_take, if_pos (by omega), List.getElem?_drop, Nat.add_sub_cancel' hpj, hj]

/-- At a blank line in front of a clause, lines are split if it is far enough from the last split,
and there is code in between. -/
theorem splitsAt_clause_iff (h : CutsClause ls i) (hl : ls[i]? = some l)
    (hleft : isIndented l = false) (hblank : allBlank l = true) :
    splitsAt ls p i = true ↔ p + 15 < i ∧ ∃ k m, p ≤ k ∧ k < i ∧ ls[k]? = some m ∧
      allBlank m = false ∧ isComment m = false := by
  obtain ⟨clause, hfind, hclause⟩ := h.exists_find? hl hblank
  obtain ⟨hi, -⟩ := List.getElem?_eq_some_iff.mp hl
  rw [splitsAt_eq hl, splitsBefore_blank_iff hleft hblank hfind hclause,
    length_since (Nat.le_of_lt hi)]
  refine and_congr (by omega) ?_
  constructor
  · rintro ⟨m, hm, hcode⟩
    obtain ⟨k, hpk, hki, hk⟩ := mem_since_iff.mp hm
    exact ⟨k, m, hpk, hki, hk, hcode⟩
  · rintro ⟨k, m, hpk, hki, hk, hcode⟩
    exact ⟨m, mem_since_iff.mpr ⟨k, hpk, hki, hk⟩, hcode⟩

/-- Right behind a decorator, lines are split only if it stands five lines behind the last split,
and only before a definition. -/
theorem IsNextBreak.behind_decorator {d : Text} (hnext : IsNextBreak ls p (j + 1))
    (hd : ls[j]? = some d) (hdecorator : isDecorator d = true) (hl : ls[j + 1]? = some l) :
    j = p + 5 ∧ isIndented l = false ∧ startsWithAny (trim l) definitionWords = true := by
  obtain ⟨hlt, -⟩ := List.getElem?_eq_some_iff.mp hl
  have hcut : IsCutOff ls j (j + 1) :=
    ⟨Nat.lt_succ_self j, ⟨d, hd, hdecorator⟩, fun k _ hk hk' => absurd hk' (by omega)⟩
  have hnear := hcut.le_of_next hnext
  have hfar := distance_of_splitsAt (Nat.le_of_lt hlt) (hnext.splits hlt)
  obtain ⟨hleft, hreason⟩ := SplitReason.of_splitsAt (hnext.splits hlt) hl
  refine ⟨by omega, hleft, ?_⟩
  -- The other reasons ask for a greater distance.
  have hsince := length_since (p := p) (Nat.le_of_lt hlt)
  cases hreason with
  | definition hword _ => exact hword
  | comment _ hfar' => omega
  | blank _ hfar' _ _ => omega

/-- There they are split. -/
theorem isNextBreak_behind_decorator (hl : ls[p + 6]? = some l) (hleft : isIndented l = false)
    (hword : startsWithAny (trim l) definitionWords = true) : IsNextBreak ls p (p + 6) := by
  obtain ⟨hlt, -⟩ := List.getElem?_eq_some_iff.mp hl
  refine ⟨by omega, Nat.le_of_lt hlt, fun _ => ?_, fun k _ hk => ?_⟩
  · exact splitsAt_definition hl hleft hword (Nat.lt_succ_self _)
  · rw [Bool.eq_false_iff]
    intro hsplit
    have hfar := distance_of_splitsAt (show k ≤ ls.length by omega) hsplit
    omega

end

/-! ### What is kept -/

/-- No split cuts off a decorator or a clause, unless a decorator at most five lines behind the
last split is followed by blank lines only up to the next one, or the line of a split is blank,
more than fifteen lines behind the last one, and a clause comes next. Both happen: a decorator is
cut off from the line right behind it exactly if it stands five lines behind a split and that line
begins a definition, and a clause from the blank line in front of it exactly if that line stands
more than fifteen lines behind the last split and there is code in between. -/
theorem keepsConstructs_iff (ls : List Text) :
    (KeepsConstructs ls ↔ ∀ p i, [p, i] <:+: breakPoints ls → i < ls.length →
      (∀ j ≤ p + 5, ¬IsCutOff ls j i) ∧
        (p + 15 < i → (∃ l, ls[i]? = some l ∧ allBlank l = true) → ¬CutsClause ls i)) ∧
    (∀ p ∈ breakPoints ls, ∀ j d l, ls[j]? = some d → isDecorator d = true → ls[j + 1]? = some l →
      ([p, j + 1] <:+: breakPoints ls ↔
        j = p + 5 ∧ isIndented l = false ∧ startsWithAny (trim l) definitionWords = true)) ∧
    ∀ p ∈ breakPoints ls, ∀ i l, p < i → (∀ q ∈ breakPoints ls, q < i → q ≤ p) →
      ls[i]? = some l → allBlank l = true → CutsClause ls i →
      (i ∈ breakPoints ls ↔ isIndented l = false ∧ p + 15 < i ∧
        ∃ k m, p ≤ k ∧ k < i ∧ ls[k]? = some m ∧ allBlank m = false ∧ isComment m = false) := by
  have hnonempty : ∀ {k : Nat}, k < ls.length → ls ≠ [] := fun hlt =>
    List.ne_nil_of_length_pos (by omega)
  refine ⟨⟨fun hkeeps p i hpair hlt => ?_, fun h i hi hpos hlt => ?_⟩, ?_, ?_⟩
  · have hnext := IsNextBreak.of_consecutive hpair (hnonempty hlt)
    have hmem : i ∈ breakPoints ls := hpair.subset (by simp)
    obtain ⟨hdecorators, hclause⟩ := hkeeps i hmem (Nat.zero_lt_of_lt hnext.lt) hlt
    exact ⟨fun j _ => hdecorators j, fun _ _ => hclause⟩
  · -- What is cut at all is cut in one of the two ways.
    obtain ⟨p, hpair⟩ := exists_previous_break hi hpos
    have hnext := IsNextBreak.of_consecutive hpair (hnonempty hlt)
    obtain ⟨hdecorators, hclause⟩ := h p i hpair hlt
    refine ⟨fun j hcut => hdecorators j (hcut.le_of_next hnext) hcut, fun hcut => ?_⟩
    obtain ⟨hfar, hblank⟩ := hcut.blank_of_next hnext hlt
    exact hclause hfar hblank hcut
  · intro p hp j d l hd hdecorator hl
    obtain ⟨hlt, -⟩ := List.getElem?_eq_some_iff.mp hl
    constructor
    · intro hpair
      exact (IsNextBreak.of_consecutive hpair (hnonempty hlt)).behind_decorator hd hdecorator hl
    · rintro ⟨rfl, hleft, hword⟩
      exact (infix_breakPoints_iff hp (by omega)).mpr
        (isNextBreak_behind_decorator hl hleft hword)
  · intro p hp i l hpi hlast hl hblank hcut
    obtain ⟨hlt, -⟩ := List.getElem?_eq_some_iff.mp hl
    rw [mem_breakPoints_iff hp hpi hlt hlast]
    constructor
    · intro hsplits
      have hleft := (SplitReason.of_splitsAt hsplits hl).1
      exact ⟨hleft, (splitsAt_clause_iff hcut hl hleft hblank).mp hsplits⟩
    · rintro ⟨hleft, hreason⟩
      exact (splitsAt_clause_iff hcut hl hleft hblank).mpr hreason

/-- Lines with a decorator five lines behind the start, and with a statement of two clauses. -/
def cachingLines : List Text :=
  (["import os", "import sys", "", "rows = {}", "", "@cached", "def load(name):",
    "    return rows[name]", "", "try:"] : List Text) ++
    List.replicate 12 "    keep(load(name))".toList ++
    (["", "except OSError:", "    pass"] : List Text)

/-- The breaks of the lines. -/
theorem breakPoints_cachingLines : breakPoints cachingLines = [0, 6, 22, 25] := by decide +kernel

/-- The third break cuts a clause from its statement. -/
theorem cutsClause_cachingLines : CutsClause cachingLines 22 := by
  refine ⟨23, "except OSError:".toList, by decide, fun k l hk hk' hl => ?_, rfl, by decide⟩
  obtain rfl : k = 22 := by omega
  rw [← Option.some.inj (show some [] = some l from hl)]
  rfl

/-- The theorem at these lines: the decorator is cut off from its function, and the second clause
from the statement. -/
theorem keepsConstructs_iff_caching :
    0 ∈ breakPoints cachingLines ∧ [0, 6] <:+: breakPoints cachingLines ∧
      6 ∈ breakPoints cachingLines ∧ CutsClause cachingLines 22 ∧
      22 ∈ breakPoints cachingLines := by
  obtain ⟨-, hdecorator, hclause⟩ := keepsConstructs_iff cachingLines
  have hmem : 0 ∈ breakPoints cachingLines := List.mem_cons_self
  have hmem' : 6 ∈ breakPoints cachingLines := by
    rw [breakPoints_cachingLines]
    decide
  have hlast : ∀ q ∈ breakPoints cachingLines, q < 22 → q ≤ 6 := by
    rw [breakPoints_cachingLines]
    decide
  refine ⟨hmem, ?_, hmem', cutsClause_cachingLines, ?_⟩
  · refine (hdecorator 0 hmem 5 "@cached" "def load(name):" rfl (by decide) rfl).mpr ⟨rfl, ?_⟩
    decide
  · refine (hclause 6 hmem' 22 [] (by decide) hlast rfl rfl cutsClause_cachingLines).mpr ?_
    exact ⟨rfl, by decide, 6, "def load(name):", by decide, by decide, rfl, by decide, by decide⟩

/-- A split may cut off a decorator from its function, and a clause from its statement. -/
theorem breakPoints_cuts_constructs :
    breakPoints cachingLines = [0, 6, 22, 25] ∧ cachingLines.length = 25 ∧
      IsCutOff cachingLines 5 6 ∧ CutsClause cachingLines 22 ∧ ¬KeepsConstructs cachingLines := by
  have hcut : IsCutOff cachingLines 5 6 :=
    ⟨by decide, ⟨"@cached".toList, rfl, by decide⟩, fun k _ hk hk' => absurd hk' (by omega)⟩
  refine ⟨breakPoints_cachingLines, by decide, hcut, cutsClause_cachingLines, fun hkeeps => ?_⟩
  have hmem : 6 ∈ breakPoints cachingLines := by
    rw [breakPoints_cachingLines]
    decide
  exact (hkeeps 6 hmem (by decide) (by decide)).1 5 hcut

end CodeTidy.Notebook
