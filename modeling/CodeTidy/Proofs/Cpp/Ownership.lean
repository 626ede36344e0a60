import CodeTidy.Proofs.Cpp.Pairing
import Mathlib.Data.Finset.Basic

/-!
# `CodeTidy.Proofs.Cpp.Ownership`: when the right `delete` goes away

A declaration and the `delete` of its pointer belong together if the `delete` is the
first one of that name behind the declaration and no other declaration of the name
stands between them. `Paired` relates lines to the texts in which some declarations are
unique pointers and just the lines that belong to them are gone.

The rule takes the first declarations of each name and the first lines that give it up,
so all is well if a pointer of the name is made, given up, made again and so on. It is
the other way round too: once a line has gone away that belongs to no declaration in
front of it, no later step makes up for that. The theorems:

* `paired_settled`: if the lines take turns, just the right ones go away.
* `not_paired_behind`: nothing makes up for a line that has been taken too early.
* `balanced_of_paired`: if just the right lines go away, they take turns. Each kind
  of line has its lemma in `Forces`.
* `makePointersUnique_paired_iff`: what the rule makes of a text is as it should be exactly if the
  lines take turns.
-/

set_option autoImplicit false

namespace CodeTidy.Cpp

open Pattern Text

/-! ### Declarations and the lines that belong to them -/

/-- The text of some lines with declarations rewritten that a line gives up: the first one behind
the declaration that gives up a pointer of its name, in front of the next declaration of that name.
Just these lines are gone. The pointers of the names `awaited` are still to be given up. -/
inductive Paired : (awaited : Finset Text) → List Line → Text → Prop where
  | nil : Paired ∅ [] []
  | kept {awaited : Finset Text} {ls : List Line} {t : Text} (m : Match) (behind : Text)
      (free : m.group 3 ∉ awaited) (rest : Paired awaited ls t) :
      Paired awaited (.declaration m behind :: ls) (m.text ++ behind ++ t)
  | rewritten {awaited : Finset Text} {ls : List Line} {t : Text} (m : Match) (behind : Text)
      (free : m.group 3 ∉ awaited) (rest : Paired (insert (m.group 3) awaited) ls t) :
      Paired awaited (.declaration m behind :: ls) (uniquePointer m ++ behind ++ t)
  | left {awaited : Finset Text} {ls : List Line} {t : Text} (n line : Text) (free : n ∉ awaited)
      (rest : Paired awaited ls t) : Paired awaited (.deletion n line :: ls) (line ++ t)
  | gone {awaited : Finset Text} {ls : List Line} {t : Text} (n line : Text) (due : n ∈ awaited)
      (rest : Paired (awaited.erase n) ls t) : Paired awaited (.deletion n line :: ls) t
  | other {awaited : Finset Text} {ls : List Line} {t : Text} (line : Text)
      (rest : Paired awaited ls t) : Paired awaited (.other line :: ls) (line ++ t)

/-- The pointer is made and given up some times, and then only made, or only given up. -/
inductive Turns : (times : Nat) → List Event → Prop where
  | rest (e : Event) (j : Nat) : Turns 0 (List.replicate j e)
  | pair {k : Nat} {es : List Event} (h : Turns k es) : Turns (k + 1) (.made :: .gone :: es)

section

variable {es : List Event} {k : Nat}

/-- In turns, a pointer is made and given up the same number of times, up to what is left. -/
theorem Turns.min_eq (h : Turns k es) : min (es.count .made) (es.count .gone) = k := by
  induction h with
  | rest e j => cases e <;> simp [List.count_replicate]
  | pair h ih => simpa using ih

/-- If nothing is given up any more, or nothing is made, there are no turns. -/
theorem turns_zero {e : Event} (h : ∀ a ∈ es, a = e) : Turns 0 es := by
  rw [List.eq_replicate_of_mem h]
  exact .rest e es.length

/-- A pointer is only made from here on if it is not given up any more. -/
theorem turns_made_of_count (h : es.count .gone = 0) : Turns 0 (.made :: es) := by
  refine turns_zero (List.forall_mem_cons.mpr ⟨rfl, fun e he => ?_⟩)
  cases e with
  | made => rfl
  | gone => exact absurd he (List.count_eq_zero.mp h)

/-- It is only given up if it is not made any more. -/
theorem turns_gone_of_count (h : es.count .made = 0) : Turns 0 (.gone :: es) := by
  refine turns_zero (List.forall_mem_cons.mpr ⟨rfl, fun e he => ?_⟩)
  cases e with
  | made => exact absurd he (List.count_eq_zero.mp h)
  | gone => rfl

/-- Turns that begin with a pointer that is made: it is given up next, or never again. -/
theorem turns_made_iff : Turns k (.made :: es) ↔
    k = 0 ∧ (∀ a ∈ es, a = .made) ∨ ∃ k' es', k = k' + 1 ∧ es = .gone :: es' ∧ Turns k' es' := by
  constructor
  · intro h
    generalize hes : Event.made :: es = es' at h
    cases h with
    | rest e j =>
      have hall : ∀ a ∈ Event.made :: es, a = e := fun a ha => List.eq_of_mem_replicate (hes ▸ ha)
      obtain ⟨rfl, hall⟩ := List.forall_mem_cons.mp hall
      exact .inl ⟨rfl, hall⟩
    | @pair k' es' h =>
      obtain ⟨-, rfl⟩ := List.cons.inj hes
      exact .inr ⟨k', es', rfl, rfl, h⟩
  · rintro (⟨rfl, hall⟩ | ⟨k', es', rfl, rfl, h⟩)
    · exact turns_zero (List.forall_mem_cons.mpr ⟨rfl, hall⟩)
    · exact .pair h

/-- Turns that begin with a pointer that is given up: no pointer is made. -/
theorem turns_gone_iff : Turns k (.gone :: es) ↔ k = 0 ∧ ∀ a ∈ es, a = .gone := by
  constructor
  · intro h
    generalize hes : Event.gone :: es = es' at h
    cases h with
    | rest e j =>
      have hall : ∀ a ∈ Event.gone :: es, a = e := fun a ha => List.eq_of_mem_replicate (hes ▸ ha)
      obtain ⟨rfl, hall⟩ := List.forall_mem_cons.mp hall
      exact ⟨rfl, hall⟩
    | pair h => cases hes
  · rintro ⟨rfl, hall⟩
    exact turns_zero (List.forall_mem_cons.mpr ⟨rfl, hall⟩)

end

/-! ### Turns are enough -/

section

variable {ls : List Line} {awaited : Finset Text} {made gone : Budget} {t : Text}

/-- What holds for one name and for all others holds for every name. -/
theorem forall_of_ne {P : Text → Prop} (n : Text) (h : P n) (hothers : ∀ n', n' ≠ n → P n') :
    ∀ n', P n' := by
  intro n'
  by_cases hname : n' = n
  · exact hname ▸ h
  · exact hothers n' hname

/-- What is left to be done for a name fits its turns: as many declarations and lines are to be
taken, and one line more if it is awaited. -/
def Fits (isAwaited : Prop) (made gone : Nat) (es : List Event) : Prop :=
  (isAwaited → gone = made + 1 ∧ ∃ es', es = .gone :: es' ∧ Turns made es') ∧
    (¬isAwaited → gone = made ∧ Turns made es)

/-- What is left to be done fits for each name. -/
def Balanced (awaited : Finset Text) (made gone : Budget) (ls : List Line) : Prop :=
  ∀ n, Fits (n ∈ awaited) (made n) (gone n) (events n ls)

/-- If the lines take turns, each line that goes away is the right one. -/
theorem paired_settled (h : Balanced awaited made gone ls) :
    Paired awaited ls (settled made gone ls) := by
  induction ls generalizing awaited made gone with
  | nil =>
    have hnone : awaited = ∅ := by
      refine Finset.eq_empty_of_forall_notMem fun n hn => ?_
      obtain ⟨-, es, hes, -⟩ := (h n).1 hn
      cases hes
    rw [hnone]
    exact .nil
  | cons l ls ih =>
    cases l with
    -- A name whose declaration is rewritten is awaited from then on; others keep what is known of
    -- them.
    | declaration m behind =>
      obtain ⟨hself, hothers⟩ := forall_events_declaration.mp h
      have hfree : m.group 3 ∉ awaited := fun hmem => by
        obtain ⟨-, es, hes, -⟩ := hself.1 hmem
        cases hes
      obtain ⟨hgone, hturns⟩ := hself.2 hfree
      rw [turns_made_iff] at hturns
      rw [settled]
      rcases hturns with ⟨hzero, hall⟩ | ⟨k, es, hmade, hes, hturns⟩
      · rw [if_pos hzero]
        refine .kept m behind hfree
          (ih (forall_of_ne (m.group 3) ⟨?_, fun _ => ⟨hgone, ?_⟩⟩ hothers))
        · exact fun hmem => absurd hmem hfree
        · exact hzero ▸ turns_zero hall
      · rw [if_neg (by omega)]
        refine .rewritten m behind hfree (ih (forall_of_ne (m.group 3) ⟨fun _ => ?_, ?_⟩ ?_))
        · rw [Budget.less_self]
          exact ⟨by omega, es, hes, by rwa [hmade, Nat.add_sub_cancel]⟩
        · exact fun hnot => absurd (Finset.mem_insert_self _ _) hnot
        · intro n hne
          simpa [hne, Budget.less_of_ne hne] using hothers n hne
    | deletion n line =>
      obtain ⟨hself, hothers⟩ := forall_events_deletion.mp h
      rw [settled]
      -- A line whose pointer is awaited goes away. Any other one is left, and then none is to go.
      by_cases hdue : n ∈ awaited
      · obtain ⟨hgone, es, hes, hturns⟩ := hself.1 hdue
        obtain ⟨-, rfl⟩ := List.cons.inj hes
        rw [if_neg (by omega)]
        refine .gone n line hdue (ih (forall_of_ne n ⟨?_, fun _ => ⟨?_, hturns⟩⟩ ?_))
        · exact fun hmem => absurd hmem (Finset.notMem_erase _ _)
        · rw [Budget.less_self]
          omega
        · intro n' hne
          simpa [hne, Budget.less_of_ne hne] using hothers n' hne
      · obtain ⟨hgone, hturns⟩ := hself.2 hdue
        obtain ⟨hzero, hall⟩ := turns_gone_iff.mp hturns
        rw [if_pos (by omega)]
        refine .left n line hdue (ih (forall_of_ne n ⟨?_, fun _ => ⟨hgone, ?_⟩⟩ hothers))
        · exact fun hmem => absurd hmem hdue
        · exact hzero ▸ turns_zero hall
    | other line => exact .other line (ih h)

/-! ### Without turns it goes wrong -/

/-- Where there is no line there is no text. -/
theorem Paired.eq_nil (h : Paired awaited ls t) (hls : ls = []) : t = [] := by
  subst hls
  cases h
  rfl

/-- A line that gives up a pointer, with its line feed. -/
def IsOwed (l : Text) : Prop := ∃ n y, IsDeletion n l ∧ l = y ++ ['\n'] ∧ '\n' ∉ y

/-- A line that gives up a pointer is told from the rest by its line feed. -/
theorem IsOwed.append_inj {l l' r r' : Text} (h : IsOwed l) (h' : IsOwed l')
    (heq : l ++ r = l' ++ r') : l = l' ∧ r = r' := by
  obtain ⟨n, y, -, rfl, hy⟩ := h
  obtain ⟨n', y', -, rfl, hy'⟩ := h'
  rw [List.append_assoc, List.append_assoc] at heq
  have hfirst {y : Text} (hy : '\n' ∉ y) : y.all (CharSet.except "\n") = true :=
    all_except_iff.mpr (List.forall_mem_singleton.mpr hy)
  obtain ⟨rfl, -, rfl⟩ := eq_of_first (hfirst hy) (hfirst hy') (by decide) (by decide) heq
  exact ⟨rfl, rfl⟩

/-- A line that gives up a pointer has its line feed if others come behind. -/
theorem Arranged.isOwed {n line : Text} (h : Arranged (.deletion n line :: ls)) (hls : ls ≠ []) :
    IsOwed line := by
  have hend : line.getLast? = some '\n' :=
    h.areLines.2.1.resolve_right fun hnil => hls (List.map_eq_nil_iff.mp hnil)
  exact ⟨n, line.dropLast, h.deletes n line (.head _), (List.dropLast_append_getLast? _ hend).symm,
    h.areLines.1⟩

/-- No line that gives up a pointer comes where a declaration does, rewritten or not. -/
theorem Arranged.not_begins_settled {n d behind : Text} {m : Match}
    (h : Arranged (.declaration m behind :: ls)) (hd : IsDeletion n d) :
    ¬d <+: settled made gone (.declaration m behind :: ls) := by
  rw [settled]
  split
  · exact (h.not_begins hd).1
  · exact (h.not_begins hd).2

/-- A line that gives up a pointer makes none. -/
theorem exists_made_of_deletion {n line : Text}
    (h : ∃ n', .made ∈ events n' (.deletion n line :: ls)) : ∃ n', .made ∈ events n' ls := by
  obtain ⟨n', hmem⟩ := h
  rw [events_deletion] at hmem
  split at hmem
  · exact ⟨n', by simpa using hmem⟩
  · exact ⟨n', hmem⟩

/-- The rule cannot make up for a line that it has taken too early: while such lines are owed,
nothing but lines that give up pointers can come next, and so the next declaration cannot. -/
theorem not_paired_behind {owed : List Text} (h : Paired awaited ls t) (hls : Arranged ls)
    (hne : owed ≠ []) (howed : ∀ l ∈ owed, IsOwed l)
    (heq : owed.flatten ++ t = settled made gone ls) (hdue : ∀ n ∈ awaited, 0 < gone n)
    (hmore : ∃ n, .made ∈ events n ls) : False := by
  -- What is owed comes first in what the rule leaves, and it is a line that gives up a pointer.
  have hfirst {owed : List Text} {t s : Text} (hne : owed ≠ []) (howed : ∀ l ∈ owed, IsOwed l)
      (heq : owed.flatten ++ t = s) : ∃ n l, IsDeletion n l ∧ l <+: s := by
    obtain ⟨l, owed, rfl⟩ := List.exists_cons_of_ne_nil hne
    obtain ⟨n, -, hl, -⟩ := howed l (.head _)
    exact ⟨n, l, hl, owed.flatten ++ t, by simp [← heq]⟩
  induction h generalizing owed made gone with
  | nil =>
    obtain ⟨n, hmem⟩ := hmore
    cases hmem
  | kept m behind =>
    obtain ⟨n, l, hl, hbegins⟩ := hfirst hne howed heq
    exact hls.not_begins_settled hl hbegins
  | rewritten m behind =>
    obtain ⟨n, l, hl, hbegins⟩ := hfirst hne howed heq
    exact hls.not_begins_settled hl hbegins
  | @left awaited ls t n line free rest ih =>
    have hmore' := exists_made_of_deletion hmore
    have hline : IsOwed line := hls.isOwed fun hnil => by
      obtain ⟨n', hmem⟩ := hmore'
      rw [hnil] at hmem
      cases hmem
    have howed' : ∀ l ∈ owed ++ [line], IsOwed l := by
      simp only [List.forall_mem_append, List.forall_mem_singleton]
      exact ⟨howed, hline⟩
    rw [settled] at heq
    split at heq
    · -- The rule leaves the line, and so it pays the first of those that are owed and owes this
      -- one.
      obtain ⟨l, owed, rfl⟩ := List.exists_cons_of_ne_nil hne
      rw [List.flatten_cons, List.append_assoc] at heq
      obtain ⟨rfl, hrest⟩ := (howed l (.head _)).append_inj hline heq
      have heq' : (owed ++ [l]).flatten ++ t = settled made gone ls := by simpa using hrest
      exact ih hls.tail (by simp) (fun l' hl' => howed' l' (.tail _ hl')) heq' hdue hmore'
    · -- The rule takes the line, and so one more is owed.
      have heq' : (owed ++ [line]).flatten ++ t = settled made (gone.less n) ls := by
        simpa using heq
      refine ih hls.tail (by simp) howed' heq' (fun n' hn' => ?_) hmore'
      rw [Budget.less_of_ne fun h : n' = n => free (h ▸ hn')]
      exact hdue n' hn'
  | @gone awaited ls t n line due rest ih =>
    have hmore' := exists_made_of_deletion hmore
    rw [settled, if_neg (Nat.pos_iff_ne_zero.mp (hdue n due))] at heq
    refine ih hls.tail hne howed heq (fun n' hn' => ?_) hmore'
    obtain ⟨hne', hmem⟩ := Finset.mem_erase.mp hn'
    rw [Budget.less_of_ne hne']
    exact hdue n' hmem
  | other line =>
    obtain ⟨n, l, hl, hbegins⟩ := hfirst hne howed heq
    exact (hls.quiet line (.head _)).not_begins hls.isLine hl hbegins

/-- The rewritten line does not begin with the declaration. -/
theorem Arranged.not_text_begins {m : Match} {behind : Text}
    (h : Arranged (.declaration m behind :: ls)) (ht : ls = [] → t = []) :
    ¬m.text <+: uniquePointer m ++ behind ++ t := by
  have hnone : ¬m.text <:+: uniquePointer m ++ behind := (h.apart m behind (.head _) _ (.head _)).1
  have hne : uniquePointer m ++ behind ≠ [] := by simp [uniquePointer]
  exact (h.isLine_unique_append ht).not_begins (h.not_mem_feed (.head _)) hnone [] _ rfl hne

/-- What is to be done for a name fits what its lines do, and is all that can be done. -/
def Exhausts (isAwaited : Prop) (made gone : Nat) (es : List Event) : Prop :=
  (isAwaited → gone = made + 1) ∧ (¬isAwaited → gone = made) ∧ made ≤ es.count .made ∧
    gone ≤ es.count .gone ∧ (made = es.count .made ∨ gone = es.count .gone)

end

section

variable {ls : List Line} {awaited : Finset Text} {t : Text}

/-- What is carried over the lines: if the text is what the rule makes of them, and the rule does
all that can be done, the lines take turns. -/
def Forces (awaited : Finset Text) (ls : List Line) (t : Text) : Prop :=
  ∀ made gone, t = settled made gone ls →
    (∀ n, Exhausts (n ∈ awaited) (made n) (gone n) (events n ls)) → Balanced awaited made gone ls

namespace Forces

variable {m : Match} {behind n line : Text}

/-- Without lines nothing is left to be shown. -/
theorem nil : Forces ∅ [] [] := by
  intro made gone _ hall n
  obtain ⟨-, hgone, hmade, -⟩ := hall n
  have hzero : made n = 0 := by simpa [events] using hmade
  refine ⟨fun hmem => absurd hmem (Finset.notMem_empty n), fun hnot => ⟨hgone hnot, ?_⟩⟩
  rw [hzero]
  exact .rest .made 0

/-- A declaration that is kept is one too many: no line gives its pointer up. -/
theorem kept (hls : Arranged (.declaration m behind :: ls)) (free : m.group 3 ∉ awaited)
    (ih : Forces awaited ls t) :
    Forces awaited (.declaration m behind :: ls) (m.text ++ behind ++ t) := by
  intro made gone heq hall
  obtain ⟨⟨-, hgone, -, -, hmost⟩, hothers⟩ := forall_events_declaration.mp hall
  have hgone := hgone free
  rw [List.count_cons_self, List.count_cons_of_ne (by decide)] at hmost
  rw [settled] at heq
  split at heq
  · next hzero =>
    have hrest := ih made gone (List.append_cancel_left heq) <|
      forall_of_ne (m.group 3) ⟨fun hmem => absurd hmem free, fun _ => hgone, by omega⟩ hothers
    refine forall_events_declaration.mpr ⟨⟨fun hmem => absurd hmem free, fun _ => ⟨hgone, ?_⟩⟩,
      fun n _ => hrest n⟩
    rw [hzero]
    exact turns_made_of_count (by omega)
  · have hprefix : m.text <+: uniquePointer m ++ behind ++
        settled (made.less (m.group 3)) gone ls := ⟨behind ++ t, by rw [← heq, List.append_assoc]⟩
    exact absurd hprefix (hls.not_text_begins settled_eq_nil)

/-- A declaration that is rewritten begins a turn, which the next line of the name ends. -/
theorem rewritten (hls : Arranged (.declaration m behind :: ls)) (free : m.group 3 ∉ awaited)
    (hnil : ls = [] → t = []) (ih : Forces (insert (m.group 3) awaited) ls t) :
    Forces awaited (.declaration m behind :: ls) (uniquePointer m ++ behind ++ t) := by
  intro made gone heq hall
  obtain ⟨⟨-, hgone, hself⟩, hothers⟩ := forall_events_declaration.mp hall
  have hgone := hgone free
  rw [List.count_cons_self, List.count_cons_of_ne (by decide)] at hself
  rw [settled] at heq
  split at heq
  · -- If the rule left the declaration, its text would begin what it makes of it.
    have hprefix : m.text <+: uniquePointer m ++ behind ++ t :=
      ⟨behind ++ settled made gone ls, by rw [heq, List.append_assoc]⟩
    exact absurd hprefix (hls.not_text_begins hnil)
  · -- Behind it one declaration less is to be rewritten, and the name is awaited.
    next hmade =>
    have hrest := ih (made.less (m.group 3)) gone (List.append_cancel_left heq) <| by
      refine forall_of_ne (m.group 3) ⟨fun _ => ?_, fun hnot => ?_, ?_⟩ fun n hne => ?_
      · rw [Budget.less_self]
        omega
      · exact absurd (Finset.mem_insert_self _ _) hnot
      · rw [Budget.less_self]
        omega
      · simpa [hne, Budget.less_of_ne hne] using hothers n hne
    obtain ⟨-, es, hes, hturns⟩ := (hrest (m.group 3)).1 (Finset.mem_insert_self _ _)
    rw [Budget.less_self] at hturns
    refine forall_events_declaration.mpr ⟨⟨fun hmem => absurd hmem free, fun _ => ⟨hgone, ?_⟩⟩,
      fun n hne => ?_⟩
    · rw [hes, ← Nat.sub_add_cancel (Nat.pos_of_ne_zero hmade)]
      exact .pair hturns
    · simpa [hne, Budget.less_of_ne hne] using hrest n

/-- A line that is left gives up a pointer that nothing makes any more: if the rule took one more
line, this one would be owed from here on, and there is a declaration to come. -/
theorem left (hls : Arranged (.deletion n line :: ls)) (free : n ∉ awaited)
    (hrest : Paired awaited ls t) (ih : Forces awaited ls t) :
    Forces awaited (.deletion n line :: ls) (line ++ t) := by
  intro made gone heq hall
  obtain ⟨⟨-, hgone, hself⟩, hothers⟩ := forall_events_deletion.mp hall
  have hgone := hgone free
  rw [List.count_cons_self, List.count_cons_of_ne (by decide)] at hself
  rw [settled] at heq
  split at heq
  · -- No line of the name is taken any more, so what comes is all of one kind.
    next hzero =>
    have hrest := ih made gone (List.append_cancel_left heq) <|
      forall_of_ne n ⟨fun hmem => absurd hmem free, fun _ => hgone, by omega⟩ hothers
    refine forall_events_deletion.mpr ⟨⟨fun hmem => absurd hmem free, fun _ => ⟨hgone, ?_⟩⟩,
      fun n _ => hrest n⟩
    rw [← hgone, hzero]
    exact turns_gone_of_count (by omega)
  · -- The rule would take one more line, and there is a declaration to come.
    next hpos =>
    have hmade : .made ∈ events n ls := List.count_pos_iff.mp (by omega)
    have howed : IsOwed line := hls.isOwed fun hnil => by
      rw [hnil] at hmade
      cases hmade
    have heq' : [line].flatten ++ t = settled made (gone.less n) ls := by simpa using heq
    refine (not_paired_behind hrest hls.tail (List.cons_ne_nil line []) (by simpa using howed) heq'
      (fun n' hn' => ?_) ⟨n, hmade⟩).elim
    have hne : n' ≠ n := fun h => free (h ▸ hn')
    obtain ⟨hgone', -⟩ := hothers n' hne
    rw [Budget.less_of_ne hne, hgone' hn']
    exact Nat.succ_pos _

/-- A line that goes away ends the turn of its name. -/
theorem gone (due : n ∈ awaited) (ih : Forces (awaited.erase n) ls t) :
    Forces awaited (.deletion n line :: ls) t := by
  intro made gone heq hall
  obtain ⟨⟨hgone, -, hself⟩, hothers⟩ := forall_events_deletion.mp hall
  have hgone := hgone due
  rw [List.count_cons_self, List.count_cons_of_ne (by decide)] at hself
  rw [settled, if_neg (by omega)] at heq
  -- Behind it one line less is to go away, and the name is not awaited.
  have hrest := ih made (gone.less n) heq <| by
    refine forall_of_ne n ⟨fun hmem => ?_, fun _ => ?_, ?_⟩ fun n' hne => ?_
    · exact absurd hmem (Finset.notMem_erase _ _)
    · rw [Budget.less_self]
      omega
    · rw [Budget.less_self]
      omega
    · simpa [hne, Budget.less_of_ne hne] using hothers n' hne
  obtain ⟨-, hturns⟩ := (hrest n).2 (Finset.notMem_erase _ _)
  refine forall_events_deletion.mpr ⟨⟨fun _ => ⟨hgone, _, rfl, hturns⟩, fun hnot => ?_⟩,
    fun n' hne => ?_⟩
  · exact absurd due hnot
  · simpa [hne, Budget.less_of_ne hne] using hrest n'

end Forces

/-- If just the right lines go away, the lines take turns. -/
theorem balanced_of_paired (h : Paired awaited ls t) (hls : Arranged ls) : Forces awaited ls t := by
  induction h with
  | nil => exact .nil
  | kept m behind free rest ih => exact .kept hls free (ih hls.tail)
  | rewritten m behind free rest ih => exact .rewritten hls free rest.eq_nil (ih hls.tail)
  | left n line free rest ih => exact .left hls free rest (ih hls.tail)
  | gone n line due rest ih => exact .gone due (ih hls.tail)
  | other line rest ih =>
    intro made gone heq hall
    exact ih hls.tail made gone (List.append_cancel_left heq) hall

end

/-- The rule takes for each declaration the line that gives up its pointer, if any, exactly if the
lines that do something to the pointers of a name take turns: one makes it and the next gives it up,
until nothing but declarations comes any more, or nothing but lines that give up a pointer. -/
theorem makePointersUnique_paired_iff {t : Text} {ls : List Line} (h : Layout t ls) :
    Paired ∅ ls (makePointersUnique t) ↔ ∀ n, ∃ k, Turns k (events n ls) := by
  rw [makePointersUnique_eq h]
  constructor
  · intro hpaired n
    have hbalanced := balanced_of_paired hpaired h.arranged _ _ rfl fun n => by
      refine ⟨fun hmem => absurd hmem (Finset.notMem_empty n), fun _ => rfl, ?_⟩
      rw [pairs]
      omega
    exact ⟨_, ((hbalanced n).2 (Finset.notMem_empty n)).2⟩
  · intro hturns
    refine paired_settled fun n =>
      ⟨fun hmem => absurd hmem (Finset.notMem_empty n), fun _ => ⟨rfl, ?_⟩⟩
    obtain ⟨k, hk⟩ := hturns n
    rw [pairs, hk.min_eq]
    exact hk

/-- A pointer that is made, used and given up. -/
def ownedOnce : Text := "T* p = new T();\n    p->run();\n    delete p;\n"

/-- A pointer that is made and given up once becomes unique. -/
theorem makePointersUnique_paired_ownedOnce :
    ∃ ls, Layout ownedOnce ls ∧ Paired ∅ ls (makePointersUnique ownedOnce) := by
  have hhits : (owningNew.hits ownedOnce).map (fun m => (m.text, m.group 3, uniquePointer m)) =
      [(("T* p = new T();" : Text), ("p" : Text), ("auto p = std::make_unique<T>();" : Text))] := by
    decide +kernel
  obtain ⟨m, hm, heq⟩ := List.map_eq_singleton_iff.mp hhits
  rw [Prod.mk.injEq, Prod.mk.injEq] at heq
  obtain ⟨htext, hname, hunique⟩ := heq
  -- The three lines are a declaration, a use of its pointer, and a line that gives the pointer up.
  have harranged : Arranged
      [.declaration m "\n", .other "    p->run();\n", .deletion "p" "    delete p;\n"] := {
    areLines := by
      rw [List.map_cons, Line.text, htext]
      exact ⟨by decide, .inl rfl, by decide, .inl rfl, by decide, .inl rfl, trivial⟩
    declares := by
      intro m' behind hmem
      obtain ⟨rfl, -⟩ : m' = m ∧ behind = "\n" := by simpa using hmem
      obtain ⟨v, hv⟩ := exists_matchesBehind_of_mem_hits (isSolid_spec (by decide))
        (show m' ∈ owningNew.hits ownedOnce from hm ▸ .head _)
      exact ⟨_, hv.2⟩
    deletes := by
      intro n line hmem
      obtain ⟨rfl, rfl⟩ : n = "p" ∧ line = "    delete p;\n" := by simpa using hmem
      refine ⟨by decide, by decide, "    delete p", [], ['\n'], rfl, ?_, rfl, .inr rfl⟩
      exact ⟨"    ", " ", [], rfl, by decide, by decide, by decide, rfl⟩
    quiet := by
      intro line hmem
      obtain rfl : line = "    p->run();\n" := by simpa using hmem
      exact isQuiet_of_head (i := "    ") (a := 'p') (by decide) (by decide) (by decide)
    apart := by
      intro m' behind hmem l hl
      obtain ⟨rfl, -⟩ : m' = m ∧ behind = "\n" := by simpa using hmem
      rw [htext]
      simp only [List.mem_cons, List.not_mem_nil, or_false] at hl
      rcases hl with rfl | rfl | rfl
      · rw [Line.rewritten, hunique]
        exact ⟨by decide, fun _ => if_pos rfl⟩
      · exact ⟨by decide, fun h => absurd h (by decide)⟩
      · exact ⟨by decide, fun h => absurd h (by decide)⟩ }
  have hlayout : Layout ownedOnce
      [.declaration m "\n", .other "    p->run();\n", .deletion "p" "    delete p;\n"] := {
    text_eq := by
      rw [List.flatMap_cons, Line.text, htext]
      rfl
    hits_eq := hm
    arranged := harranged }
  refine ⟨_, hlayout, (makePointersUnique_paired_iff hlayout).mpr fun n => ?_⟩
  rw [events_declaration, events_other, events_deletion, hname]
  split
  · exact ⟨1, .pair (.rest .made 0)⟩
  · exact ⟨0, .rest .made 0⟩

/-- The second function does not make its pointer unique, but its `delete` goes away for the pointer
of the first one, which nothing gives up. -/
theorem makePointersUnique_crossed :
    makePointersUnique ("void f() \x7b\n    T* p = new T();\n    keep(p);\n\x7d\n" ++
        "void g() \x7b\n    T* p = new T();\n    delete p;\n\x7d\n") =
      "void f() \x7b\n    auto p = std::make_unique<T>();\n    keep(p);\n\x7d\n" ++
        "void g() \x7b\n    T* p = new T();\n\x7d\n" := by
  decide +kernel

end CodeTidy.Cpp
