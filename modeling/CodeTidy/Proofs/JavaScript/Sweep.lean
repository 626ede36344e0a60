import CodeTidy.Proofs.JavaScript.Concatenation

/-!
# `CodeTidy.Proofs.JavaScript.Sweep`: putting neighbouring operands together

`sweep` walks over the terms of a sum once and puts neighbours of two given kinds
together. Adding to a string from the left or from the right makes no difference, so
the value of a sum stays as long as names are not taken from those in front of the
first string. The theorems:

* `isSum_sweep`: a sweep keeps a sum readable.
* `value_sweep`, `settled_sweep`: it keeps the value if one of the first two operands is
  no name, and then this stays so.
* `length_said_zero`: how long the printed value is where all names stand for zero.
* `lead_sweep_le`, `lead_sweep_lt`: a sweep leaves at most as many names in front of the
  first other operand, and fewer if it takes the last of them.
-/

set_option autoImplicit false

namespace CodeTidy.JavaScript

open Text

/-! ### Putting neighbours together -/

/-- Two operands in one: strings make up a string, and anything else a template. -/
def joined : Operand → Operand → Operand
  | .str q s, .str _ s' => .str q (s ++ s')
  | o, o' => .template (o.pieces ++ o'.pieces)

/-- Neighbours of the two kinds are put together, from left to right. What has been put together is
left alone. -/
def sweep (A B : Kind) : List Term → List Term
  | t :: t' :: ts =>
    if t.operand.kind = A ∧ t'.operand.kind = B then
      ⟨t.gap, joined t.operand t'.operand⟩ :: sweep A B ts
    else t :: sweep A B (t' :: ts)
  | ts => ts

/-- How many names stand in front of the first other operand. -/
def lead (ts : List Term) : Nat := (ts.takeWhile (fun t => t.operand.isVariable)).length

/-- The kind of the first operand that is no name. -/
def leader? (ts : List Term) : Option Kind :=
  (ts.find? (fun t => !t.operand.isVariable)).map (fun t => t.operand.kind)

/-! ### A sweep keeps a sum readable -/

/-- Two quiet texts in a row are quiet. -/
theorem isQuiet_append {s t : Text} (hs : isQuiet s = true) (ht : isQuiet t = true) :
    isQuiet (s ++ t) = true := by
  simp only [isQuiet, Bool.and_eq_true, Bool.not_eq_true'] at hs ht ⊢
  refine ⟨beginsWithPlus_append hs.1 ht.1, ?_⟩
  rw [List.reverse_append]
  exact beginsWithPlus_append ht.2 hs.2

/-- A hole of a template is quiet. -/
theorem isQuiet_hole (n : Text) : isQuiet (hole n) = true := by
  have hend : (hole n).reverse = '\x7d' :: (n.reverse ++ ['\x7b', '$']) := by simp [hole]
  have hbegin : beginsWithPlus (hole n) = false := rfl
  rw [isQuiet, hbegin, hend]
  rfl

/-- An operand gives pieces that a template can hold. -/
theorem pieces_spec {o : Operand} (h : o.isWell = true) : o.pieces.all Piece.isWell = true ∧
    isQuiet (o.pieces.flatMap Piece.text) = true := by
  cases o with
  | name n =>
    refine ⟨by rw [Operand.pieces, List.all_cons]; exact Bool.and_eq_true_iff.mpr ⟨h, rfl⟩, ?_⟩
    simpa [Operand.pieces, Piece.text] using isQuiet_hole n
  | str q s =>
    simp only [Operand.isWell, Bool.and_eq_true] at h
    have htext : (s.map Piece.char).flatMap Piece.text = s := by
      simp [List.flatMap_map, Piece.text]
    rw [Operand.pieces, htext, List.all_map]
    exact ⟨h.1.2, h.2⟩
  | template ps => simpa [Operand.isWell, Operand.pieces] using h

/-- Two operands in one can be read off their text if both can. -/
theorem isWell_joined {o o' : Operand} (h : o.isWell = true) (h' : o'.isWell = true) :
    (joined o o').isWell = true := by
  unfold joined
  split
  · simp only [Operand.isWell, Bool.and_eq_true] at h h' ⊢
    rw [List.all_append, h.1.2, h'.1.2]
    exact ⟨⟨h.1.1, rfl⟩, isQuiet_append h.2 h'.2⟩
  · obtain ⟨hpieces, hquiet⟩ := pieces_spec h
    obtain ⟨hpieces', hquiet'⟩ := pieces_spec h'
    rw [Operand.isWell, List.all_append, hpieces, hpieces', List.flatMap_append,
      isQuiet_append hquiet hquiet']
    rfl

variable {A B : Kind} {ts : List Term}

/-- After a sweep all terms can be read off their text. -/
theorem all_isWell_sweep (h : ts.all Term.isWell = true) :
    (sweep A B ts).all Term.isWell = true := by
  fun_induction sweep A B ts with
  | case1 t t' ts hkinds ih =>
    simp only [List.all_cons, Bool.and_eq_true] at h
    obtain ⟨ht, ht', hts⟩ := h
    rw [Term.isWell, Bool.and_eq_true] at ht ht'
    rw [List.all_cons, Term.isWell, ht.1, isWell_joined ht.2 ht'.2, ih hts]
    rfl
  | case2 t t' ts hkinds ih =>
    rw [List.all_cons, Bool.and_eq_true] at h
    rw [List.all_cons, h.1, ih h.2]
    rfl
  | case3 => exact h

/-- After a sweep the terms make up a sum. -/
theorem isSum_sweep (h : isSum ts = true) : isSum (sweep A B ts) = true := by
  obtain ⟨o, ts, rfl, ho, hts⟩ := exists_of_isSum h
  cases ts with
  | nil => exact h
  | cons t ts =>
    rw [sweep]
    split
    · rw [List.all_cons, Bool.and_eq_true] at hts
      rw [isSum, isWell_joined ho (exists_of_isWell hts.1).1, all_isWell_sweep hts.2]
      rfl
    · rw [isSum, ho, all_isWell_sweep hts]
      rfl

/-! ### A sweep keeps the value -/

section

variable {N : NumberSystem} (env : Env N)

/-- A name is an operand of the kind for names. -/
theorem isVariable_iff (o : Operand) : o.isVariable = true ↔ o.kind = .name := by
  cases o <;> simp [Operand.isVariable, Operand.kind]

/-- Any other operand stands for a string. -/
theorem isString_value {o : Operand} (h : o.isVariable = false) :
    (o.value env).isString = true := by
  cases o with
  | name n => cases h
  | str q s => rfl
  | template ps => rfl

/-- What the pieces of an operand say is what it prints. -/
theorem said_pieces (o : Operand) :
    o.pieces.flatMap (Piece.said env) = (o.value env).print := by
  cases o with
  | name n => simp [Operand.pieces, Piece.said, Operand.value]
  | str q s => simp [Operand.pieces, List.flatMap_map, Piece.said, Operand.value, Value.print]
  | template ps => rfl

/-- Two operands in one print what both print. -/
theorem value_joined (o o' : Operand) :
    (joined o o').value env = .string ((o.value env).print ++ (o'.value env).print) := by
  unfold joined
  split
  · rfl
  · rw [Operand.value, List.flatMap_append, said_pieces, said_pieces]

/-- Two operands that a sweep puts together are not both names. -/
theorem exists_isString (hAB : A ≠ .name ∨ B ≠ .name) {o o' : Operand}
    (h : o.kind = A ∧ o'.kind = B) :
    (o.value env).isString = true ∨ (o'.value env).isString = true := by
  rw [← h.1, ← h.2] at hAB
  refine hAB.imp (fun ho => isString_value env ?_) (fun ho => isString_value env ?_)
  · rwa [Bool.eq_false_iff, ne_eq, isVariable_iff]
  · rwa [Bool.eq_false_iff, ne_eq, isVariable_iff]

/-- Behind a string a sweep does not change the value. -/
theorem addAll_sweep (ts : List Term) {v : Value N} (hv : v.isString = true) :
    addAll env v ((sweep A B ts).map Term.operand) = addAll env v (ts.map Term.operand) := by
  fun_induction sweep A B ts generalizing v with
  | case1 t t' ts hkinds ih =>
    have hstring : (v.add ((joined t.operand t'.operand).value env)).isString = true := by
      rw [Value.add_of_isString (.inl hv)]
      rfl
    have hadd : v.add ((joined t.operand t'.operand).value env) =
        (v.add (t.operand.value env)).add (t'.operand.value env) := by
      rw [value_joined, Value.add_add_of_isString (.inl hv)]
    have hrest := ih hstring
    rw [hadd] at hrest
    simpa only [addAll, List.map_cons, List.foldl_cons, hadd] using hrest
  | case2 t t' ts hkinds ih =>
    have hstring : (v.add (t.operand.value env)).isString = true := by
      rw [Value.add_of_isString (.inl hv)]
      rfl
    exact ih hstring
  | case3 => rfl

/-- All operands are names. -/
def allNames (ts : List Term) : Bool := ts.all (fun t => t.operand.isVariable)

/-- All operands are names if the first one is and the others are. -/
theorem allNames_cons (t : Term) (ts : List Term) :
    allNames (t :: ts) = (t.operand.isVariable && allNames ts) := rfl

/-- One of the first two operands is no name. -/
def settled (ts : List Term) : Bool := (ts.take 2).any (fun t => !t.operand.isVariable)

/-- Nor does it where the first operand is added to anything. -/
theorem addAll_sweep_cons (v : Value N) {t : Term} (h : t.operand.isVariable = false) :
    addAll env v ((sweep A B (t :: ts)).map Term.operand) =
      addAll env v ((t :: ts).map Term.operand) := by
  have hstring := isString_value env h
  cases ts with
  | nil => rfl
  | cons t' ts =>
    rw [sweep]
    split
    · have hadd : v.add ((joined t.operand t'.operand).value env) =
          (v.add (t.operand.value env)).add (t'.operand.value env) := by
        rw [value_joined, Value.add_add_of_isString (.inr hstring)]
      have hrest := addAll_sweep env (A := A) (B := B) ts
        (v := v.add ((joined t.operand t'.operand).value env))
        (by rw [value_joined, Value.add_of_isString (.inr rfl)]; rfl)
      rw [hadd] at hrest
      simpa only [addAll, List.map_cons, List.foldl_cons, hadd] using hrest
    · exact addAll_sweep env (t' :: ts) (v := v.add (t.operand.value env))
        (by rw [Value.add_of_isString (.inr hstring)]; rfl)

/-- A sweep keeps the value if one of the first two operands is no name. -/
theorem value_sweep (hAB : A ≠ .name ∨ B ≠ .name) (h : settled ts = true) :
    value? env ((sweep A B ts).map Term.operand) = value? env (ts.map Term.operand) := by
  match ts with
  | [] => rfl
  | [t] => rfl
  | t :: t' :: ts =>
    rw [sweep]
    split
    · next hkinds =>
      -- The two operands are joined as they are added, since one of them is a string.
      have hadd : (joined t.operand t'.operand).value env =
          (t.operand.value env).add (t'.operand.value env) := by
        rw [value_joined, Value.add_of_isString (exists_isString env hAB hkinds)]
      have hrest := addAll_sweep env (A := A) (B := B) ts
        (v := (joined t.operand t'.operand).value env) (by rw [value_joined]; rfl)
      rw [hadd] at hrest
      simpa only [value?, addAll, List.map_cons, List.foldl_cons, hadd] using congrArg some hrest
    · -- From a string on, all are added as strings.
      cases ht : t.operand.isVariable with
      | false => exact congrArg some (addAll_sweep env (t' :: ts) (isString_value env ht))
      | true =>
        have ht' : t'.operand.isVariable = false := by simpa [settled, ht] using h
        exact congrArg some (addAll_sweep_cons env (t.operand.value env) ht')

end

/-- What has been put together is no name. -/
theorem isVariable_joined (o o' : Operand) : (joined o o').isVariable = false := by
  unfold joined
  split <;> rfl

/-- A sweep leaves a settled sum settled. -/
theorem settled_sweep (h : settled ts = true) : settled (sweep A B ts) = true := by
  match ts with
  | [] => exact h
  | [t] => exact h
  | t :: t' :: ts =>
    rw [sweep]
    split
    · simp [settled, isVariable_joined]
    · cases ts with
      | nil => exact h
      | cons t'' ts =>
        rw [sweep]
        split
        · simp [settled, isVariable_joined]
        · exact h

/-- Where all operands are names, a sweep that leaves names alone has nothing to do. -/
theorem sweep_eq_self (hAB : A ≠ .name ∨ B ≠ .name)
    (h : allNames ts = true) : sweep A B ts = ts := by
  fun_induction sweep A B ts with
  | case1 t t' ts hkinds ih =>
    simp only [allNames_cons, Bool.and_eq_true, isVariable_iff] at h
    rcases hAB with hA | hB
    · exact absurd (hkinds.1.symm.trans h.1) hA
    · exact absurd (hkinds.2.symm.trans h.2.1) hB
  | case2 t t' ts hkinds ih =>
    rw [allNames_cons, Bool.and_eq_true] at h
    rw [ih h.2]
  | case3 => rfl

/-! ### Names in front -/

/-- A name in front is one more name. -/
@[simp]
theorem lead_cons_variable {t : Term} (h : t.operand.isVariable = true) (ts : List Term) :
    lead (t :: ts) = lead ts + 1 := by
  simp [lead, h]

/-- Behind any other operand no name counts. -/
@[simp]
theorem lead_cons_other {t : Term} (h : t.operand.isVariable = false) (ts : List Term) :
    lead (t :: ts) = 0 := by
  simp [lead, h]

/-- How long the text is that the operand prints where all names stand for zero. -/
def Operand.width (o : Operand) : Nat := o.pieces.length

/-- How long the texts are that the operands print where all names stand for zero. -/
def width (ts : List Term) : Nat := ts.foldr (fun t n => t.operand.width + n) 0

/-- The width of a sum, term by term. -/
theorem width_cons (t : Term) (ts : List Term) : width (t :: ts) = t.operand.width + width ts := rfl

/-- Two operands in one are as wide as both. -/
theorem width_joined (o o' : Operand) : (joined o o').width = o.width + o'.width := by
  unfold joined
  split <;> simp [Operand.width, Operand.pieces]

/-- A sweep does not change the width. -/
theorem width_sweep : width (sweep A B ts) = width ts := by
  fun_induction sweep A B ts with
  | case1 t t' ts hkinds ih =>
    rw [width_cons, width_joined, ih, width_cons, width_cons, Nat.add_assoc]
  | case2 t t' ts hkinds ih => rw [width_cons, ih, width_cons t]
  | case3 => rfl

section

variable {N : NumberSystem}

/-- All names stand for zero. -/
def zeros (N : NumberSystem) : Env N := fun _ => .number N.zero

/-- An operand prints its width where all names stand for zero. -/
theorem length_print_zeros (o : Operand) : (o.value (zeros N)).print.length = o.width := by
  rw [← said_pieces, Operand.width]
  induction o.pieces with
  | nil => rfl
  | cons p ps ih =>
    rw [List.flatMap_cons, List.length_append, ih, List.length_cons, Nat.add_comm]
    cases p with
    | char a => rfl
    | hole n => simp [Piece.said, zeros, Value.print, N.print_zero]

/-- A name stands for zero, which is one character wide. -/
theorem value_zeros_of_isVariable {o : Operand} (h : o.isVariable = true) :
    o.value (zeros N) = .number N.zero ∧ o.width = 1 := by
  cases o with
  | name n => exact ⟨rfl, rfl⟩
  | str q s => cases h
  | template ps => cases h

/-- Behind a string everything is printed. -/
theorem length_addAll_zeros {v : Value N} (hv : v.isString = true) (ts : List Term) :
    (addAll (zeros N) v (ts.map Term.operand)).print.length = v.print.length + width ts := by
  induction ts generalizing v with
  | nil => rfl
  | cons t ts ih =>
    have hadd := Value.add_of_isString (v := v) (w := t.operand.value (zeros N)) (.inl hv)
    have hrest := ih (v := v.add (t.operand.value (zeros N))) (by rw [hadd]; rfl)
    rw [hadd, Value.print, List.length_append, length_print_zeros, Nat.add_assoc] at hrest
    rw [List.map_cons, addAll, List.foldl_cons, hadd, width_cons]
    exact hrest

/-- Zeros that are added to zero are not printed. -/
theorem length_addAll_zero {ts : List Term}
    (h : allNames ts = false) :
    (addAll (zeros N) (.number N.zero) (ts.map Term.operand)).print.length + lead ts =
      1 + width ts := by
  induction ts with
  | nil => cases h
  | cons t ts ih =>
    rw [List.map_cons, addAll, List.foldl_cons, ← addAll, width_cons]
    cases ht : t.operand.isVariable with
    | true =>
      obtain ⟨hvalue, hwidth⟩ := value_zeros_of_isVariable (N := N) ht
      have hrest := ih (by simpa [allNames_cons, ht] using h)
      rw [hvalue, Value.add, N.zero_add_zero, hwidth, lead_cons_variable ht]
      omega
    | false =>
      -- The first string makes the number print, and from then on lengths add up.
      have hadd := Value.add_of_isString (v := .number N.zero) (w := t.operand.value (zeros N))
        (.inr (isString_value (zeros N) ht))
      have hprint : (Value.number (N := N) N.zero).print = ['0'] := N.print_zero
      rw [hadd, length_addAll_zeros rfl, lead_cons_other ht, hprint, Value.print,
        List.length_append, length_print_zeros, List.length_singleton, Nat.add_zero, Nat.add_assoc]

/-- How long the printed value is where all names stand for zero: of the names in front of the
first other operand, only one zero is printed. -/
theorem length_said_zero {ts : List Term} (h : allNames ts = false) :
    ∃ v, value? (zeros N) (ts.map Term.operand) = some v ∧
      v.print.length + (lead ts - 1) = width ts := by
  cases ts with
  | nil => cases h
  | cons t ts =>
    refine ⟨_, rfl, ?_⟩
    rw [width_cons]
    cases ht : t.operand.isVariable with
    | true =>
      obtain ⟨hvalue, hwidth⟩ := value_zeros_of_isVariable (N := N) ht
      have hother : allNames ts = false := by simpa [allNames_cons, ht] using h
      have hrest := length_addAll_zero (N := N) hother
      rw [hvalue, hwidth, lead_cons_variable ht]
      omega
    | false =>
      rw [length_addAll_zeros (isString_value _ ht), lead_cons_other ht, length_print_zeros]
      rfl

end

/-- A sum in which not everything is a name stays one. -/
theorem all_isVariable_sweep (h : allNames ts = false) :
    allNames (sweep A B ts) = false := by
  fun_induction sweep A B ts with
  | case1 t t' ts hkinds ih => rw [allNames_cons, isVariable_joined, Bool.false_and]
  | case2 t t' ts hkinds ih =>
    rw [allNames_cons, Bool.and_eq_false_iff] at h ⊢
    exact h.imp_right ih
  | case3 => exact h

/-- A sweep leaves no more names in front. -/
theorem lead_sweep_le : lead (sweep A B ts) ≤ lead ts := by
  fun_induction sweep A B ts with
  | case1 t t' ts hkinds ih => simp [isVariable_joined]
  | case2 t t' ts hkinds ih =>
    cases ht : t.operand.isVariable with
    | true =>
      rw [lead_cons_variable ht, lead_cons_variable ht]
      exact Nat.succ_le_succ ih
    | false => rw [lead_cons_other ht, lead_cons_other ht]
  | case3 => exact Nat.le_refl _

/-- A sweep that takes the last name in front of the first other operand leaves fewer of them. -/
theorem lead_sweep_lt (hB : leader? ts = some B) (hlead : 0 < lead ts) :
    lead (sweep .name B ts) < lead ts := by
  fun_induction sweep .name B ts with
  | case1 t t' ts hkinds ih => simpa [isVariable_joined] using hlead
  | case2 t t' ts hkinds ih =>
    cases ht : t.operand.isVariable with
    | true =>
      -- ts) = some B :: The name stays, so the next operand is a name as well, as it would have
      -- been taken otherwise.
      have hB' : leader? (t' :: ts) = some B := by simpa [leader?, ht] using hB
      have hlead' : 0 < lead (t' :: ts) := by
        cases ht' : t'.operand.isVariable with
        | true =>
          rw [lead_cons_variable ht']
          exact Nat.succ_pos _
        | false =>
          have hkind : t'.operand.kind = B := by simpa [leader?, ht'] using hB'
          exact absurd ⟨(isVariable_iff _).mp ht, hkind⟩ hkinds
      rw [lead_cons_variable ht, lead_cons_variable ht]
      exact Nat.succ_lt_succ (ih hB' hlead')
    | false =>
      rw [lead_cons_other ht] at hlead
      cases hlead
  | case3 ts hshort =>
    match ts with
    | [] => cases hlead
    | [t] =>
      cases ht : t.operand.isVariable with
      | true => simp [leader?, ht] at hB
      | false =>
        rw [lead_cons_other ht] at hlead
        cases hlead
    | t :: t' :: ts => exact absurd rfl (hshort t t' ts)

/-- A name does not lead. -/
theorem leader?_cons_variable {t : Term} (h : t.operand.isVariable = true) (ts : List Term) :
    leader? (t :: ts) = leader? ts := by
  simp [leader?, h]

/-- Any other operand leads. -/
theorem leader?_cons_other {t : Term} (h : t.operand.isVariable = false) (ts : List Term) :
    leader? (t :: ts) = some t.operand.kind := by
  simp [leader?, h]

/-- What a template is put together with becomes a template. -/
theorem kind_joined {o o' : Operand} (h : o.kind = .template) :
    (joined o o').kind = .template := by
  cases o with
  | template ps => rfl
  | name n => cases h
  | str q s => cases h

/-- A template that stands first among the operands that are no names stays the first, unless a
name is put into it. -/
theorem leader?_sweep (hAB : A ≠ .name ∨ B ≠ .name) (hjoin : A ≠ .name ∨ B ≠ .template)
    (h : leader? ts = some .template) : leader? (sweep A B ts) = some .template := by
  fun_induction sweep A B ts with
  | case1 t t' ts hkinds ih =>
    rw [leader?_cons_other (isVariable_joined _ _)]
    cases ht : t.operand.isVariable with
    | true =>
      rw [leader?_cons_variable ht] at h
      -- A name in front would have been joined to the template, which is excluded.
      have hA : A = .name := hkinds.1.symm.trans ((isVariable_iff _).mp ht)
      have ht' : t'.operand.isVariable = false := by
        rw [Bool.eq_false_iff, ne_eq, isVariable_iff, hkinds.2]
        exact hAB.resolve_left (absurd hA)
      rw [leader?_cons_other ht', hkinds.2] at h
      exact absurd (Option.some.inj h) (hjoin.resolve_left (absurd hA))
    | false =>
      rw [leader?_cons_other ht] at h
      rw [kind_joined (Option.some.inj h)]
  | case2 t t' ts hkinds ih =>
    cases ht : t.operand.isVariable with
    | true =>
      rw [leader?_cons_variable ht] at h ⊢
      exact ih h
    | false =>
      rw [leader?_cons_other ht] at h ⊢
      exact h
  | case3 => exact h

end CodeTidy.JavaScript
