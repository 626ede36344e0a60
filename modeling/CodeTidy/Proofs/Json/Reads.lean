import CodeTidy.Proofs.Except
import CodeTidy.Proofs.Json.Number
import CodeTidy.Proofs.Json.Strings

/-!
# `CodeTidy.Proofs.Json.Reads`: what the readers read

The readers count down a bound on their calls. `Reads` says the same without
the bound: one constructor for each way to read a value, the items of an array
or the members of an object. The theorems:

* `reads_of_bound`: the readers only read what is read.
* `isFound_of_reads`: what is read is found by the readers with a bound of
  twice the length of the text. Each way to read has its lemma in `IsFound`.
* `parse_eq_ok_iff`: a text is parsed exactly if it is one value between white
  space.
-/

set_option autoImplicit false

namespace CodeTidy.Json

/-! ### White space and what ends a value -/

/-- Whether the text, behind white space, is over or goes on after a value. -/
def ends (t : Text) : Bool := (skipSpace t).head?.all (fun c => c == ',' || c == ']' || c == '\x7d')

/-- Without white space in front nothing is passed over. -/
theorem skipSpace_eq_self {t : Text} (h : t.head?.all (fun c => !isSpace c) = true) :
    skipSpace t = t := by
  cases t with
  | nil => rfl
  | cons c t =>
    have hc : isSpace c = false := by simpa using h
    rw [skipSpace, List.dropWhile_cons_of_neg (by simp [hc])]

/-- White space in front is passed over. -/
theorem skipSpace_append {s : Text} (hs : s.all isSpace = true) (t : Text) :
    skipSpace (s ++ t) = skipSpace t :=
  List.dropWhile_append_of_pos (List.all_eq_true.mp hs)

/-- What is passed over is white space in front of the rest. -/
theorem exists_skipSpace (t : Text) : ∃ s, s.all isSpace = true ∧ t = s ++ skipSpace t :=
  ⟨t.takeWhile isSpace, List.all_takeWhile, List.takeWhile_append_dropWhile.symm⟩

/-- Behind the white space the text does not begin with any. -/
theorem head?_skipSpace (t : Text) : (skipSpace t).head?.all (fun c => !isSpace c) = true := by
  rw [skipSpace]
  cases h : (t.dropWhile isSpace).head? with
  | none => rfl
  | some c =>
    have hc := List.head?_dropWhile_not isSpace t
    rw [h] at hc
    simpa using hc

/-- To pass over white space does not make the text longer. -/
theorem length_skipSpace_le (t : Text) : (skipSpace t).length ≤ t.length :=
  (List.dropWhile_suffix _).length_le

/-- A text that ends a value ends a number. -/
theorem endsNumber_of_ends {t : Text} (h : ends t = true) : endsNumber t = true := by
  cases t with
  | nil => rfl
  | cons c t =>
    by_cases hc : isSpace c = true
    · simp only [isSpace, Bool.or_eq_true, beq_iff_eq] at hc
      rcases hc with ((rfl | rfl) | rfl) | rfl <;> rfl
    · have hself : skipSpace (c :: t) = c :: t := skipSpace_eq_self (by simpa using hc)
      rw [ends, hself, List.head?_cons, Option.all_some] at h
      simp only [Bool.or_eq_true, beq_iff_eq] at h
      rcases h with (rfl | rfl) | rfl <;> rfl

/-! ### The judgement -/

/-- What a reader gives. -/
inductive Part where
  | value (v : Json)
  | items (vs : List Json)
  | members (ms : List (Text × Json))

/-- A part at the start of a text, for whose containers there is some room, and the text after
it. The items and the members go up to the end of their container. -/
inductive Reads : (room : Nat) → Text → Part → (rest : Text) → Prop
  | atom {room : Nat} {t rest : Text} {v : Json} (h : atom t = .ok (v, rest))
      (hends : ends rest = true) : Reads room t (.value v) rest
  | string {room : Nat} {r s rest : Text} (h : string? r = some (s, rest)) :
    Reads room ('"' :: r) (.value (.string s)) rest
  | emptyArray {room : Nat} {r rest : Text} (h : skipSpace r = ']' :: rest) :
    Reads (room + 1) ('[' :: r) (.value (.array [])) rest
  | array {room : Nat} {r rest : Text} {vs : List Json}
      (h : Reads room (skipSpace r) (.items vs) rest) :
    Reads (room + 1) ('[' :: r) (.value (.array vs)) rest
  | emptyObject {room : Nat} {r rest : Text} (h : skipSpace r = '\x7d' :: rest) :
    Reads (room + 1) ('\x7b' :: r) (.value (.object [])) rest
  | object {room : Nat} {r rest : Text} {ms : List (Text × Json)}
      (h : Reads room (skipSpace r) (.members ms) rest) :
    Reads (room + 1) ('\x7b' :: r) (.value (.object (uniteMembers ms))) rest
  | lastItem {room : Nat} {t t₁ rest : Text} {v : Json} (h : Reads room t (.value v) t₁)
      (hclose : skipSpace t₁ = ']' :: rest) : Reads room t (.items [v]) rest
  | nextItem {room : Nat} {t t₁ t₂ rest : Text} {v : Json} {vs : List Json}
      (h : Reads room t (.value v) t₁) (hcomma : skipSpace t₁ = ',' :: t₂)
      (hrest : Reads room (skipSpace t₂) (.items vs) rest) : Reads room t (.items (v :: vs)) rest
  | lastMember {room : Nat} {r k t₁ t₂ t₃ rest : Text} {v : Json}
      (hkey : string? r = some (k, t₁)) (hcolon : skipSpace t₁ = ':' :: t₂)
      (h : Reads room (skipSpace t₂) (.value v) t₃) (hclose : skipSpace t₃ = '\x7d' :: rest) :
    Reads room ('"' :: r) (.members [(k, v)]) rest
  | nextMember {room : Nat} {r k t₁ t₂ t₃ t₄ rest : Text} {v : Json} {ms : List (Text × Json)}
      (hkey : string? r = some (k, t₁)) (hcolon : skipSpace t₁ = ':' :: t₂)
      (h : Reads room (skipSpace t₂) (.value v) t₃) (hcomma : skipSpace t₃ = ',' :: t₄)
      (hrest : Reads room (skipSpace t₄) (.members ms) rest) :
    Reads room ('"' :: r) (.members ((k, v) :: ms)) rest

/-! ### What the readers read is read -/

/-- What is required is there where no error is reported. -/
theorem some_of_required {α : Type} {x : Option α} {a : α} (h : required x = .ok a) :
    x = some a := by
  cases x with
  | none => cases h
  | some b =>
    cases h
    rfl

/-- A container that may be opened takes one level of the room. -/
theorem eq_of_enter {container : Container} {room room' : Nat}
    (h : enter container room = .ok room') : room = room' + 1 := by
  cases room with
  | zero => cases h
  | succ room =>
    cases h
    rfl

/-- What a value has read that is found with some bound. -/
theorem value_cases {bound room : Nat} {t rest : Text} {v : Json}
    (h : value (bound + 1) room t = .ok (v, rest)) :
    (∃ r s, t = '"' :: r ∧ string? r = some (s, rest) ∧ v = .string s) ∨
    (∃ r room', t = '[' :: r ∧ room = room' + 1 ∧ (skipSpace r = ']' :: rest ∧ v = .array [] ∨
      ∃ vs, items bound room' (skipSpace r) = .ok (vs, rest) ∧ v = .array vs)) ∨
    (∃ r room', t = '\x7b' :: r ∧ room = room' + 1 ∧
      (skipSpace r = '\x7d' :: rest ∧ v = .object [] ∨
        ∃ ms, members bound room' (skipSpace r) = .ok (ms, rest) ∧
          v = .object (uniteMembers ms))) ∨
    atom t = .ok (v, rest) := by
  rw [value.eq_def] at h
  dsimp only at h
  split at h
  · rename_i r
    obtain ⟨⟨s, rest'⟩, hs, h⟩ := ok_of_bind h
    cases h
    exact .inl ⟨r, s, rfl, some_of_required hs, rfl⟩
  · rename_i r
    -- A container is entered, so there was room for it.
    obtain ⟨room', hroom, h⟩ := ok_of_bind h
    refine .inr (.inl ⟨r, room', rfl, eq_of_enter hroom, ?_⟩)
    split at h
    · rename_i rest' hclose
      cases h
      exact .inl ⟨hclose, rfl⟩
    · obtain ⟨⟨vs, rest'⟩, hvs, h⟩ := ok_of_bind h
      cases h
      exact .inr ⟨vs, hvs, rfl⟩
  · rename_i r
    obtain ⟨room', hroom, h⟩ := ok_of_bind h
    refine .inr (.inr (.inl ⟨r, room', rfl, eq_of_enter hroom, ?_⟩))
    split at h
    · rename_i rest' hclose
      cases h
      exact .inl ⟨hclose, rfl⟩
    · obtain ⟨⟨ms, rest'⟩, hms, h⟩ := ok_of_bind h
      cases h
      exact .inr ⟨ms, hms, rfl⟩
  · exact .inr (.inr (.inr h))

/-- What items have read that are found with some bound. -/
theorem items_cases {bound room : Nat} {t rest : Text} {vs : List Json}
    (h : items (bound + 1) room t = .ok (vs, rest)) :
    ∃ v t₁, value bound room t = .ok (v, t₁) ∧ (skipSpace t₁ = ']' :: rest ∧ vs = [v] ∨
      ∃ t₂ vs', skipSpace t₁ = ',' :: t₂ ∧ items bound room (skipSpace t₂) = .ok (vs', rest) ∧
        vs = v :: vs') := by
  rw [items] at h
  obtain ⟨⟨v, t₁⟩, hv, h⟩ := ok_of_bind h
  refine ⟨v, t₁, hv, ?_⟩
  dsimp only at h
  split at h
  · rename_i rest' hclose
    cases h
    exact .inl ⟨hclose, rfl⟩
  · rename_i t₂ hcomma
    obtain ⟨⟨vs', rest'⟩, hvs, h⟩ := ok_of_bind h
    cases h
    exact .inr ⟨t₂, vs', hcomma, hvs, rfl⟩
  · cases h

/-- What members have read that are found with some bound. -/
theorem members_cases {bound room : Nat} {t rest : Text} {ms : List (Text × Json)}
    (h : members (bound + 1) room t = .ok (ms, rest)) :
    ∃ r k t₁ t₂ v t₃, t = '"' :: r ∧ string? r = some (k, t₁) ∧ skipSpace t₁ = ':' :: t₂ ∧
      value bound room (skipSpace t₂) = .ok (v, t₃) ∧
      (skipSpace t₃ = '\x7d' :: rest ∧ ms = [(k, v)] ∨
        ∃ t₄ ms', skipSpace t₃ = ',' :: t₄ ∧
          members bound room (skipSpace t₄) = .ok (ms', rest) ∧ ms = (k, v) :: ms') := by
  rw [members.eq_def] at h
  dsimp only at h
  split at h
  · rename_i r
    obtain ⟨⟨k, t₁⟩, hk, h⟩ := ok_of_bind h
    dsimp only at h
    split at h
    · rename_i t₂ hcolon
      obtain ⟨⟨v, t₃⟩, hv, h⟩ := ok_of_bind h
      refine ⟨r, k, t₁, t₂, v, t₃, rfl, some_of_required hk, hcolon, hv, ?_⟩
      dsimp only at h
      split at h
      · rename_i rest' hclose
        cases h
        exact .inl ⟨hclose, rfl⟩
      · rename_i t₄ hcomma
        obtain ⟨⟨ms', rest'⟩, hms, h⟩ := ok_of_bind h
        cases h
        exact .inr ⟨t₄, ms', hcomma, hms, rfl⟩
      · cases h
    · cases h
  · cases h

/-- A value ends in front of a comma or a closing mark. -/
theorem ends_of_skipSpace {t r : Text} {c : Char} (h : skipSpace t = c :: r)
    (hc : (c == ',' || c == ']' || c == '\x7d') = true) : ends t = true := by
  rw [ends, h]
  exact hc

/-- The readers only read what is read. -/
theorem reads_of_bound (bound : Nat) :
    (∀ room t v rest, value bound room t = .ok (v, rest) → ends rest = true →
      Reads room t (.value v) rest) ∧
    (∀ room t vs rest, items bound room t = .ok (vs, rest) → Reads room t (.items vs) rest) ∧
    ∀ room t ms rest, members bound room t = .ok (ms, rest) →
      Reads room t (.members ms) rest := by
  -- The three readers call each other, each time with a smaller bound.
  induction bound with
  | zero =>
    refine ⟨?_, ?_, ?_⟩
    · intro room t v rest h
      cases h
    · intro room t vs rest h
      cases h
    · intro room t ms rest h
      cases h
  | succ bound ih =>
    obtain ⟨ihValue, ihItems, ihMembers⟩ := ih
    refine ⟨?_, ?_, ?_⟩
    · intro room t v rest h hends
      rcases value_cases h with ⟨r, s, rfl, hs, rfl⟩ | ⟨r, room', rfl, rfl, hr⟩ |
        ⟨r, room', rfl, rfl, hr⟩ | hatom
      · exact .string hs
      · rcases hr with ⟨hclose, rfl⟩ | ⟨vs, hvs, rfl⟩
        · exact .emptyArray hclose
        · exact .array (ihItems _ _ _ _ hvs)
      · rcases hr with ⟨hclose, rfl⟩ | ⟨ms, hms, rfl⟩
        · exact .emptyObject hclose
        · exact .object (ihMembers _ _ _ _ hms)
      · exact .atom hatom hends
    · intro room t vs rest h
      obtain ⟨v, t₁, hv, hr⟩ := items_cases h
      -- Behind an item stands a comma or a bracket, so a number ends there.
      rcases hr with ⟨hclose, rfl⟩ | ⟨t₂, vs', hcomma, hvs, rfl⟩
      · exact .lastItem (ihValue _ _ _ _ hv (ends_of_skipSpace hclose rfl)) hclose
      · exact .nextItem (ihValue _ _ _ _ hv (ends_of_skipSpace hcomma rfl)) hcomma
          (ihItems _ _ _ _ hvs)
    · intro room t ms rest h
      obtain ⟨r, k, t₁, t₂, v, t₃, rfl, hk, hcolon, hv, hr⟩ := members_cases h
      rcases hr with ⟨hclose, rfl⟩ | ⟨t₄, ms', hcomma, hms, rfl⟩
      · exact .lastMember hk hcolon (ihValue _ _ _ _ hv (ends_of_skipSpace hclose rfl)) hclose
      · exact .nextMember hk hcolon (ihValue _ _ _ _ hv (ends_of_skipSpace hcomma rfl)) hcomma
          (ihMembers _ _ _ _ hms)

/-! ### What is read is found by the readers -/

/-- A mark behind white space makes the text shorter. -/
theorem length_lt_of_skipSpace {t r : Text} {c : Char} (h : skipSpace t = c :: r) :
    r.length < t.length := by
  have hle := length_skipSpace_le t
  rw [h, List.length_cons] at hle
  omega

/-- The rest of a string makes the text shorter. -/
theorem length_lt_of_string? {t s rest : Text} (h : string? t = some (s, rest)) :
    rest.length < t.length := by
  obtain ⟨body, rfl, -⟩ := string?_split h
  rw [List.length_append, List.length_cons]
  omega

/-- A reader does not make the text longer. -/
theorem Reads.length_le {room : Nat} {t rest : Text} {part : Part} (h : Reads room t part rest) :
    rest.length ≤ t.length := by
  induction h with
  | atom h hends =>
    obtain ⟨u, rfl, -⟩ := atom_split h (endsNumber_of_ends hends)
    rw [List.length_append]
    omega
  | string h =>
    have hlt := length_lt_of_string? h
    rw [List.length_cons]
    omega
  | emptyArray h =>
    have hlt := length_lt_of_skipSpace h
    rw [List.length_cons]
    omega
  | @array _ r _ _ _ ih =>
    have hle := length_skipSpace_le r
    rw [List.length_cons]
    omega
  | emptyObject h =>
    have hlt := length_lt_of_skipSpace h
    rw [List.length_cons]
    omega
  | @object _ r _ _ _ ih =>
    have hle := length_skipSpace_le r
    rw [List.length_cons]
    omega
  | lastItem _ hclose ih =>
    have hlt := length_lt_of_skipSpace hclose
    omega
  | @nextItem _ _ _ t₂ _ _ _ _ hcomma _ ih ihRest =>
    have hlt := length_lt_of_skipSpace hcomma
    have hle := length_skipSpace_le t₂
    omega
  | @lastMember _ _ _ _ t₂ _ _ _ hkey hcolon _ hclose ih =>
    have hlt := length_lt_of_string? hkey
    have hlt' := length_lt_of_skipSpace hcolon
    have hle := length_skipSpace_le t₂
    have hlt'' := length_lt_of_skipSpace hclose
    rw [List.length_cons]
    omega
  -- Each mark that a member needs is a character, so the bounds add up.
  | @nextMember _ _ _ _ t₂ _ t₄ _ _ _ hkey hcolon _ hcomma _ ih ihRest =>
    have hlt := length_lt_of_string? hkey
    have hlt' := length_lt_of_skipSpace hcolon
    have hle := length_skipSpace_le t₂
    have hlt'' := length_lt_of_skipSpace hcomma
    have hle' := length_skipSpace_le t₄
    rw [List.length_cons]
    omega

/-- Nothing that is read begins with white space or a closing bracket. -/
theorem head_of_reads {room : Nat} {t rest : Text} {part : Part} (h : Reads room t part rest) :
    ∃ c r, t = c :: r ∧ isSpace c = false ∧ c ≠ ']' ∧ c ≠ '\x7d' := by
  induction h with
  | atom h =>
    obtain ⟨c, r, rfl, hc⟩ := head_of_atom h
    refine ⟨c, r, rfl, ?_, ?_, ?_⟩
    · by_contra hspace
      simp only [isSpace, Bool.not_eq_false, Bool.or_eq_true, beq_iff_eq] at hspace
      rcases hspace with ((rfl | rfl) | rfl) | rfl <;> cases hc
    · rintro rfl
      cases hc
    · rintro rfl
      cases hc
  | lastItem _ _ ih => exact ih
  | nextItem _ _ _ ih => exact ih
  | _ => exact ⟨_, _, rfl, rfl, by decide, by decide⟩

/-- No part begins with white space. -/
theorem skipSpace_of_reads {room : Nat} {t rest : Text} {part : Part} (h : Reads room t part rest) :
    skipSpace t = t := by
  obtain ⟨c, r, rfl, hc, -⟩ := head_of_reads h
  exact skipSpace_eq_self (by simp [hc])

/-- No part begins with a closing mark. -/
theorem ne_close_of_reads {room : Nat} {t rest : Text} {part : Part} (h : Reads room t part rest)
    (r : Text) : t ≠ ']' :: r ∧ t ≠ '\x7d' :: r := by
  obtain ⟨c, r', rfl, -, hc⟩ := head_of_reads h
  exact ⟨fun h => hc.1 (List.cons.inj h).1, fun h => hc.2 (List.cons.inj h).1⟩

/-- What the readers have to find, if their bound is large enough. Between two characters at most
two calls are made. -/
def IsFound (room : Nat) (t rest : Text) : Part → Prop
  | .value v => ∀ bound, 2 * t.length + 1 ≤ bound → value bound room t = .ok (v, rest)
  | .items vs => ∀ bound, 2 * t.length + 2 ≤ bound → items bound room t = .ok (vs, rest)
  | .members ms => ∀ bound, 2 * t.length + 2 ≤ bound → members bound room t = .ok (ms, rest)

namespace IsFound

variable {room : Nat} {r t t₁ t₂ t₃ t₄ k rest : Text} {v : Json} {vs : List Json}
  {ms : List (Text × Json)}

/-- A value that is no container is found. -/
theorem atom (h : atom t = .ok (v, rest)) : IsFound room t rest (.value v) := by
  intro bound hbound
  rcases bound with _ | bound
  · omega
  obtain ⟨c, r, rfl, hc⟩ := head_of_atom h
  rw [Json.value, h]
  · rintro _ ⟨⟩
    cases hc
  · rintro _ ⟨⟩
    cases hc
  · rintro _ ⟨⟩
    cases hc

/-- A string is found. -/
theorem string {s : Text} (h : string? r = some (s, rest)) :
    IsFound room ('"' :: r) rest (.value (.string s)) := by
  intro bound hbound
  rcases bound with _ | bound
  · omega
  rw [Json.value, h]
  rfl

/-- An empty array is found. -/
theorem emptyArray (h : skipSpace r = ']' :: rest) :
    IsFound (room + 1) ('[' :: r) rest (.value (.array [])) := by
  intro bound hbound
  rcases bound with _ | bound
  · omega
  rw [Json.value]
  simp only [enter, bind, Except.bind, h]
  rfl

/-- The items of an array that is not empty. -/
theorem array (h : Reads room (skipSpace r) (.items vs) rest)
    (ih : IsFound room (skipSpace r) rest (.items vs)) :
    IsFound (room + 1) ('[' :: r) rest (.value (.array vs)) := by
  intro bound hbound
  rcases bound with _ | bound
  · omega
  have hle := length_skipSpace_le r
  have hclose : ∀ r', skipSpace r ≠ ']' :: r' := fun r' => (ne_close_of_reads h r').1
  rw [List.length_cons] at hbound
  rw [Json.value]
  simp only [enter, ok_bind]
  rw [ih bound (by omega)]
  rfl

/-- An empty object is found. -/
theorem emptyObject (h : skipSpace r = '\x7d' :: rest) :
    IsFound (room + 1) ('\x7b' :: r) rest (.value (.object [])) := by
  intro bound hbound
  rcases bound with _ | bound
  · omega
  rw [Json.value]
  simp only [enter, bind, Except.bind, h]
  rfl

/-- The members of an object that is not empty. -/
theorem object (h : Reads room (skipSpace r) (.members ms) rest)
    (ih : IsFound room (skipSpace r) rest (.members ms)) :
    IsFound (room + 1) ('\x7b' :: r) rest (.value (.object (uniteMembers ms))) := by
  intro bound hbound
  rcases bound with _ | bound
  · omega
  have hle := length_skipSpace_le r
  have hclose : ∀ r', skipSpace r ≠ '\x7d' :: r' := fun r' => (ne_close_of_reads h r').2
  rw [List.length_cons] at hbound
  rw [Json.value]
  simp only [enter, ok_bind]
  rw [ih bound (by omega)]
  rfl

/-- The last item is found, and the array ends. -/
theorem lastItem (hclose : skipSpace t₁ = ']' :: rest) (ih : IsFound room t t₁ (.value v)) :
    IsFound room t rest (.items [v]) := by
  intro bound hbound
  rcases bound with _ | bound
  · omega
  rw [Json.items, ih bound (by omega)]
  simp only [bind, Except.bind, hclose]
  rfl

/-- An item in front of others. -/
theorem nextItem (h : Reads room t (.value v) t₁) (hcomma : skipSpace t₁ = ',' :: t₂)
    (ih : IsFound room t t₁ (.value v)) (ihRest : IsFound room (skipSpace t₂) rest (.items vs)) :
    IsFound room t rest (.items (v :: vs)) := by
  intro bound hbound
  rcases bound with _ | bound
  · omega
  have hle := h.length_le
  have hlt := length_lt_of_skipSpace hcomma
  have hle' := length_skipSpace_le t₂
  rw [Json.items, ih bound (by omega)]
  simp only [bind, Except.bind, hcomma]
  rw [ihRest bound (by omega)]
  rfl

/-- The last member is found, and the object ends. -/
theorem lastMember (hkey : string? r = some (k, t₁)) (hcolon : skipSpace t₁ = ':' :: t₂)
    (hclose : skipSpace t₃ = '\x7d' :: rest) (ih : IsFound room (skipSpace t₂) t₃ (.value v)) :
    IsFound room ('"' :: r) rest (.members [(k, v)]) := by
  intro bound hbound
  rcases bound with _ | bound
  · omega
  have hlt := length_lt_of_string? hkey
  have hlt' := length_lt_of_skipSpace hcolon
  have hle := length_skipSpace_le t₂
  rw [List.length_cons] at hbound
  rw [Json.members, hkey]
  simp only [required, bind, Except.bind, hcolon]
  rw [ih bound (by omega)]
  simp only [hclose]
  rfl

/-- A member in front of others. -/
theorem nextMember (hkey : string? r = some (k, t₁)) (hcolon : skipSpace t₁ = ':' :: t₂)
    (h : Reads room (skipSpace t₂) (.value v) t₃) (hcomma : skipSpace t₃ = ',' :: t₄)
    (ih : IsFound room (skipSpace t₂) t₃ (.value v))
    (ihRest : IsFound room (skipSpace t₄) rest (.members ms)) :
    IsFound room ('"' :: r) rest (.members ((k, v) :: ms)) := by
  intro bound hbound
  rcases bound with _ | bound
  · omega
  have hlt := length_lt_of_string? hkey
  have hlt' := length_lt_of_skipSpace hcolon
  have hle := length_skipSpace_le t₂
  have hle' := h.length_le
  have hlt'' := length_lt_of_skipSpace hcomma
  have hle'' := length_skipSpace_le t₄
  rw [List.length_cons] at hbound
  -- Each step shortens the text, so the bound is large enough for the value and for the other
  -- members.
  rw [Json.members, hkey]
  simp only [required, bind, Except.bind, hcolon]
  rw [ih bound (by omega)]
  simp only [hcomma]
  rw [ihRest bound (by omega)]
  rfl

end IsFound

/-- What is read is found by the readers: one lemma for each way to read. -/
theorem isFound_of_reads {room : Nat} {t rest : Text} {part : Part} (h : Reads room t part rest) :
    IsFound room t rest part := by
  -- Each call takes one from the bound, and the text that is left has got shorter by then.
  induction h with
  | atom h => exact .atom h
  | string h => exact .string h
  | emptyArray h => exact .emptyArray h
  | array h ih => exact .array h ih
  | emptyObject h => exact .emptyObject h
  | object h ih => exact .object h ih
  | lastItem _ hclose ih => exact .lastItem hclose ih
  | nextItem h hcomma _ ih ihRest => exact .nextItem h hcomma ih ihRest
  | lastMember hkey hcolon _ hclose ih => exact .lastMember hkey hcolon hclose ih
  | nextMember hkey hcolon h hcomma _ ih ihRest =>
    exact .nextMember hkey hcolon h hcomma ih ihRest

/-- A text is parsed exactly if it is a value with white space around it. -/
theorem parse_eq_ok_iff {t : Text} {v : Json} :
    parse t = .ok v ↔
      ∃ rest, Reads maxNesting (skipSpace t) (.value v) rest ∧ skipSpace rest = [] := by
  constructor
  · intro h
    obtain ⟨⟨v', rest⟩, hread, h⟩ := ok_of_bind h
    dsimp only at h
    split at h
    · rename_i hempty
      cases h
      rw [List.isEmpty_iff] at hempty
      -- Nothing follows the value, so no number goes on there.
      have hends : ends rest = true := by
        rw [ends, hempty]
        rfl
      exact ⟨rest, (reads_of_bound _).1 _ _ _ _ hread hends, hempty⟩
    · cases h
  · rintro ⟨rest, hread, hempty⟩
    have hle := length_skipSpace_le t
    have hfound : value (2 * t.length + 2) maxNesting (skipSpace t) = .ok (v, rest) :=
      isFound_of_reads hread _ (by omega)
    rw [parse, hfound]
    simp only [bind, Except.bind, hempty]
    rfl

end CodeTidy.Json
