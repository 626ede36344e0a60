import CodeTidy.Proofs.Json.Reads

/-!
# `CodeTidy.Proofs.Json.Nesting`: texts that are nested too deeply

A text that is not JSON is no failure for most callers of the readers, but one
that is nested too deeply is: the readers give up at the container for which
there is no room, and say nothing about the text. `Exceeds` tells which texts
those are without the readers' bound on their calls. Everything in front of the
container has to be read, so a text with a fault in front of it is malformed,
and one with a fault behind it is still nested too deeply. The theorems:

* `exceeds_of_bound`: the readers only give up at such a container.
* `isReported_of_exceeds`: they give up at it, with a bound of twice the length
  of the text. Each way to such a container has its lemma in `IsReported`.
* `parse_eq_tooDeep_iff`: when parsing fails so.
* `exceeds_arrays`: arrays within arrays, more than there is room for.
-/

set_option autoImplicit false

namespace CodeTidy.Json

/-- What a reader stands in front of. -/
inductive Place where
  | value
  | items
  | members

/-- At the start of a text, with some room for containers, a container begins for which there is
none left. Whatever stands in front of it is read: what encloses it is open, and the items and
members before it are complete. -/
inductive Exceeds : (room : Nat) → Text → Place → Container → Prop
  | array {r : Text} : Exceeds 0 ('[' :: r) .value .array
  | object {r : Text} : Exceeds 0 ('\x7b' :: r) .value .object
  | inArray {room : Nat} {r : Text} {c : Container} (h : Exceeds room (skipSpace r) .items c) :
    Exceeds (room + 1) ('[' :: r) .value c
  | inObject {room : Nat} {r : Text} {c : Container} (h : Exceeds room (skipSpace r) .members c) :
    Exceeds (room + 1) ('\x7b' :: r) .value c
  | item {room : Nat} {t : Text} {c : Container} (h : Exceeds room t .value c) :
    Exceeds room t .items c
  | nextItem {room : Nat} {t t₁ t₂ : Text} {v : Json} {c : Container}
      (h : Reads room t (.value v) t₁) (hcomma : skipSpace t₁ = ',' :: t₂)
      (hrest : Exceeds room (skipSpace t₂) .items c) : Exceeds room t .items c
  | member {room : Nat} {r k t₁ t₂ : Text} {c : Container} (hkey : string? r = some (k, t₁))
      (hcolon : skipSpace t₁ = ':' :: t₂) (h : Exceeds room (skipSpace t₂) .value c) :
    Exceeds room ('"' :: r) .members c
  | nextMember {room : Nat} {r k t₁ t₂ t₃ t₄ : Text} {v : Json} {c : Container}
      (hkey : string? r = some (k, t₁)) (hcolon : skipSpace t₁ = ':' :: t₂)
      (h : Reads room (skipSpace t₂) (.value v) t₃) (hcomma : skipSpace t₃ = ',' :: t₄)
      (hrest : Exceeds room (skipSpace t₄) .members c) : Exceeds room ('"' :: r) .members c

/-! ### Where the readers give up -/

/-- Optional readers never give up: what they do not read is malformed. -/
theorem required_ne_tooDeep {α : Type} {x : Option α} {e : NestingError} :
    required x ≠ .error (.tooDeep e) := by
  cases x <;> exact fun h => nomatch h

/-- A number has no containers in it. -/
theorem number_ne_tooDeep {negative : Bool} {t : Text} {e : NestingError} :
    number negative t ≠ .error (.tooDeep e) := by
  intro h
  rcases error_of_bind h with h | ⟨⟨whole, rest⟩, -, h⟩
  · exact required_ne_tooDeep h
  dsimp only at h
  split at h
  · cases h
  rcases error_of_bind h with h | ⟨digits, -, h⟩
  · exact required_ne_tooDeep h
  split at h <;> cases h

/-- Neither has any other atom. -/
theorem atom_ne_tooDeep {t : Text} {e : NestingError} : atom t ≠ .error (.tooDeep e) := by
  have hconstant {word : Text} {v : Json} : constant word v t ≠ .error (.tooDeep e) := by
    intro h
    rw [constant] at h
    cases hword : after? word t <;> rw [hword] at h <;> cases h
  intro h
  rw [atom.eq_def] at h
  split at h
  · exact hconstant h
  · exact hconstant h
  · exact hconstant h
  · exact hconstant h
  · exact hconstant h
  · split at h
    · cases h
    · exact number_ne_tooDeep h
  · exact number_ne_tooDeep h

/-- A container cannot be entered if there is no room. -/
theorem eq_of_enter_error {container c : Container} {room : Nat}
    (h : enter container room = .error (.tooDeep ⟨c⟩)) : room = 0 ∧ container = c := by
  cases room with
  | zero =>
    cases h
    exact ⟨rfl, rfl⟩
  | succ room => cases h

/-- Where the reader of values gives up: at a container, or inside of it. -/
theorem value_error_cases {bound room : Nat} {t : Text} {c : Container}
    (h : value (bound + 1) room t = .error (.tooDeep ⟨c⟩)) :
    (∃ r, t = '[' :: r ∧ (room = 0 ∧ c = .array ∨
      ∃ room', room = room' + 1 ∧ items bound room' (skipSpace r) = .error (.tooDeep ⟨c⟩))) ∨
    ∃ r, t = '\x7b' :: r ∧ (room = 0 ∧ c = .object ∨
      ∃ room', room = room' + 1 ∧ members bound room' (skipSpace r) = .error (.tooDeep ⟨c⟩)) := by
  rw [value.eq_def] at h
  dsimp only at h
  split at h
  · rcases error_of_bind h with h | ⟨⟨s, rest⟩, -, h⟩
    · -- A string that is not read is no error of this kind.
      exact absurd h required_ne_tooDeep
    · cases h
  · rename_i r
    refine .inl ⟨r, rfl, ?_⟩
    rcases error_of_bind h with h | ⟨room', hroom, h⟩
    · -- There is no room left for the container, or something in it has too little.
      obtain ⟨hroom, rfl⟩ := eq_of_enter_error h
      exact .inl ⟨hroom, rfl⟩
    · split at h
      · cases h
      · rcases error_of_bind h with h | ⟨⟨vs, rest⟩, -, h⟩
        · exact .inr ⟨room', eq_of_enter hroom, h⟩
        · cases h
  · rename_i r
    refine .inr ⟨r, rfl, ?_⟩
    rcases error_of_bind h with h | ⟨room', hroom, h⟩
    · obtain ⟨hroom, rfl⟩ := eq_of_enter_error h
      exact .inl ⟨hroom, rfl⟩
    · split at h
      · cases h
      · rcases error_of_bind h with h | ⟨⟨ms, rest⟩, -, h⟩
        · exact .inr ⟨room', eq_of_enter hroom, h⟩
        · cases h
  · exact absurd h atom_ne_tooDeep

/-- Where the reader of items gives up: in the next item, or in one behind it. -/
theorem items_error_cases {bound room : Nat} {t : Text} {c : Container}
    (h : items (bound + 1) room t = .error (.tooDeep ⟨c⟩)) :
    value bound room t = .error (.tooDeep ⟨c⟩) ∨
      ∃ v t₁ t₂, value bound room t = .ok (v, t₁) ∧ skipSpace t₁ = ',' :: t₂ ∧
        items bound room (skipSpace t₂) = .error (.tooDeep ⟨c⟩) := by
  rw [items] at h
  rcases error_of_bind h with h | ⟨⟨v, t₁⟩, hv, h⟩
  · exact .inl h
  dsimp only at h
  split at h
  · cases h
  · rename_i t₂ hcomma
    rcases error_of_bind h with h | ⟨⟨vs, rest⟩, -, h⟩
    · exact .inr ⟨v, t₁, t₂, hv, hcomma, h⟩
    · cases h
  · cases h

/-- Where the reader of members gives up: in the value of the next member, or behind it. -/
theorem members_error_cases {bound room : Nat} {t : Text} {c : Container}
    (h : members (bound + 1) room t = .error (.tooDeep ⟨c⟩)) :
    ∃ r k t₁ t₂, t = '"' :: r ∧ string? r = some (k, t₁) ∧ skipSpace t₁ = ':' :: t₂ ∧
      (value bound room (skipSpace t₂) = .error (.tooDeep ⟨c⟩) ∨
        ∃ v t₃ t₄, value bound room (skipSpace t₂) = .ok (v, t₃) ∧ skipSpace t₃ = ',' :: t₄ ∧
          members bound room (skipSpace t₄) = .error (.tooDeep ⟨c⟩)) := by
  rw [members.eq_def] at h
  dsimp only at h
  split at h
  · rename_i r
    rcases error_of_bind h with h | ⟨⟨k, t₁⟩, hkey, h⟩
    · -- The key holds no container.
      exact absurd h required_ne_tooDeep
    dsimp only at h
    split at h
    · rename_i t₂ hcolon
      refine ⟨r, k, t₁, t₂, rfl, some_of_required hkey, hcolon, ?_⟩
      rcases error_of_bind h with h | ⟨⟨v, t₃⟩, hv, h⟩
      · exact .inl h
      dsimp only at h
      split at h
      · cases h
      · rename_i t₄ hcomma
        rcases error_of_bind h with h | ⟨⟨ms, rest⟩, -, h⟩
        · exact .inr ⟨v, t₃, t₄, hv, hcomma, h⟩
        · cases h
      · cases h
    · cases h
  · cases h

/-- The readers only give up at a container for which there is no room. -/
theorem exceeds_of_bound (bound : Nat) :
    (∀ room t c, value bound room t = .error (.tooDeep ⟨c⟩) → Exceeds room t .value c) ∧
    (∀ room t c, items bound room t = .error (.tooDeep ⟨c⟩) → Exceeds room t .items c) ∧
    ∀ room t c, members bound room t = .error (.tooDeep ⟨c⟩) → Exceeds room t .members c := by
  -- The three readers call each other, each time with a smaller bound.
  induction bound with
  | zero =>
    refine ⟨?_, ?_, ?_⟩
    · intro room t c h
      cases h
    · intro room t c h
      cases h
    · intro room t c h
      cases h
  | succ bound ih =>
    obtain ⟨ihValue, ihItems, ihMembers⟩ := ih
    refine ⟨?_, ?_, ?_⟩
    · intro room t c h
      rcases value_error_cases h with ⟨r, rfl, hr⟩ | ⟨r, rfl, hr⟩
      · rcases hr with ⟨rfl, rfl⟩ | ⟨room', rfl, hr⟩
        · exact .array
        · exact .inArray (ihItems _ _ _ hr)
      · rcases hr with ⟨rfl, rfl⟩ | ⟨room', rfl, hr⟩
        · exact .object
        · exact .inObject (ihMembers _ _ _ hr)
    · intro room t c h
      rcases items_error_cases h with h | ⟨v, t₁, t₂, hv, hcomma, h⟩
      · exact .item (ihValue _ _ _ h)
      · -- The item in front is read: a comma stands behind it, so a number ends there.
        have hread := (reads_of_bound bound).1 _ _ _ _ hv (ends_of_skipSpace hcomma rfl)
        exact .nextItem hread hcomma (ihItems _ _ _ h)
    · intro room t c h
      obtain ⟨r, k, t₁, t₂, rfl, hkey, hcolon, h⟩ := members_error_cases h
      rcases h with h | ⟨v, t₃, t₄, hv, hcomma, h⟩
      · exact .member hkey hcolon (ihValue _ _ _ h)
      · have hread := (reads_of_bound bound).1 _ _ _ _ hv (ends_of_skipSpace hcomma rfl)
        exact .nextMember hkey hcolon hread hcomma (ihMembers _ _ _ h)

/-! ### That they give up there -/

/-- What a text begins with in which a container exceeds the room: never with white space or a
closing bracket. -/
theorem head_of_exceeds {room : Nat} {t : Text} {place : Place} {c : Container}
    (h : Exceeds room t place c) : ∃ b r, t = b :: r ∧ b ≠ ']' ∧ b ≠ '\x7d' := by
  induction h with
  | item _ ih => exact ih
  | nextItem h =>
    obtain ⟨b, r, rfl, -, hb⟩ := head_of_reads h
    exact ⟨b, r, rfl, hb⟩
  | _ => exact ⟨_, _, rfl, by decide, by decide⟩

/-- What the readers have to report, if their bound is large enough. -/
def IsReported (room : Nat) (t : Text) (c : Container) : Place → Prop
  | .value => ∀ bound, 2 * t.length + 1 ≤ bound → value bound room t = .error (.tooDeep ⟨c⟩)
  | .items => ∀ bound, 2 * t.length + 2 ≤ bound → items bound room t = .error (.tooDeep ⟨c⟩)
  | .members => ∀ bound, 2 * t.length + 2 ≤ bound → members bound room t = .error (.tooDeep ⟨c⟩)

namespace IsReported

variable {room : Nat} {r t t₁ t₂ t₃ t₄ k : Text} {v : Json} {c : Container}

/-- A bracket without room is reported. -/
theorem array : IsReported 0 ('[' :: r) .array .value := by
  intro bound hbound
  rcases bound with _ | bound
  · omega
  rw [Json.value]
  rfl

/-- A brace without room is reported. -/
theorem object : IsReported 0 ('\x7b' :: r) .object .value := by
  intro bound hbound
  rcases bound with _ | bound
  · omega
  rw [Json.value]
  rfl

/-- Out of the items of an array. -/
theorem inArray (h : Exceeds room (skipSpace r) .items c)
    (ih : IsReported room (skipSpace r) c .items) :
    IsReported (room + 1) ('[' :: r) c .value := by
  intro bound hbound
  rcases bound with _ | bound
  · omega
  have hle := length_skipSpace_le r
  have hclose : ∀ r', skipSpace r ≠ ']' :: r' := by
    intro r' hr
    obtain ⟨b, r'', hhead, hb, -⟩ := head_of_exceeds h
    exact hb (List.cons.inj (hhead.symm.trans hr)).1
  rw [List.length_cons] at hbound
  rw [Json.value]
  simp only [enter, ok_bind]
  rw [ih bound (by omega)]
  rfl

/-- Out of the members of an object. -/
theorem inObject (h : Exceeds room (skipSpace r) .members c)
    (ih : IsReported room (skipSpace r) c .members) :
    IsReported (room + 1) ('\x7b' :: r) c .value := by
  intro bound hbound
  rcases bound with _ | bound
  · omega
  have hle := length_skipSpace_le r
  have hclose : ∀ r', skipSpace r ≠ '\x7d' :: r' := by
    intro r' hr
    obtain ⟨b, r'', hhead, -, hb⟩ := head_of_exceeds h
    exact hb (List.cons.inj (hhead.symm.trans hr)).1
  rw [List.length_cons] at hbound
  rw [Json.value]
  simp only [enter, ok_bind]
  rw [ih bound (by omega)]
  rfl

/-- Out of the next item. -/
theorem item (ih : IsReported room t c .value) : IsReported room t c .items := by
  intro bound hbound
  rcases bound with _ | bound
  · omega
  rw [Json.items, ih bound (by omega)]
  rfl

/-- Out of an item behind the next one, which is read. -/
theorem nextItem (h : Reads room t (.value v) t₁) (hcomma : skipSpace t₁ = ',' :: t₂)
    (ih : IsReported room (skipSpace t₂) c .items) : IsReported room t c .items := by
  intro bound hbound
  rcases bound with _ | bound
  · omega
  have hle := h.length_le
  have hlt := length_lt_of_skipSpace hcomma
  have hle' := length_skipSpace_le t₂
  rw [Json.items, isFound_of_reads h bound (by omega)]
  simp only [bind, Except.bind, hcomma]
  rw [ih bound (by omega)]

/-- Out of the value of the next member. -/
theorem member (hkey : string? r = some (k, t₁)) (hcolon : skipSpace t₁ = ':' :: t₂)
    (ih : IsReported room (skipSpace t₂) c .value) : IsReported room ('"' :: r) c .members := by
  intro bound hbound
  rcases bound with _ | bound
  · omega
  have hlt := length_lt_of_string? hkey
  have hlt' := length_lt_of_skipSpace hcolon
  have hle := length_skipSpace_le t₂
  rw [List.length_cons] at hbound
  rw [Json.members, hkey]
  simp only [required, bind, Except.bind, hcolon]
  rw [ih bound (by omega)]

/-- Out of a member behind the next one, which is read. -/
theorem nextMember (hkey : string? r = some (k, t₁)) (hcolon : skipSpace t₁ = ':' :: t₂)
    (h : Reads room (skipSpace t₂) (.value v) t₃) (hcomma : skipSpace t₃ = ',' :: t₄)
    (ih : IsReported room (skipSpace t₄) c .members) : IsReported room ('"' :: r) c .members := by
  intro bound hbound
  rcases bound with _ | bound
  · omega
  have hlt := length_lt_of_string? hkey
  have hlt' := length_lt_of_skipSpace hcolon
  have hle := length_skipSpace_le t₂
  have hle' := h.length_le
  have hlt'' := length_lt_of_skipSpace hcomma
  have hle'' := length_skipSpace_le t₄
  rw [List.length_cons] at hbound
  rw [Json.members, hkey]
  simp only [required, bind, Except.bind, hcolon]
  rw [isFound_of_reads h bound (by omega)]
  simp only [hcomma]
  rw [ih bound (by omega)]

end IsReported

/-- The readers give up at a container for which there is no room: one lemma for each way to it. -/
theorem isReported_of_exceeds {room : Nat} {t : Text} {place : Place} {c : Container}
    (h : Exceeds room t place c) : IsReported room t c place := by
  -- As for what is read: each call takes one from the bound, and the text has got shorter by then.
  induction h with
  | array => exact .array
  | object => exact .object
  | inArray h ih => exact .inArray h ih
  | inObject h ih => exact .inObject h ih
  | item _ ih => exact .item ih
  | nextItem h hcomma _ ih => exact .nextItem h hcomma ih
  | member hkey hcolon _ ih => exact .member hkey hcolon ih
  | nextMember hkey hcolon h hcomma _ ih => exact .nextMember hkey hcolon h hcomma ih

/-- A text is too deep to be parsed exactly if a container stands in it for which there is no
room. -/
theorem parse_eq_tooDeep_iff {t : Text} {c : Container} :
    parse t = .error (.tooDeep ⟨c⟩) ↔ Exceeds maxNesting (skipSpace t) .value c := by
  constructor
  · intro h
    rcases error_of_bind h with h | ⟨⟨v, rest⟩, -, h⟩
    · exact (exceeds_of_bound _).1 _ _ _ h
    · dsimp only at h
      split at h <;> cases h
  · intro h
    have hle := length_skipSpace_le t
    have hreported : value (2 * t.length + 2) maxNesting (skipSpace t) = .error (.tooDeep ⟨c⟩) :=
      isReported_of_exceeds h _ (by omega)
    rw [parse, hreported]
    rfl

/-- Arrays that stand in each other, more of them than there is room for. -/
theorem exceeds_arrays {room n : Nat} (h : room < n) (r : Text) :
    Exceeds room (List.replicate n '[' ++ r) .value .array := by
  induction room generalizing n with
  | zero =>
    obtain ⟨n, rfl⟩ := Nat.exists_eq_succ_of_ne_zero (show n ≠ 0 by omega)
    exact .array
  | succ room ih =>
    obtain ⟨n, rfl⟩ := Nat.exists_eq_succ_of_ne_zero (show n ≠ 0 by omega)
    have hinner := ih (show room < n by omega)
    have hself : skipSpace (List.replicate n '[' ++ r) = List.replicate n '[' ++ r := by
      obtain ⟨n, rfl⟩ := Nat.exists_eq_succ_of_ne_zero (show n ≠ 0 by omega)
      exact skipSpace_eq_self rfl
    exact .inArray (.item (hself.symm ▸ hinner))

end CodeTidy.Json
