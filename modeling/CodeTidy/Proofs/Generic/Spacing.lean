import CodeTidy.Generic.Table
import CodeTidy.Proofs.Pattern.Rewrite
import CodeTidy.Proofs.Pattern.Shapes

/-!
# `CodeTidy.Proofs.Generic.Spacing`: where an operator is found

An operator is a sign between two operands, with spaces and tabs around it.
The sign and what is around it are made of different characters, so there is
one way to match an operator at most. The theorems:

* `exists_isOperation`: what a match is made of.
* `exists_matchAt?`: where there is an operator, it is matched.
* `IsOperation.unique`: an operator has one sign and one way to be spaced.
* `filter_spaceOperators`: spaces and tabs are all that changes when operators
  are spaced.
-/

set_option autoImplicit false

namespace CodeTidy.Generic

open Pattern Text

/-- What an operator stands behind. -/
def endsOperand : CharSet := CharSet.or isWord (CharSet.of ")]")

/-- What an operator stands in front of. -/
def beginsOperand : CharSet := CharSet.or isWord (CharSet.of "([\"'")

/-- The signs of operators. -/
def signs : List String := ["==", "!=", "<=", ">=", "+=", "-=", "*=", "/=", "="]

/-- The characters of signs. -/
def isSign : CharSet := CharSet.of "=!<>+-*/"

/-- The pattern for operators, with its parts named. -/
theorem spacedOperator_eq : spacedOperator =
    seq [.place (fun c => c.follows endsOperand), indent, .group 1 (oneOfWords signs), indent,
      .ahead (.one beginsOperand)] := rfl

/-- An operator in front of the text `r`: its sign, and the spaces and tabs around it. -/
structure IsOperation (s sign s' r : Text) : Prop where
  left : s.all isIndent = true
  sign_mem : ∃ w ∈ signs, sign = w.toList
  right : s'.all isIndent = true
  behind : r.head?.any beginsOperand = true

/-- A sign is an equals sign, or ends with one. -/
theorem sign_spec : ∀ w ∈ signs, w.toList = ['='] ∨ ∃ c, isSign c = true ∧ w.toList = [c, '='] := by
  intro w hw
  simp only [signs, List.mem_cons, List.not_mem_nil, or_false] at hw
  rcases hw with rfl | rfl | rfl | rfl | rfl | rfl | rfl | rfl | rfl
  · exact .inr ⟨'=', rfl, rfl⟩
  · exact .inr ⟨'!', rfl, rfl⟩
  · exact .inr ⟨'<', rfl, rfl⟩
  · exact .inr ⟨'>', rfl, rfl⟩
  · exact .inr ⟨'+', rfl, rfl⟩
  · exact .inr ⟨'-', rfl, rfl⟩
  · exact .inr ⟨'*', rfl, rfl⟩
  · exact .inr ⟨'/', rfl, rfl⟩
  · exact .inl rfl

/-- A character of a sign is visible and neither ends an operand nor begins one. -/
theorem spec_of_isSign {c : Char} (h : isSign c = true) :
    isBlank c = false ∧ isIndent c = false ∧ endsOperand c = false ∧ beginsOperand c = false := by
  have hall : "=!<>+-*/".toList.all (fun c => !isBlank c && !isIndent c && !endsOperand c &&
      !beginsOperand c) = true := by decide
  rw [isSign, CharSet.of, List.contains_iff_mem] at h
  simpa [and_assoc] using List.all_eq_true.mp hall c h

/-- A space or tab is no sign and neither ends an operand nor begins one. -/
theorem spec_of_isIndent {c : Char} (h : isIndent c = true) :
    isSign c = false ∧ endsOperand c = false ∧ beginsOperand c = false := by
  rw [isIndent, Bool.or_eq_true, beq_iff_eq, beq_iff_eq] at h
  rcases h with rfl | rfl <;> decide

namespace IsOperation

variable {s sign s' r : Text}

/-- A sign is an equals sign, by itself or behind one other character. -/
theorem sign_eq (h : IsOperation s sign s' r) :
    sign = ['='] ∨ ∃ c, isSign c = true ∧ sign = [c, '='] := by
  obtain ⟨w, hw, rfl⟩ := h.sign_mem
  exact sign_spec w hw

/-- A sign is made of the characters of signs. -/
theorem sign_all (h : IsOperation s sign s' r) : sign.all isSign = true := by
  rcases h.sign_eq with rfl | ⟨c, hc, rfl⟩
  · rfl
  · rw [List.all_cons, hc]
    rfl

/-- A sign ends with an equals sign. -/
theorem exists_sign (h : IsOperation s sign s' r) : ∃ v, sign = v ++ ['='] := by
  rcases h.sign_eq with rfl | ⟨c, -, rfl⟩
  · exact ⟨[], rfl⟩
  · exact ⟨[c], rfl⟩

/-- A sign is never empty. -/
theorem sign_ne_nil (h : IsOperation s sign s' r) : sign ≠ [] := by
  obtain ⟨v, rfl⟩ := h.exists_sign
  simp

/-- Behind an operator stands what begins an operand, so nothing that does not. -/
theorem head?_behind {p : Char → Bool} (hp : ∀ c, beginsOperand c = true → p c = false)
    (h : IsOperation s sign s' r) : r.head?.all (fun c => !p c) = true := by
  have hbehind := h.behind
  cases hr : r.head? with
  | none => rfl
  | some c =>
    rw [hr] at hbehind
    rw [Option.all_some, hp c hbehind]
    rfl

/-- An operator has one sign and one way to be spaced. -/
theorem unique {s₁ sign₁ s₁' r₁ : Text} (h : IsOperation s sign s' r)
    (h₁ : IsOperation s₁ sign₁ s₁' r₁)
    (heq : s ++ (sign ++ (s' ++ r)) = s₁ ++ (sign₁ ++ (s₁' ++ r₁))) :
    s = s₁ ∧ sign = sign₁ ∧ s' = s₁' ∧ r = r₁ := by
  -- Each part ends where the next one begins: a sign with no space, spaces with no sign, and what
  -- is behind the operator with neither.
  have hsign {s sign s' r : Text} (h : IsOperation s sign s' r) (r' : Text) :
      (sign ++ r').head?.all (fun c => !isIndent c) = true := by
    obtain ⟨c, v, hv⟩ := List.exists_cons_of_ne_nil h.sign_ne_nil
    have hall := h.sign_all
    rw [hv, List.all_cons, Bool.and_eq_true] at hall
    rw [hv, List.cons_append, List.head?_cons, Option.all_some, (spec_of_isSign hall.1).2.1]
    rfl
  have hindent {s sign s' r : Text} (h : IsOperation s sign s' r) :
      (s' ++ r).head?.all (fun c => !isSign c) = true := by
    have hr := h.head?_behind (p := isSign) (fun c hc => by
      rw [← Bool.not_eq_true]
      intro hsign
      rw [(spec_of_isSign hsign).2.2.2] at hc
      cases hc)
    have hall := h.right
    cases s' with
    | nil => exact hr
    | cons c s' =>
      rw [List.all_cons, Bool.and_eq_true] at hall
      rw [List.cons_append, List.head?_cons, Option.all_some, (spec_of_isIndent hall.1).1]
      rfl
  have hbehind {s sign s' r : Text} (h : IsOperation s sign s' r) :
      r.head?.all (fun c => !isIndent c) = true :=
    h.head?_behind (fun c hc => by
      rw [← Bool.not_eq_true]
      intro hindent
      rw [(spec_of_isIndent hindent).2.2] at hc
      cases hc)
  obtain ⟨rfl, hrest⟩ := append_inj_of_all h.left h₁.left (hsign h _) (hsign h₁ _) heq
  obtain ⟨rfl, hrest'⟩ := append_inj_of_all h.sign_all h₁.sign_all (hindent h) (hindent h₁) hrest
  obtain ⟨rfl, rfl⟩ := append_inj_of_all h.right h₁.right (hbehind h) (hbehind h₁) hrest'
  exact ⟨rfl, rfl, rfl, rfl⟩

end IsOperation

/-- What a match is made of. -/
theorem exists_isOperation {c : Cursor} {m : Match} (h : spacedOperator.matchAt? c = some m) :
    c.follows endsOperand = true ∧ ∃ s s', IsOperation s (m.group 1) s' m.stop.after ∧
      c.Reads (s ++ (m.group 1 ++ s')) m.stop := by
  rw [spacedOperator_eq] at h
  obtain ⟨-, c₁, caps₁, ⟨hleft, rfl, rfl⟩, c₂, caps₂, ⟨s, hs, -, hreads, rfl⟩, c₃, caps₃,
    ⟨caps₄, hword, hcaps⟩, c₄, caps₅, ⟨s', hs', -, hreads', hcaps'⟩, hstop, c₅, hahead⟩ :=
    takes_of_matchAt? h
  obtain ⟨w, hw, hread, -⟩ := takes_oneOfWords hword
  obtain ⟨c₆, caps₆, ⟨a, ha, hnext, hcaps''⟩, hfirst⟩ := exists_takes_of_run? hahead
  obtain ⟨rfl, rfl⟩ : c₆ = c₅ ∧ caps₆ = m.groups := by
    cases hfirst
    exact ⟨rfl, rfl⟩
  subst hcaps hcaps'
  -- The group of the match is the sign.
  have hlookup : m.groups.lookup 1 = some ⟨c₂, c₃⟩ := by
    rw [hcaps'']
    rfl
  have hgroup : m.group 1 = w.toList := Match.group_of_lookup hlookup hread
  rw [hgroup, hstop]
  refine ⟨hleft, s, s', ⟨hs, ⟨w, hw, rfl⟩, hs', ?_⟩, hreads.trans (hread.trans hreads')⟩
  rw [hnext.after_eq]
  exact ha

/-- Where there is an operator, it is matched. -/
theorem exists_matchAt? {c : Cursor} (hc : c.follows endsOperand = true) {s sign s' r : Text}
    (h : IsOperation s sign s' r) (hafter : c.after = s ++ (sign ++ (s' ++ r))) :
    ∃ m, spacedOperator.matchAt? c = some m := by
  obtain ⟨w, hw, rfl⟩ := h.sign_mem
  obtain ⟨a, r, rfl⟩ : ∃ a r', r = a :: r' := by
    cases r with
    | nil => cases h.behind
    | cons a r => exact ⟨a, r, rfl⟩
  have hreads : c.Reads (s ++ (w.toList ++ s')) (c.behind (s ++ (w.toList ++ s'))) :=
    Cursor.reads_behind ⟨a :: r, by rw [hafter]; simp⟩
  generalize c.behind (s ++ (w.toList ++ s')) = c' at hreads
  have hafter' : c'.after = a :: r := by
    have happ := hafter.symm.trans hreads.after_eq
    simpa using happ.symm
  obtain ⟨c₁, hs, hrest⟩ := hreads.split
  obtain ⟨c₂, hsign, hs'⟩ := hrest.split
  -- The pattern looks at what comes behind the operator, which begins an operand.
  have hahead : ∃ e, run? (.one beginsOperand) c' [(1, ⟨c₁, c₂⟩)] first = some e := by
    obtain ⟨before, after, pos⟩ := c'
    obtain rfl : after = a :: r := hafter'
    have ha : beginsOperand a = true := h.behind
    exact ⟨_, by rw [run?, Cursor.next?]; dsimp only; rw [if_pos ha]; rfl⟩
  obtain ⟨⟨c'', caps⟩, hahead⟩ := hahead
  have htakes : Takes spacedOperator c [] c' caps := by
    rw [spacedOperator_eq]
    exact ⟨c, [], ⟨hc, rfl, rfl⟩, c₁, [], ⟨s, h.left, Nat.zero_le _, hs, rfl⟩, c₂, _,
      ⟨[], takes_oneOfWords_of_mem hw hsign, rfl⟩, c', _, ⟨s', h.right, Nat.zero_le _, hs', rfl⟩,
      rfl, c'', hahead⟩
  exact Option.isSome_iff_exists.mp (isSome_run?_of_takes htakes rfl)

/-- Spaces and tabs are all that changes when operators are spaced. -/
theorem filter_spaceOperators {p : Char → Bool} (hp : ∀ c, isIndent c = true → p c = false)
    (t : Text) : (spaceOperators t).filter p = t.filter p := by
  have hnone {s : Text} (hs : s.all isIndent = true) : s.filter p = [] := by
    rw [List.filter_eq_nil_iff]
    intro c hc
    rw [hp c (List.all_eq_true.mp hs c hc)]
    exact Bool.false_ne_true
  rw [spaceOperators]
  split
  · refine filter_replace (isSolid_spec rfl) (fun v m hm => ?_)
    obtain ⟨-, s, s', hop, hreads⟩ := exists_isOperation hm.2
    -- What the filter keeps of a match is its sign, before and after.
    have hspaced : (" " ++ m.group 1 ++ " ").filter p = m.text.filter p := by
      have hspace : (" " : Text).filter p = [] := hnone rfl
      rw [Match.text_of_reads hreads, List.filter_append, List.filter_append, List.filter_append,
        List.filter_append, hspace, hnone hop.left, hnone hop.right, List.nil_append]
      rfl
    split
    · rfl
    · exact hspaced
  · rfl

end CodeTidy.Generic
