import CodeTidy.JavaScript.Import
import CodeTidy.Proofs.Python.Header

/-!
# `CodeTidy.Proofs.Instruction.Head`: the head of a file and the number of its lines

Imports and constants are put behind the head of a file, at a position that two walks
over its lines count out. Both are recursions on the lines, so each of them gives a
position for all lines; what can go wrong is the count. An import of several lines is
counted as a whole at its first line, before the others are passed. In JavaScript a
further line is counted only if it is there. In Python the lines are counted up to the
one with a closing parenthesis, and one too many if there is none. The theorems:

* `exists_head`: what a file begins with, and what stops the walk.
* `IsItem.isPassed`, `IsFileHead.isPassed`: one step of the walk, and a whole run.
* `importEnd_of_isOpenImport`, `importEnd_le_of_isBehindHead`: the position in Python, by
  what stops the walk.
* `JavaScript.importEndFrom_le`: the invariant of the walk in JavaScript.
* `importEnd_le_length_iff`: when the positions are among the lines or at their end.
-/

set_option autoImplicit false

namespace CodeTidy

open Text

namespace Python

/-! ### The lines of a head -/

/-- The line opens a parenthesis and closes none, so that more lines belong to it. -/
def OpensMore (l : Text) : Prop := '(' ∈ l ∧ ')' ∉ l

/-- What the walk counts at once: a line without code, an import on one line, or an import with all
of its lines, the last of which is the first one behind it that holds a closing parenthesis. -/
inductive IsItem : List Text → Prop
  | lead {l : Text} (hlead : IsLead l) : IsItem [l]
  | line {l : Text} (himport : IsPlainImport l) (hmore : ¬OpensMore l) : IsItem [l]
  | more {l last : Text} {mid : List Text} (himport : IsPlainImport l) (hmore : OpensMore l)
      (hmid : ∀ m ∈ mid, ')' ∉ m) (hlast : ')' ∈ last) : IsItem (l :: (mid ++ [last]))

/-- The lines at the head of a file, behind its docstring: items, one after the other. -/
inductive IsFileHead : List Text → Prop
  | nil : IsFileHead []
  | item {item ls : List Text} (hitem : IsItem item) (hls : IsFileHead ls) : IsFileHead (item ++ ls)

/-- The lines begin with an import whose parenthesis none of them closes. -/
def IsOpenImport (ls : List Text) : Prop :=
  ∃ l rest, ls = l :: rest ∧ IsPlainImport l ∧ OpensMore l ∧ ∀ m ∈ rest, ')' ∉ m

/-- There are no lines, or the first one is code and no import. -/
def IsBehindHead (ls : List Text) : Prop := ∀ l ∈ ls.head?, ¬IsLead l ∧ ¬IsPlainImport l

/-- Behind the docstring and the head stands an import that is not closed. -/
def LeavesImportOpen (ls : List Text) : Prop :=
  ∃ head rest, ls.drop (docstringLength ls) = head ++ rest ∧ IsFileHead head ∧ IsOpenImport rest

section

variable {l last : Text} {ls mid head rest : List Text}

/-- Some line is the first one with a closing parenthesis, or none is. -/
theorem exists_closing_line (ls : List Text) :
    (∀ m ∈ ls, ')' ∉ m) ∨
      ∃ mid last rest, ls = mid ++ last :: rest ∧ (∀ m ∈ mid, ')' ∉ m) ∧ ')' ∈ last := by
  induction ls with
  | nil => exact .inl (List.forall_mem_nil _)
  | cons l ls ih =>
    by_cases hl : ')' ∈ l
    · exact .inr ⟨[], l, ls, rfl, List.forall_mem_nil _, hl⟩
    · rcases ih with hnone | ⟨mid, last, rest, rfl, hmid, hlast⟩
      · exact .inl (List.forall_mem_cons.mpr ⟨hl, hnone⟩)
      · exact .inr ⟨l :: mid, last, rest, rfl, List.forall_mem_cons.mpr ⟨hl, hmid⟩, hlast⟩

/-- The lines of a file are its head, and then code, nothing, or an import that stays open. -/
theorem exists_head (ls : List Text) :
    ∃ head rest, ls = head ++ rest ∧ IsFileHead head ∧ (IsBehindHead rest ∨ IsOpenImport rest) := by
  -- An import may take several lines, so the induction is on their number.
  induction hn : ls.length using Nat.strong_induction_on generalizing ls with
  | _ n ih =>
    subst hn
    cases ls with
    | nil => exact ⟨[], [], rfl, .nil, .inl (by simp [IsBehindHead])⟩
    | cons l ls =>
      by_cases himport : IsPlainImport l
      · by_cases hmore : OpensMore l
        · rcases exists_closing_line ls with hopen | ⟨mid, last, after, rfl, hmid, hlast⟩
          · exact ⟨[], l :: ls, rfl, .nil, .inr ⟨l, ls, rfl, himport, hmore, hopen⟩⟩
          · obtain ⟨head, rest, rfl, hhead, hrest⟩ := ih after.length (by simp; omega) after rfl
            exact ⟨l :: (mid ++ [last]) ++ head, rest, by simp,
              .item (.more himport hmore hmid hlast) hhead, hrest⟩
        · obtain ⟨head, rest, rfl, hhead, hrest⟩ := ih ls.length (by simp) ls rfl
          exact ⟨[l] ++ head, rest, rfl, .item (.line himport hmore) hhead, hrest⟩
      · by_cases hlead : IsLead l
        · obtain ⟨head, rest, rfl, hhead, hrest⟩ := ih ls.length (by simp) ls rfl
          exact ⟨[l] ++ head, rest, rfl, .item (.lead hlead) hhead, hrest⟩
        · exact ⟨[], l :: ls, rfl, .nil, .inl (by simp [IsBehindHead, hlead, himport])⟩

/-! ### The walk over a head -/

/-- The lines of an import go on up to the first one that closes a parenthesis. -/
theorem linesThroughClose_append (hmid : ∀ m ∈ mid, ')' ∉ m) (hlast : ')' ∈ last)
    (ls : List Text) : linesThroughClose (mid ++ last :: ls) = mid.length + 1 := by
  induction mid with
  | nil => simp [linesThroughClose, hlast]
  | cons m mid ih =>
    obtain ⟨hm, hmid⟩ := List.forall_mem_cons.mp hmid
    simp [linesThroughClose, hm, ih hmid]

/-- Without a closing parenthesis there is one line too many. -/
theorem linesThroughClose_of_forall (h : ∀ m ∈ ls, ')' ∉ m) :
    linesThroughClose ls = ls.length + 1 := by
  induction ls with
  | nil => rfl
  | cons m ls ih =>
    obtain ⟨hm, hls⟩ := List.forall_mem_cons.mp h
    simp [linesThroughClose, hm, ih hls]

/-- The lines that belong to an import are passed over. -/
theorem importEndFrom_skip (mid : List Text) (seen found : Nat) (ls : List Text) :
    importEndFrom mid.length seen found (mid ++ ls) =
      importEndFrom 0 (seen + mid.length) found ls := by
  induction mid generalizing seen with
  | nil => rfl
  | cons m mid ih =>
    show importEndFrom mid.length (seen + 1) found (mid ++ ls) = _
    rw [ih, List.length_cons, Nat.add_assoc, Nat.add_comm 1]

/-- If all lines belong to an import, the walk ends with it. -/
theorem importEndFrom_skip_all {skip : Nat} (h : ls.length ≤ skip) (seen found : Nat) :
    importEndFrom skip seen found ls = found := by
  induction ls generalizing skip seen with
  | nil => cases skip <;> rfl
  | cons l ls ih =>
    cases skip with
    | zero => cases h
    | succ skip => exact ih (by simpa using h) (seen + 1)

/-- The walk passes an import on one line, and takes it for found. -/
theorem importEndFrom_line (himport : IsPlainImport l) (hmore : ¬OpensMore l) (seen found : Nat)
    (ls : List Text) :
    importEndFrom 0 seen found (l :: ls) = importEndFrom 0 (seen + 1) (seen + 1) ls := by
  have hnone : ¬((l.contains '(' && !l.contains ')') = true) := by
    simpa [OpensMore] using hmore
  rw [importEndFrom, if_pos (isStart_importLine_iff.mpr himport)]
  simp only [if_neg hnone, Nat.add_zero]

/-- The walk passes an import that goes on, with all of its lines. -/
theorem importEndFrom_more (himport : IsPlainImport l) (hmore : OpensMore l) (seen found : Nat)
    (ls : List Text) :
    importEndFrom 0 seen found (l :: ls) =
      importEndFrom (linesThroughClose ls) (seen + 1) (seen + 1 + linesThroughClose ls) ls := by
  have hsome : (l.contains '(' && !l.contains ')') = true := by
    simpa [OpensMore] using hmore
  rw [importEndFrom, if_pos (isStart_importLine_iff.mpr himport)]
  simp only [if_pos hsome]

/-- The walk passes the lines as a whole, and what it has found then lies in front of the rest. -/
def IsPassed (front : List Text) : Prop :=
  ∀ seen found : Nat, found ≤ seen → ∃ found' ≤ seen + front.length, ∀ ls,
    importEndFrom 0 seen found (front ++ ls) = importEndFrom 0 (seen + front.length) found' ls

/-- What is passed in two parts is passed as a whole. -/
theorem IsPassed.append {front front' : List Text} (h : IsPassed front) (h' : IsPassed front') :
    IsPassed (front ++ front') := by
  intro seen found hfound
  obtain ⟨found₁, hle₁, hfirst⟩ := h seen found hfound
  obtain ⟨found₂, hle₂, hsecond⟩ := h' _ found₁ hle₁
  rw [List.length_append, ← Nat.add_assoc]
  refine ⟨found₂, hle₂, fun ls => ?_⟩
  rw [List.append_assoc, hfirst, hsecond]

/-- The step of the walk: an import is found with all of its lines. -/
theorem IsItem.isPassed {item : List Text} (h : IsItem item) : IsPassed item := by
  intro seen found hfound
  cases h with
  | @lead l hlead =>
    refine ⟨found, Nat.le_add_right_of_le hfound, fun ls => ?_⟩
    exact importEndFrom_lead (List.forall_mem_singleton.mpr hlead) seen found ls
  | @line l himport hmore =>
    exact ⟨seen + 1, Nat.le_refl _, fun ls => importEndFrom_line himport hmore seen found ls⟩
  | @more l last mid himport hmore hmid hlast =>
    refine ⟨seen + 1 + (mid.length + 1), by simp; omega, fun ls => ?_⟩
    have hskip := importEndFrom_skip (mid ++ [last]) (seen + 1) (seen + 1 + (mid.length + 1)) ls
    have hlength : seen + (l :: (mid ++ [last])).length = seen + 1 + (mid ++ [last]).length := by
      rw [List.length_cons]
      omega
    rw [List.cons_append, importEndFrom_more himport hmore, hlength, ← hskip, List.append_assoc,
      List.singleton_append, linesThroughClose_append hmid hlast, List.length_append,
      List.length_singleton]

/-- The run of the walk over a head, by the steps over its items. -/
theorem IsFileHead.isPassed (h : IsFileHead head) : IsPassed head := by
  induction h with
  | nil => exact fun _ found hfound => ⟨found, hfound, fun _ => rfl⟩
  | item hitem _ ih => exact hitem.isPassed.append ih

/-! ### The position behind a head -/

/-- The lines of a file are those of its docstring, its head and the rest. -/
theorem length_eq_of_drop (hls : ls.drop (docstringLength ls) = head ++ rest) :
    ls.length = docstringLength ls + head.length + rest.length := by
  have hlength := congrArg List.length hls
  have hdoc := docstringLength_le ls
  rw [List.length_drop, List.length_append] at hlength
  omega

/-- An import that stays open is counted one line too long. -/
theorem importEnd_of_isOpenImport (hls : ls.drop (docstringLength ls) = head ++ rest)
    (hhead : IsFileHead head) (hrest : IsOpenImport rest) : importEnd ls = ls.length + 1 := by
  obtain ⟨l, rest, rfl, himport, hmore, hopen⟩ := hrest
  obtain ⟨found, -, hwalk⟩ := hhead.isPassed (docstringLength ls) _ (Nat.le_refl _)
  have hlength := length_eq_of_drop hls
  rw [importEnd, hls, hwalk, importEndFrom_more himport hmore, linesThroughClose_of_forall hopen,
    importEndFrom_skip_all (Nat.le_succ _)]
  rw [List.length_cons] at hlength
  omega

/-- If nothing or code comes behind the head, the position lies in it. -/
theorem importEnd_le_of_isBehindHead (hls : ls.drop (docstringLength ls) = head ++ rest)
    (hhead : IsFileHead head) (hrest : IsBehindHead rest) : importEnd ls ≤ ls.length := by
  obtain ⟨found, hfound, hwalk⟩ := hhead.isPassed (docstringLength ls) _ (Nat.le_refl _)
  have hlength := length_eq_of_drop hls
  have hend : importEndFrom 0 (docstringLength ls + head.length) found rest = found := by
    cases rest with
    | nil => rfl
    | cons l rest =>
      obtain ⟨hlead, himport⟩ := hrest l (by simp)
      exact importEndFrom_code hlead himport _ _ rest
  rw [importEnd, hls, hwalk, hend]
  omega

end

end Python

namespace JavaScript

/-! ### Imports of modules -/

/-- Only lines that are there belong to an import. -/
theorem importRest_le (l : Text) (ls : List Text) : importRest l ls ≤ ls.length := by
  induction ls generalizing l with
  | nil => exact Nat.le_refl 0
  | cons next ls ih =>
    rw [importRest]
    split
    · exact Nat.zero_le _
    · exact Nat.succ_le_succ (ih next)

/-- The invariant of the walk: what has been found lies in the lines that are passed and those that
are still to come. -/
theorem importEndFrom_le {skip seen found : Nat} {ls : List Text} (h : found ≤ seen + ls.length) :
    importEndFrom skip seen found ls ≤ seen + ls.length := by
  induction ls generalizing skip seen found with
  | nil =>
    cases skip <;> exact h
  | cons l ls ih =>
    rw [List.length_cons] at h ⊢
    have hseen : seen + (ls.length + 1) = seen + 1 + ls.length := by omega
    rw [hseen] at h ⊢
    cases skip with
    | succ skip => exact ih h
    | zero =>
      rw [importEndFrom]
      split
      · -- An import is found with all of its lines, and they are among those to come.
        refine ih ?_
        split
        · exact Nat.add_le_add_left (importRest_le l ls) _
        · omega
      · split
        · exact h
        · exact ih h

/-- The position behind the imports lies among the lines or at their end. -/
theorem importEnd_le_length (ls : List Text) : importEnd ls ≤ ls.length := by
  have h : importEndFrom 0 0 0 ls ≤ 0 + ls.length := importEndFrom_le (Nat.zero_le _)
  rwa [Nat.zero_add] at h

end JavaScript

/-! ### Both languages -/

/-- The positions behind the heads lie among the lines or at their end, but in Python only if no
open import comes behind the head. If one does, the position is one line too far. -/
theorem importEnd_le_length_iff (ls : List Text) :
    (Python.importEnd ls ≤ ls.length ↔ ¬Python.LeavesImportOpen ls) ∧
      Python.importEnd ls ≤ ls.length + 1 ∧ JavaScript.importEnd ls ≤ ls.length := by
  obtain ⟨head, rest, hls, hhead, hrest⟩ :=
    Python.exists_head (ls.drop (Python.docstringLength ls))
  refine ⟨?_, ?_, JavaScript.importEnd_le_length ls⟩
  · constructor
    · rintro hle ⟨head, rest, hls, hhead, hopen⟩
      rw [Python.importEnd_of_isOpenImport hls hhead hopen] at hle
      omega
    · intro hclosed
      rcases hrest with hbehind | hopen
      · exact Python.importEnd_le_of_isBehindHead hls hhead hbehind
      · exact absurd ⟨head, rest, hls, hhead, hopen⟩ hclosed
  · rcases hrest with hbehind | hopen
    · exact Nat.le_succ_of_le (Python.importEnd_le_of_isBehindHead hls hhead hbehind)
    · exact Nat.le_of_eq (Python.importEnd_of_isOpenImport hls hhead hopen)

/-- The position behind an import that is still being written is one line too far. -/
theorem importEnd_passes_last_line :
    ["import os".toList, "from typing import (".toList, "    Any,".toList].length <
      Python.importEnd ["import os".toList, "from typing import (".toList, "    Any,".toList] := by
  decide +kernel

end CodeTidy
