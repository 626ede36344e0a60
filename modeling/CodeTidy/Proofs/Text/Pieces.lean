import CodeTidy.Proofs.Text.Lines
import CodeTidy.Proofs.Text.Tables
import CodeTidy.Rule.Nesting
import Mathlib.Data.List.TakeDrop

/-!
# `CodeTidy.Proofs.Text.Pieces`: what the pieces of a text are made of

Texts are trimmed, cut and filled in. No character turns up that was not there
before. The theorems:

* `trim_subset`, `replaceAll_subset`, `cutAt?_subset`, `mem_of_mem_splitAtEach`:
  the pieces of a text.
* `trim_of_all_isWord`: a name is trimmed.
* `takeWhile_append_of_head`, `cutAt?_append`, `eq_of_cutAt?`: what stands around the first
  character of a set, or the first separator.
* `Nesting.subset_of_mem_cutFrom`, `subset_of_mem_splitParams`: the parameters
  of a list.
-/

set_option autoImplicit false

namespace CodeTidy

open Text

namespace Text

variable {t : Text}

/-- To trim a text adds no character. -/
theorem trim_subset (t : Text) : trim t ⊆ t := by
  obtain ⟨s, s', ht, -⟩ := exists_blanks_around t
  intro c hc
  rw [ht]
  exact List.mem_append_right s (List.mem_append_left s' hc)

/-- A word has nothing to trim. -/
theorem trim_of_all_isWord {n : Text} (hn : n.all isWord = true) : trim n = n := by
  obtain ⟨s, s', hsplit, hs, hs'⟩ := exists_blanks_around n
  have hnil {u : Text} (hu : u.all isBlank = true) (hsub : u ⊆ n) : u = [] := by
    refine List.eq_nil_iff_forall_not_mem.mpr fun c hc => ?_
    have hword := List.all_eq_true.mp hn c (hsub hc)
    rw [isWord_of_isBlank (List.all_eq_true.mp hu c hc)] at hword
    cases hword
  have hbefore : s = [] := hnil hs fun c hc => by
    rw [hsplit]
    exact List.mem_append_left _ hc
  have hbehind : s' = [] := hnil hs' fun c hc => by
    rw [hsplit]
    exact List.mem_append_right _ (List.mem_append_right _ hc)
  rw [hbefore, hbehind, List.nil_append, List.append_nil] at hsplit
  exact hsplit.symm

/-- A stretch that satisfies a condition ends in front of a text that does not begin so. -/
theorem takeWhile_append_of_head {p : Char → Bool} {u r : Text} (hu : ∀ c ∈ u, p c = true)
    (hr : r.head?.all (fun c => !p c) = true) :
    (u ++ r).takeWhile p = u ∧ (u ++ r).dropWhile p = r := by
  rw [List.takeWhile_append_of_pos hu, List.dropWhile_append_of_pos hu]
  cases r with
  | nil => exact ⟨List.append_nil u, rfl⟩
  | cons c r =>
    have hc : p c = false := by simpa using hr
    rw [List.takeWhile_cons_of_neg (by simp [hc]), List.dropWhile_cons_of_neg (by simp [hc])]
    exact ⟨List.append_nil u, rfl⟩

/-- To replace adds no characters but those that are put in. -/
theorem replaceFrom_subset (old new : Text) (skip : Nat) (t : Text) :
    replaceFrom old new skip t ⊆ new ++ t := by
  induction t generalizing skip with
  | nil =>
    rw [replaceFrom]
    exact List.nil_subset _
  | cons a t ih =>
    intro c hc
    -- While characters of an occurrence are passed over, nothing is put in.
    cases skip with
    | succ skip =>
      have hrest := ih skip hc
      grind
    | zero =>
      rw [replaceFrom] at hc
      split at hc
      · have hrest := @ih (old.length - 1) c
        grind
      · have hrest := @ih 0 c
        grind

/-- The same for a whole text. -/
theorem replaceAll_subset {old : Text} (hold : old ≠ []) (new t : Text) :
    replaceAll old new t ⊆ new ++ t := by
  rw [replaceAll, if_neg (by rwa [List.isEmpty_iff])]
  exact replaceFrom_subset old new 0 t

/-- A text is cut at the first separator. -/
theorem cutAt?_append {a : Char} {s : Text} (h : a ∉ s) (r : Text) :
    cutAt? a (s ++ a :: r) = some (s, r) := by
  have hpass : ∀ b ∈ s, (b != a) = true := by
    intro b hb
    rw [bne_iff_ne]
    rintro rfl
    exact h hb
  rw [cutAt?, List.span_eq_takeWhile_dropWhile, List.takeWhile_append_of_pos hpass,
    List.dropWhile_append_of_pos hpass]
  simp

/-- The two parts with the separator between them are the text. -/
theorem eq_of_cutAt? {sep : Char} {key value : Text} (h : cutAt? sep t = some (key, value)) :
    t = key ++ sep :: value := by
  have hend := List.head?_dropWhile_not (· != sep) t
  have hsplit := List.takeWhile_append_dropWhile (p := (· != sep)) (l := t)
  rw [cutAt?, List.span_eq_takeWhile_dropWhile] at h
  cases hafter : t.dropWhile (· != sep) with
  | nil =>
    rw [hafter] at h
    cases h
  | cons a after =>
    rw [hafter] at h hend hsplit
    cases h
    obtain rfl : a = sep := by simpa using hend
    exact hsplit.symm

/-- The part behind the cut is of the text. -/
theorem cutAt?_subset {sep : Char} {key value : Text} (h : cutAt? sep t = some (key, value)) :
    value ⊆ t := by
  rw [eq_of_cutAt? h]
  exact fun c hc => List.mem_append_right _ (List.mem_cons_of_mem sep hc)

/-- A piece between separators holds none of them. -/
theorem mem_of_mem_splitAtEach {sep : Char → Bool} {w : Text} (h : w ∈ splitAtEach sep t) {c : Char}
    (hc : c ∈ w) : c ∈ t ∧ sep c = false := by
  induction t generalizing w with
  | nil =>
    rw [List.mem_singleton.mp h] at hc
    cases hc
  | cons a t ih =>
    rw [splitAtEach_cons] at h
    split at h
    · rcases List.mem_cons.mp h with rfl | h
      · cases hc
      · exact ⟨List.mem_cons_of_mem a (ih h hc).1, (ih h hc).2⟩
    · next ha =>
      -- A character that is no separator belongs to the first piece of the rest.
      cases hrest : splitAtEach sep t with
      | nil => exact absurd hrest (splitAtEach_ne_nil sep t)
      | cons first rest =>
        rw [hrest] at h ih
        rcases List.mem_cons.mp h with rfl | h
        · rcases List.mem_cons.mp hc with rfl | hc
          · exact ⟨List.mem_cons_self, by simpa using ha⟩
          · have hfirst := ih List.mem_cons_self hc
            exact ⟨List.mem_cons_of_mem a hfirst.1, hfirst.2⟩
        · have hlater := ih (List.mem_cons_of_mem first h) hc
          exact ⟨List.mem_cons_of_mem a hlater.1, hlater.2⟩

end Text

/-- Each piece of a text that is cut outside of brackets consists of its characters. -/
theorem Nesting.subset_of_mem_cutFrom (n : Nesting) (s : State) {t piece : Text}
    (h : piece ∈ n.cutFrom s t) : piece ⊆ t := by
  induction t generalizing s piece with
  | nil =>
    rw [cutFrom, List.mem_singleton] at h
    rw [h]
    exact List.nil_subset _
  | cons a t ih =>
    rw [cutFrom] at h
    split at h
    · rcases List.mem_cons.mp h with rfl | h
      · exact List.nil_subset _
      · exact List.subset_cons_of_subset a (ih s h)
    · -- A character that does not cut belongs to the first piece of the rest.
      cases hcut : n.cutFrom (n.step s a) t with
      | nil =>
        rw [hcut, List.mem_singleton] at h
        rw [h]
        exact List.cons_subset_cons a (List.nil_subset t)
      | cons first rest =>
        rw [hcut] at h
        rcases List.mem_cons.mp h with rfl | h
        · exact List.cons_subset_cons a (ih _ (hcut ▸ List.mem_cons_self))
        · exact List.subset_cons_of_subset a (ih _ (hcut ▸ List.mem_cons_of_mem first h))

/-- A parameter consists of characters of the list it is taken from. -/
theorem subset_of_mem_splitParams {t param : Text} (h : param ∈ splitParams t) : param ⊆ t := by
  obtain ⟨piece, hpiece, rfl⟩ := List.mem_map.mp (List.mem_of_mem_filter h)
  exact List.Subset.trans (trim_subset piece) (Nesting.params.subset_of_mem_cutFrom _ hpiece)

end CodeTidy
