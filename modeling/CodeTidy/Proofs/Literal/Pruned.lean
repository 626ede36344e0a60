import CodeTidy.Proofs.Literal.Reader

/-!
# `CodeTidy.Proofs.Literal.Pruned`: texts without some of their lines

Where whole lines are taken out of a text, a line goes with the line feed in front of it. A reader
of strings and comments that has come to the end of a kept line goes on with the next kept one. It
is not escaped there if the kept line does not end in a backslash. So no string is closed that was
not closed before, and a literal that holds none of the lines stays as it is. The theorems:

* `Pruned.isPrefixOf_eq`, `Pruned.head?_all`: what stands at the start of both texts.
* `LiteralGrammar.literal?_eq_none_of_pruned`: where no literal begins, none begins behind.
* `LiteralGrammar.literal?_append_of_pruned`: a literal stays the same if lines go behind it.
-/

set_option autoImplicit false

namespace CodeTidy

open Text

/-- The second text is the first one without some of the lines that `drops` holds of, each of which
goes with the line feed in front of it. The texts stand behind a backslash or not, and no line goes
directly behind a backslash if that is `guarded`. -/
inductive Pruned (drops : Text → Bool) (guarded : Bool) : Bool → Text → Text → Prop where
  | nil (behind : Bool) : Pruned drops guarded behind [] []
  | keep {behind : Bool} (a : Char) {t t' : Text} (h : Pruned drops guarded (a == '\\') t t') :
      Pruned drops guarded behind (a :: t) (a :: t')
  | drop {behind : Bool} {l t t' : Text} (hl : drops l = true) (hline : '\n' ∉ l)
      (hend : t.head?.all (· == '\n') = true) (hbehind : guarded = true → behind = false)
      (h : Pruned drops guarded behind t t') : Pruned drops guarded behind ('\n' :: (l ++ t)) t'

/-- Whether a text ends in a backslash, or is empty and stands behind one. -/
def endsInSlash : Bool → Text → Bool
  | behind, [] => behind
  | _, a :: u => endsInSlash (a == '\\') u

namespace Pruned

variable {drops : Text → Bool} {guarded behind : Bool} {t t' : Text} {a : Char}

/-- No line goes from an empty text. -/
theorem of_nil (h : Pruned drops guarded behind [] t') : t' = [] := by
  cases h
  rfl

/-- Characters other than line feeds are kept. -/
theorem of_cons (h : Pruned drops guarded behind (a :: t) t') (ha : a ≠ '\n') :
    ∃ t₁, t' = a :: t₁ ∧ Pruned drops guarded (a == '\\') t t₁ := by
  cases h with
  | keep _ h => exact ⟨_, rfl, h⟩
  | drop => exact absurd rfl ha

/-- A stretch in which no line begins that is taken out is kept. -/
theorem of_append_of_kept {u : Text} (h : Pruned drops guarded behind (u ++ t) t')
    (hkept : ∀ x y, u = x ++ '\n' :: y → drops (firstLine (y ++ t)) = false) :
    ∃ t₁, t' = u ++ t₁ ∧ Pruned drops guarded (endsInSlash behind u) t t₁ := by
  induction u generalizing behind t' with
  | nil => exact ⟨t', rfl, h⟩
  | cons a u ih =>
    generalize hx : a :: u ++ t = x at h
    cases h with
    | nil => cases hx
    | keep b h =>
      obtain ⟨rfl, rfl⟩ := List.cons.inj hx
      obtain ⟨t₁, rfl, h₁⟩ := ih h fun x y hu => hkept (a :: x) y (by rw [hu, List.cons_append])
      exact ⟨t₁, rfl, h₁⟩
    -- The line feed is one of the front, and the line behind it is kept.
    | drop hl hline hend =>
      obtain ⟨rfl, hrest⟩ := List.cons.inj hx
      have hfirst := hkept [] u rfl
      have hrest : u ++ t = _ := hrest
      rw [hrest, firstLine_eq hline hend, hl] at hfirst
      cases hfirst

/-- A front without line feeds stays. -/
theorem of_append {u : Text} (hu : '\n' ∉ u) (h : Pruned drops guarded behind (u ++ t) t') :
    ∃ t₁, t' = u ++ t₁ ∧ Pruned drops guarded (endsInSlash behind u) t t₁ :=
  h.of_append_of_kept fun x y hx => absurd (by rw [hx]; simp) hu

/-- Behind a front lines go as they do elsewhere, if it ends in a backslash as the text does. -/
theorem append_left (u : Text) (h : Pruned drops guarded (endsInSlash behind u) t t') :
    Pruned drops guarded behind (u ++ t) (u ++ t') := by
  induction u generalizing behind with
  | nil => exact h
  | cons a u ih => exact .keep a (ih h)

/-- Where the first text goes on with a new line, so does the second. -/
theorem head?_all (h : Pruned drops guarded behind t t') (ht : t.head?.all (· == '\n') = true) :
    t'.head?.all (· == '\n') = true := by
  induction h with
  | nil => rfl
  | keep => exact ht
  | drop _ _ hend _ _ ih => exact ih hend

/-- Where the second text goes on in the line, so does the first. -/
theorem to_cons (h : Pruned drops guarded behind t (a :: t')) (ha : a ≠ '\n') :
    ∃ t₁, t = a :: t₁ ∧ Pruned drops guarded (a == '\\') t₁ t' := by
  cases h with
  | keep _ h => exact ⟨_, rfl, h⟩
  | drop _ _ hend _ h =>
    have hhead := h.head?_all hend
    rw [List.head?_cons, Option.all_some, beq_iff_eq] at hhead
    exact absurd hhead ha

/-- What is left are characters of the text in order. -/
theorem sublist (h : Pruned drops guarded behind t t') : t'.Sublist t := by
  induction h with
  | nil => exact .slnil
  | keep a _ ih => exact ih.cons_cons a
  | @drop _ l t _ _ _ _ _ _ ih => exact (List.sublist_append_of_sublist_right ih).cons '\n'

/-- What stands in one line stands at the start of both texts, or of none. -/
theorem isPrefixOf_eq (h : Pruned drops guarded behind t t') {w : Text} (hw : '\n' ∉ w) :
    w.isPrefixOf t = w.isPrefixOf t' := by
  induction w generalizing behind t t' with
  | nil => rfl
  | cons b w ih =>
    rw [List.mem_cons, not_or] at hw
    have hb : b ≠ '\n' := Ne.symm hw.1
    rw [Bool.eq_iff_iff, List.isPrefixOf_iff_prefix, List.isPrefixOf_iff_prefix]
    -- What goes begins with a line feed, so a start without any stays and is not made up.
    constructor
    · rintro ⟨r, rfl⟩
      obtain ⟨t₁, rfl, h₁⟩ := h.of_cons hb
      have hstart : w.isPrefixOf t₁ = true := by
        rw [← ih h₁ hw.2]
        exact List.isPrefixOf_iff_prefix.mpr (List.prefix_append w r)
      exact List.cons_prefix_cons.mpr ⟨rfl, List.isPrefixOf_iff_prefix.mp hstart⟩
    · rintro ⟨r, rfl⟩
      obtain ⟨t₁, rfl, h₁⟩ := h.to_cons hb
      have hstart : w.isPrefixOf t₁ = true := by
        rw [ih h₁ hw.2]
        exact List.isPrefixOf_iff_prefix.mpr (List.prefix_append w r)
      exact List.cons_prefix_cons.mpr ⟨rfl, List.isPrefixOf_iff_prefix.mp hstart⟩

/-- Any character but a line feed is the first of both texts or of neither. -/
theorem head?_beq_eq (h : Pruned drops guarded behind t t') (ha : a ≠ '\n') :
    (t.head? == some a) = (t'.head? == some a) := by
  have hhead (t : Text) : (t.head? == some a) = [a].isPrefixOf t := by
    cases t with
    | nil => rfl
    | cons b t =>
      rw [List.isPrefixOf_cons_cons, List.isPrefixOf_nil_left, Bool.and_true, Bool.beq_comm]
      rfl
  rw [hhead, hhead]
  exact h.isPrefixOf_eq (by simpa using Ne.symm ha)

end Pruned

section

variable {drops : Text → Bool} {guarded behind : Bool} {t t' : Text}

/-! ### Strings and comments of programs -/

namespace Generic

/-- Behind a character that both texts go on with, a string that is not closed stays so. -/
theorem quotedRest?_cons_eq_none {stops : Text} {quote a : Char}
    (h : ∀ e, (e = true → (a == '\\') = true) → quotedRest? stops quote e t = none →
      quotedRest? stops quote e t' = none)
    {isEscaped : Bool} (hnone : quotedRest? stops quote isEscaped (a :: t) = none) :
    quotedRest? stops quote isEscaped (a :: t') = none := by
  -- The character does the same in both texts; only the texts behind it differ.
  cases isEscaped with
  | true =>
    rw [quotedRest?, Option.map_eq_none_iff] at hnone ⊢
    exact h false (fun he => absurd he Bool.false_ne_true) hnone
  | false =>
    rw [quotedRest?] at hnone ⊢
    split at hnone
    · next hslash =>
      rw [if_pos hslash, Option.map_eq_none_iff]
      exact h true (fun _ => hslash) (Option.map_eq_none_iff.mp hnone)
    · next hslash =>
      rw [if_neg hslash]
      split at hnone
      · cases hnone
      · next hclose =>
        rw [if_neg hclose]
        split at hnone
        · next hstop => rw [if_pos hstop]
        · next hstop =>
          rw [if_neg hstop, Option.map_eq_none_iff]
          exact h false (fun he => absurd he Bool.false_ne_true) (Option.map_eq_none_iff.mp hnone)

/-- A string on a line that is not closed is not closed without the lines: it ends with its line
unless that ends in a backslash, and behind one no line goes. -/
theorem quotedRest?_eq_none_of_line {stops : Text} {quote : Char} (hstops : '\n' ∈ stops)
    (hquote : quote ≠ '\n') (h : Pruned drops true behind t t') {isEscaped : Bool}
    (hescaped : isEscaped = true → behind = true)
    (hnone : quotedRest? stops quote isEscaped t = none) :
    quotedRest? stops quote isEscaped t' = none := by
  induction h generalizing isEscaped with
  | nil => exact hnone
  | keep a _ ih => exact quotedRest?_cons_eq_none (fun e he hrest => ih he hrest) hnone
  | @drop behind l t t' _ _ hend hbehind h _ =>
    -- Nothing stands behind the line but a line feed, at which the string breaks off.
    cases isEscaped with
    | true => exact absurd (hescaped rfl) (by rw [hbehind rfl]; decide)
    | false =>
      have hhead := h.head?_all hend
      cases t' with
      | nil => rfl
      | cons a t' =>
        rw [List.head?_cons, Option.all_some, beq_iff_eq] at hhead
        rw [hhead]
        exact quotedRest?_stop (by decide) (Ne.symm hquote) hstops t'

/-- A reader that is behind a line that it has not ended with goes on with the next one, escaped or
not. -/
theorem none_behind_line {rest? : Bool → Text → Option Text}
    (hstep : ∀ isEscaped a r, rest? isEscaped (a :: r) = none → ∃ e, rest? e r = none)
    (hfeed : ∀ isEscaped r, rest? isEscaped ('\n' :: r) = (rest? false r).map ('\n' :: ·))
    (hnil : ∀ isEscaped, rest? isEscaped [] = none) {l : Text}
    (hend : t.head?.all (· == '\n') = true) (isEscaped : Bool)
    (hnone : rest? isEscaped (l ++ t) = none) (isEscaped' : Bool) : rest? isEscaped' t = none := by
  -- The induction is on the line; whether the reader is behind a backslash changes on the way.
  induction l generalizing isEscaped with
  | nil =>
    cases t with
    | nil => exact hnil isEscaped'
    | cons a r =>
      rw [List.head?_cons, Option.all_some, beq_iff_eq] at hend
      subst hend
      rw [List.nil_append, hfeed] at hnone
      rwa [hfeed]
  | cons a l ih =>
    obtain ⟨e, he⟩ := hstep isEscaped a (l ++ t) hnone
    exact ih e he

/-- A string that may go on over several lines and is not closed is not closed without some of
them. -/
theorem quotedRest?_eq_none_of_pruned {quote : Char} (hquote : quote ≠ '\n')
    (h : Pruned drops guarded behind t t') {isEscaped : Bool}
    (hnone : quotedRest? [quote] quote isEscaped t = none) :
    quotedRest? [quote] quote isEscaped t' = none := by
  -- An unclosed string is unclosed from each of its characters on, though escaped or not.
  have hstep (isEscaped : Bool) (a : Char) (r : Text)
      (hnone : quotedRest? [quote] quote isEscaped (a :: r) = none) :
      ∃ e, quotedRest? [quote] quote e r = none := by
    cases isEscaped with
    | true => exact ⟨false, Option.map_eq_none_iff.mp hnone⟩
    | false =>
      rw [quotedRest?] at hnone
      split at hnone
      · exact ⟨true, Option.map_eq_none_iff.mp hnone⟩
      · split at hnone
        · cases hnone
        · next hclose =>
          rw [if_neg (by simpa using hclose)] at hnone
          exact ⟨false, Option.map_eq_none_iff.mp hnone⟩
  have hfeed (isEscaped : Bool) (r : Text) : quotedRest? [quote] quote isEscaped ('\n' :: r) =
      (quotedRest? [quote] quote false r).map ('\n' :: ·) := by
    cases isEscaped with
    | true => rfl
    | false =>
      exact quotedRest?_plain (by decide) (Ne.symm hquote) (by simpa using Ne.symm hquote) r
  induction h generalizing isEscaped with
  | nil => exact hnone
  | keep a _ ih => exact quotedRest?_cons_eq_none (fun e _ hrest => ih hrest) hnone
  | drop _ _ hend _ _ ih =>
    rw [hfeed, Option.map_eq_none_iff] at hnone
    exact ih (none_behind_line hstep hfeed (fun e => by cases e <;> rfl) hend _ hnone _)

/-- A block comment that is not closed is not closed without some lines. -/
theorem blockRest?_eq_none_of_pruned (h : Pruned drops guarded behind t t')
    (hnone : blockRest? t = none) : blockRest? t' = none := by
  have hstep (a : Char) (r : Text) (hnone : blockRest? (a :: r) = none) : blockRest? r = none := by
    rw [blockRest?] at hnone
    split at hnone
    · cases hnone
    · exact Option.map_eq_none_iff.mp hnone
  induction h with
  | nil => exact hnone
  | keep a h ih =>
    have hrest := ih (hstep _ _ hnone)
    rw [blockRest?, h.head?_beq_eq (by decide)] at hnone
    rw [blockRest?]
    split at hnone
    · cases hnone
    · next hclose => rw [if_neg hclose, hrest, Option.map_none]
  -- The line that goes does not close the comment, so what is behind it does not either.
  | drop _ _ hend _ _ ih =>
    have hstep' (_ : Bool) (a : Char) (r : Text) (hnone : blockRest? (a :: r) = none) :
        ∃ _ : Bool, blockRest? r = none := ⟨false, hstep a r hnone⟩
    exact ih (none_behind_line hstep' (fun _ _ => rfl) (fun _ => rfl) hend false
      (hstep _ _ hnone) false)

/-- A block comment that goes on behind a line feed is read on from there. -/
theorem blockRest?_behind {l r u : Text} (h : blockRest? (l ++ '\n' :: r) = some (l ++ '\n' :: u)) :
    blockRest? ('\n' :: r) = some ('\n' :: u) := by
  induction l with
  | nil => exact h
  | cons a l ih =>
    rw [List.cons_append, List.cons_append, blockRest?] at h
    split at h
    · have hmem : '\n' ∈ ['/'] := by
        rw [(List.cons.inj (Option.some.inj h)).2]
        simp
      exact absurd hmem (by decide)
    · obtain ⟨w, hw, heq⟩ := Option.map_eq_some_iff.mp h
      rw [(List.cons.inj heq).2] at hw
      exact ih hw

/-- A block comment loses lines, but not the last one. -/
theorem exists_of_blockRest?_pruned {v : Text} (hrest : blockRest? (v ++ t) = some v)
    (h : Pruned drops guarded behind (v ++ t) t')
    (hlast : ∀ x y, v = x ++ '\n' :: y → '\n' ∉ y → drops (firstLine (y ++ t)) = false) :
    ∃ v' t₁, t' = v' ++ t₁ ∧ blockRest? (v' ++ t₁) = some v' ∧
      ∃ behind', Pruned drops guarded behind' t t₁ := by
  -- A line that is taken out is several characters, so the induction is on the length.
  generalize hn : v.length = n
  induction n using Nat.strongRecOn generalizing v behind t' with
  | ind n ih =>
    obtain _ | ⟨a, w⟩ := v
    · obtain ⟨-, x, hx⟩ := exists_of_blockRest? hrest
      exact absurd hx.symm (by simp)
    have hlt : w.length < n := by
      rw [← hn]
      exact Nat.lt_succ_self _
    rw [List.cons_append, blockRest?] at hrest
    split at hrest
    · obtain ⟨rfl, rfl⟩ := List.cons.inj (Option.some.inj hrest)
      obtain ⟨t₁, rfl, h₁⟩ := h.of_append (by decide)
      exact ⟨['*', '/'], t₁, rfl, rfl, _, h₁⟩
    · next hclose =>
      obtain ⟨w', hw, heq⟩ := Option.map_eq_some_iff.mp hrest
      obtain rfl := (List.cons.inj heq).2
      generalize hx : a :: w' ++ t = x at h
      cases h with
      | nil => cases hx
      | keep b h =>
        obtain ⟨rfl, rfl⟩ := List.cons.inj hx
        have h : Pruned drops guarded (a == '\\') (w' ++ t) _ := h
        rw [h.head?_beq_eq (by decide)] at hclose
        obtain ⟨v', t₁, rfl, hv', behind', h₁⟩ := ih _ hlt hw h
          (fun x y hxy => hlast (a :: x) y (by rw [hxy, List.cons_append])) rfl
        exact ⟨a :: v', t₁, rfl, by rw [List.cons_append, blockRest?, if_neg hclose, hv']; rfl,
          behind', h₁⟩
      | @drop _ l t₂ _ hl hline hend _ h =>
        obtain ⟨rfl, hsplit⟩ := List.cons.inj hx
        have hsplit : w' ++ t = l ++ t₂ := hsplit
        -- The line that is taken out ends in the comment, or else it would be its last one.
        have hinside : '\n' ∈ w' := by
          by_contra hnot
          have hkept := hlast [] w' rfl hnot
          rw [hsplit, firstLine_eq hline hend, hl] at hkept
          cases hkept
        obtain ⟨l', w₂, rfl, hl'⟩ := List.eq_append_cons_of_mem hinside
        have hfirst := congrArg firstLine hsplit
        rw [List.append_assoc, List.cons_append, firstLine_eq hl' rfl, firstLine_eq hline hend]
          at hfirst
        subst hfirst
        rw [List.append_assoc, List.cons_append] at hsplit hw
        obtain rfl := List.append_cancel_left hsplit
        refine ih ('\n' :: w₂).length ?_ (blockRest?_behind hw) h
          (fun x y hxy => hlast ('\n' :: (l' ++ x)) y (by rw [hxy]; simp)) rfl
        rw [List.length_append] at hlt
        omega

/-- Where no literal begins, none begins without some lines behind. -/
theorem literal?_eq_none_of_pruned {a : Char} (h : Pruned drops true (a == '\\') t t')
    (hnone : literal? (a :: t) = none) : literal? (a :: t') = none := by
  have hline {quote : Char} (hquote : quote ≠ '\n') (hslash : quote ≠ '\\')
      (h : Pruned drops true (quote == '\\') t t')
      (hnone : (quotedRest? [quote, '\n'] quote false t).map (quote :: ·) = none) :
      (quotedRest? [quote, '\n'] quote false t').map (quote :: ·) = none := by
    rw [Option.map_eq_none_iff] at hnone ⊢
    exact quotedRest?_eq_none_of_line (by simp) hquote h
      (fun he => absurd he Bool.false_ne_true) hnone
  -- The character behind the first one is the same in both texts, and so is the kind of literal.
  rw [literal?, h.head?_beq_eq (by decide), h.head?_beq_eq (by decide)] at hnone
  rw [literal?]
  split at hnone
  · next hblock =>
    rw [if_pos hblock, Option.map_eq_none_iff]
    rw [Bool.and_eq_true, beq_iff_eq, ← h.head?_beq_eq (by decide)] at hblock
    cases t with
    | nil => cases hblock.2
    | cons b t =>
      obtain ⟨t₁, rfl, h₁⟩ := h.of_cons (by rintro rfl; cases hblock.2)
      exact blockRest?_eq_none_of_pruned h₁ (Option.map_eq_none_iff.mp hnone)
  · next hblock =>
    rw [if_neg hblock]
    split at hnone
    · cases hnone
    · next hcomment =>
      rw [if_neg hcomment]
      split at hnone
      · next hdouble =>
        rw [if_pos hdouble]
        rw [beq_iff_eq] at hdouble
        subst hdouble
        exact hline (by decide) (by decide) h hnone
      · next hdouble =>
        rw [if_neg hdouble]
        split at hnone
        · next hsingle =>
          rw [if_pos hsingle]
          rw [beq_iff_eq] at hsingle
          subst hsingle
          exact hline (by decide) (by decide) h hnone
        · next hsingle =>
          rw [if_neg hsingle]
          split at hnone
          · next hback =>
            rw [if_pos hback, Option.map_eq_none_iff]
            exact quotedRest?_eq_none_of_pruned (by decide) h (Option.map_eq_none_iff.mp hnone)
          · next hback => rw [if_neg hback]

/-- A literal stays the same if lines go behind it. -/
theorem literal?_append_of_head? {u r r' : Text} (h : literal? (u ++ r) = some u)
    (hr : r.head?.all (· == '\n') = true → r'.head?.all (· == '\n') = true) :
    literal? (u ++ r') = some u := by
  rw [literal?_eq_some_iff] at h ⊢
  generalize hx : u ++ r = x at h
  cases h with
  | block hrest =>
    obtain rfl := (List.cons.inj (List.cons.inj hx).2).2
    exact .block (blockRest?_append hrest r')
  | line s =>
    have hs := (List.cons.inj (List.cons.inj hx).2).2
    have hliteral := IsLiteral.line (s.takeWhile (· != '\n') ++ r')
    rwa [firstLine_behind s (hr (head?_behind_line hs))] at hliteral
  | string hquote hrest =>
    obtain rfl := (List.cons.inj hx).2
    exact .string hquote (quotedRest?_append hrest r')

end Generic

/-! ### Strings and comments of scripts -/

namespace Python

/-- A triple-quoted string that is never closed is not closed by lines that go, either. -/
theorem blockRest?_eq_none_of_pruned {quote : Char} (hquote : quote ≠ '\n')
    (h : Pruned drops guarded behind t t') {isEscaped : Bool}
    (hnone : blockRest? quote isEscaped t = none) : blockRest? quote isEscaped t' = none := by
  have htriple : '\n' ∉ triple quote := by simpa [triple] using Ne.symm hquote
  have hstep (isEscaped : Bool) (a : Char) (r : Text)
      (hnone : blockRest? quote isEscaped (a :: r) = none) : ∃ e, blockRest? quote e r = none := by
    cases isEscaped with
    | true => exact ⟨false, Option.map_eq_none_iff.mp hnone⟩
    | false =>
      rw [blockRest?] at hnone
      split at hnone
      · cases hnone
      · exact ⟨_, Option.map_eq_none_iff.mp hnone⟩
  have hfeed (isEscaped : Bool) (r : Text) : blockRest? quote isEscaped ('\n' :: r) =
      (blockRest? quote false r).map ('\n' :: ·) := by
    cases isEscaped with
    | true => rfl
    | false =>
      rw [blockRest?, triple, List.isPrefixOf_cons_cons, beq_false_of_ne hquote, Bool.false_and,
        if_neg Bool.false_ne_true]
      rfl
  induction h generalizing isEscaped with
  | nil => exact hnone
  | @keep behind a t t' h ih =>
    cases isEscaped with
    | true =>
      rw [blockRest?, Option.map_eq_none_iff] at hnone ⊢
      exact ih hnone
    | false =>
      have hkeep : Pruned drops guarded behind (a :: t) (a :: t') := .keep a h
      rw [blockRest?, hkeep.isPrefixOf_eq htriple] at hnone
      rw [blockRest?]
      split at hnone
      · cases hnone
      · next hclose =>
        rw [if_neg hclose, Option.map_eq_none_iff]
        exact ih (Option.map_eq_none_iff.mp hnone)
  -- The line that goes does not close the string, so what is behind it does not either.
  | drop _ _ hend _ _ ih =>
    rw [hfeed, Option.map_eq_none_iff] at hnone
    exact ih (Generic.none_behind_line hstep hfeed (fun e => by cases e <;> rfl) hend _ hnone _)

/-- Where no triple-quoted string begins, none does once lines have gone. -/
theorem block?_eq_none_of_pruned {quote : Char} (hquote : quote ≠ '\n')
    (h : Pruned drops guarded behind t t') (hnone : block? quote t = none) :
    block? quote t' = none := by
  have htriple : '\n' ∉ triple quote := by simpa [triple] using Ne.symm hquote
  rw [block?, h.isPrefixOf_eq htriple] at hnone
  rw [block?]
  split at hnone
  · next hopen =>
    obtain ⟨r', rfl⟩ := List.isPrefixOf_iff_prefix.mp hopen
    obtain ⟨t₁, rfl, h₁⟩ := h.to_cons hquote
    obtain ⟨t₂, rfl, h₂⟩ := h₁.to_cons hquote
    obtain ⟨r, rfl, h₃⟩ := h₂.to_cons hquote
    rw [if_pos hopen, Option.map_eq_none_iff]
    exact blockRest?_eq_none_of_pruned hquote h₃ (Option.map_eq_none_iff.mp hnone)
  · next hopen => rw [if_neg hopen]

/-- A quote is no line feed. -/
theorem quote_ne_feed {quote : Char} (h : quote ∈ quotes) : quote ≠ '\n' := by
  rintro rfl
  exact absurd h (by decide)

/-- Where no literal begins, none begins without some lines behind. -/
theorem literal?_eq_none_of_pruned {a : Char} (h : Pruned drops true (a == '\\') t t')
    (hnone : literal? (a :: t) = none) : literal? (a :: t') = none := by
  by_cases ha : a ∈ quotes
  · have hiff (r : Text) : literal? (a :: r) = none ↔ lineRest? a r = none := by
      rw [← Option.not_isSome_iff_eq_none, ← Option.not_isSome_iff_eq_none,
        isSome_literal?_quote ha]
    rw [hiff] at hnone ⊢
    exact Generic.quotedRest?_eq_none_of_line (by simp) (quote_ne_feed ha) h
      (fun he => absurd he Bool.false_ne_true) hnone
  · have hbranch : ¬(a == '"' || a == '\'') = true := by simpa [quotes] using ha
    rw [literal?, if_neg hbranch] at hnone ⊢
    split at hnone
    · cases hnone
    · next hmark => rw [if_neg hmark]

/-- A literal stays the same if lines go behind it. -/
theorem literal?_append_of_pruned {u r r' : Text} (h : literal? (u ++ r) = some u)
    (hr : Pruned drops guarded (endsInSlash behind u) r r') : literal? (u ++ r') = some u := by
  refine literal?_of_isLiteral ?_
  have h := isLiteral_of_literal? h
  generalize hx : u ++ r = x at h
  cases h with
  | @block quote s u hquote hrest =>
    obtain rfl : u ++ r = s := List.append_cancel_left ((List.append_assoc ..).symm.trans hx)
    rw [List.append_assoc]
    exact .block hquote (blockRest?_append hrest r')
  -- A plain string is no triple-quoted one, before or after.
  | @line quote s u hquote hblock hrest =>
    obtain rfl := (List.cons.inj hx).2
    exact .line hquote (block?_eq_none_of_pruned (quote_ne_feed hquote) hr.append_left hblock)
      (Generic.quotedRest?_append hrest r')
  | comment s =>
    have hs := (List.cons.inj hx).2
    have hliteral := IsLiteral.comment (s.takeWhile (· != '\n') ++ r')
    rwa [firstLine_behind s (hr.head?_all (head?_behind_line hs))] at hliteral

end Python

/-! ### Strings and comments of queries -/

namespace Sql

/-- A string is unclosed exactly if no quote follows. -/
theorem stringRest?_eq_none_iff (t : Text) : stringRest? t = none ↔ '\'' ∉ t := by
  rw [← Option.not_isSome_iff_eq_none, isSome_stringRest?, decide_eq_true_eq]

/-- A quoted name is unclosed exactly if its quote does not follow. -/
theorem nameRest?_eq_none_iff (quote : Char) (t : Text) : nameRest? quote t = none ↔ quote ∉ t := by
  rw [← Option.not_isSome_iff_eq_none, isSome_nameRest?, decide_eq_true_eq]

/-- Where no literal begins, none does once lines have gone. -/
theorem literal?_eq_none_of_pruned {a : Char} (h : Pruned drops guarded behind t t')
    (hnone : literal? (a :: t) = none) : literal? (a :: t') = none := by
  -- An unclosed literal lacks its closing mark, which lines that go do not bring.
  have hsub {b : Char} (hmem : b ∉ t) : b ∉ t' := fun hmem' => hmem (h.sublist.subset hmem')
  rw [literal?, h.head?_beq_eq (by decide)] at hnone
  rw [literal?]
  split at hnone
  · next hstring =>
    rw [Option.map_eq_none_iff, stringRest?_eq_none_iff] at hnone
    rw [if_pos hstring, Option.map_eq_none_iff, stringRest?_eq_none_iff]
    exact hsub hnone
  · next hstring =>
    rw [if_neg hstring]
    split at hnone
    · next hname =>
      rw [Option.map_eq_none_iff, nameRest?_eq_none_iff] at hnone
      rw [if_pos hname, Option.map_eq_none_iff, nameRest?_eq_none_iff]
      exact hsub hnone
    · next hname =>
      rw [if_neg hname]
      split at hnone
      · next htick =>
        rw [Option.map_eq_none_iff, nameRest?_eq_none_iff] at hnone
        rw [if_pos htick, Option.map_eq_none_iff, nameRest?_eq_none_iff]
        exact hsub hnone
      · next htick =>
        rw [if_neg htick]
        split at hnone
        · cases hnone
        · next hcomment => rw [if_neg hcomment]

/-- What follows a string decides whether a quote in it is its last. -/
theorem stringRest?_append_of_pruned {u r r' : Text} (h : stringRest? (u ++ r) = some u)
    (hr : Pruned drops guarded behind r r') : stringRest? (u ++ r') = some u := by
  -- A doubled quote takes two characters at once, so the induction is on the length.
  generalize hn : u.length = n
  induction n using Nat.strongRecOn generalizing u with
  | ind n ih =>
    obtain _ | ⟨a, u⟩ := u
    · obtain ⟨-, v, hv⟩ := stringRest?_spec h
      exact absurd hv.symm (by simp)
    rw [List.cons_append] at h ⊢
    by_cases ha : a = '\''
    · subst ha
      by_cases hdouble : ∃ s, u ++ r = '\'' :: s
      · obtain ⟨s, hs⟩ := hdouble
        rw [hs, stringRest?] at h
        cases hrest : stringRest? s with
        | some w =>
          rw [hrest] at h
          obtain rfl := (List.cons.inj (Option.some.inj h)).2
          obtain rfl := (List.cons.inj hs).2
          show stringRest? ('\'' :: '\'' :: (w ++ r')) = _
          have hlt : w.length < n := by
            rw [← hn, List.length_cons, List.length_cons]
            omega
          rw [stringRest?, ih w.length hlt hrest rfl]
        | none =>
          -- The second quote opens no string that is closed, so the first one is the last.
          rw [hrest] at h
          obtain rfl := (List.cons.inj (Option.some.inj h)).2
          obtain rfl : r = '\'' :: s := hs
          obtain ⟨s', rfl, hs'⟩ := hr.of_cons (by decide)
          have hnone : stringRest? s' = none := by
            rw [stringRest?_eq_none_iff] at hrest ⊢
            exact fun hmem => hrest (hs'.sublist.subset hmem)
          rw [List.nil_append, stringRest?, hnone]
      · have hlone : ∀ s, u ++ r = '\'' :: s → False := fun s hs => hdouble ⟨s, hs⟩
        rw [stringRest?_quote hlone] at h
        obtain rfl := (List.cons.inj (Option.some.inj h)).2
        refine stringRest?_quote fun s hs => ?_
        obtain rfl : r' = '\'' :: s := hs
        obtain ⟨s', rfl, -⟩ := hr.to_cons (by decide)
        exact hlone s' rfl
    · rw [stringRest?_cons ha] at h ⊢
      cases hrest : stringRest? (u ++ r) with
      | none =>
        rw [hrest] at h
        cases h
      | some w =>
        rw [hrest] at h
        obtain rfl := (List.cons.inj (Option.some.inj h)).2
        rw [ih w.length (by rw [← hn, List.length_cons]; omega) hrest rfl]

/-- A literal stays the same if lines go behind it. -/
theorem literal?_append_of_pruned {u r r' : Text} (h : literal? (u ++ r) = some u)
    (hr : Pruned drops guarded behind r r') : literal? (u ++ r') = some u := by
  refine literal?_of_isLiteral ?_
  have h := isLiteral_of_literal? h
  generalize hx : u ++ r = x at h
  cases h with
  | string hrest =>
    obtain rfl := (List.cons.inj hx).2
    exact .string (stringRest?_append_of_pruned hrest hr)
  | name hquote hrest =>
    obtain rfl := (List.cons.inj hx).2
    exact .name hquote (nameRest?_append hrest r')
  | comment s =>
    have hs := (List.cons.inj (List.cons.inj hx).2).2
    have hliteral := IsLiteral.comment (s.takeWhile (· != '\n') ++ r')
    rwa [firstLine_behind s (hr.head?_all (head?_behind_line hs))] at hliteral

end Sql

/-! ### All grammars -/

namespace LiteralGrammar

/-- Whether a backslash escapes in the strings of the grammar. -/
def escapes (g : LiteralGrammar) : Bool := g != .sql

variable {g : LiteralGrammar}

/-- Where no literal begins, none begins without some lines behind. -/
theorem literal?_eq_none_of_pruned {a : Char} (h : Pruned drops g.escapes (a == '\\') t t')
    (hnone : g.literal? (a :: t) = none) : g.literal? (a :: t') = none := by
  cases g with
  | cStyle => exact Generic.literal?_eq_none_of_pruned h hnone
  | python => exact Python.literal?_eq_none_of_pruned h hnone
  | sql => exact Sql.literal?_eq_none_of_pruned h hnone

/-- A literal stays the same if lines go behind it. -/
theorem literal?_append_of_pruned {u r r' : Text} (h : g.literal? (u ++ r) = some u)
    (hr : Pruned drops guarded (endsInSlash behind u) r r') : g.literal? (u ++ r') = some u := by
  cases g with
  | cStyle => exact Generic.literal?_append_of_head? h hr.head?_all
  | python => exact Python.literal?_append_of_pruned h hr
  | sql => exact Sql.literal?_append_of_pruned h hr

end LiteralGrammar

end

end CodeTidy
