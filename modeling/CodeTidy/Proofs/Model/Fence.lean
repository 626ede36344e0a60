import CodeTidy.Model.Fence
import CodeTidy.Proofs.Text.Pieces

/-!
# `CodeTidy.Proofs.Model.Fence`: a body is taken out of its fence

A body stands between an opening line and a line feed with three backticks behind it. No three
backticks stand in the text in front of the fence, but it may end with one or two, and then the
fence looks as if it began earlier: three backticks are there, and a fourth one where a tag or the
end of the line should be. The body may begin and end with one or two of them as well; the line
feed keeps them apart from the closing mark, also if the body ends with line feeds of its own. The
theorems:

* `afterOpening?_eq_some_iff`: what an opening line is.
* `body?_append`: no block begins in front of the first mark.
* `beforeMark?_append`: a body without a mark is read up to its end.
* `code_fenced`: the body is the code, whatever stands around the fence.
-/

set_option autoImplicit false

namespace CodeTidy.Fence

open Text

/-! ### The opening line -/

/-- What stands behind the mark of an opening line does not begin with a backtick. -/
theorem head?_ne_backtick {tag blanks : Text} (htag : tag.all isTagChar = true)
    (hblanks : blanks.all isIndent = true) (body : Text) :
    (tag ++ (blanks ++ '\n' :: body)).head? ≠ some '\x60' := by
  intro hhead
  cases tag with
  | cons c tag =>
    obtain rfl : c = '\x60' := Option.some.inj hhead
    cases List.all_eq_true.mp htag _ List.mem_cons_self
  | nil =>
    cases blanks with
    | cons c blanks =>
      obtain rfl : c = '\x60' := Option.some.inj hhead
      cases List.all_eq_true.mp hblanks _ List.mem_cons_self
    | nil => cases hhead

/-- Spaces and tabs are no part of a tag. -/
theorem isTagChar_of_isIndent {c : Char} (h : isIndent c = true) : isTagChar c = false := by
  rw [isIndent, Bool.or_eq_true, beq_iff_eq, beq_iff_eq] at h
  rcases h with rfl | rfl <;> rfl

/-- An opening line is the mark, a tag, and perhaps spaces and tabs. -/
theorem afterOpening?_eq_some_iff {t body : Text} : afterOpening? t = some body ↔
    ∃ tag blanks, tag.all isTagChar = true ∧ blanks.all isIndent = true ∧
      t = mark ++ (tag ++ (blanks ++ '\n' :: body)) := by
  constructor
  · intro h
    rw [afterOpening?] at h
    split at h
    · rename_i hmark
      obtain ⟨r, rfl⟩ := List.isPrefixOf_iff_prefix.mp hmark
      rw [List.drop_left] at h
      refine ⟨r.takeWhile isTagChar, (r.dropWhile isTagChar).takeWhile isIndent,
        List.all_takeWhile, List.all_takeWhile, ?_⟩
      -- The tag and the blanks are read as far as they go, and the line ends behind them.
      have hrest : (r.dropWhile isTagChar).dropWhile isIndent = '\n' :: body := by
        dsimp only at h
        split at h
        · rename_i body' hrest
          rw [← Option.some.inj h]
          exact hrest
        · cases h
      rw [← hrest, List.takeWhile_append_dropWhile, List.takeWhile_append_dropWhile]
    · cases h
  · rintro ⟨tag, blanks, htag, hblanks, rfl⟩
    -- No blank is a character of a tag, so the tag is read up to the blanks.
    have hhead : (blanks ++ '\n' :: body).head?.all (fun c => !isTagChar c) = true := by
      cases blanks with
      | nil => rfl
      | cons c blanks =>
        have hc := List.all_eq_true.mp hblanks c List.mem_cons_self
        simp [isTagChar_of_isIndent hc]
    have htag' := (takeWhile_append_of_head (List.all_eq_true.mp htag) hhead).2
    have hblanks' : (blanks ++ '\n' :: body).dropWhile (fun c => c == ' ' || c == '\t') =
        '\n' :: body :=
      (takeWhile_append_of_head (List.all_eq_true.mp hblanks) rfl).2
    have hmark : mark.isPrefixOf (mark ++ (tag ++ (blanks ++ '\n' :: body))) = true :=
      List.isPrefixOf_iff_prefix.mpr (List.prefix_append _ _)
    rw [afterOpening?, if_pos hmark, List.drop_left, htag']
    dsimp only
    rw [hblanks']
    rfl

/-! ### In front of the fence -/

section

variable {front : Text} (hfront : ¬mark <:+: front)
include hfront

/-- A fence does not begin earlier if the text in front of it ends with backticks. -/
theorem afterOpening?_append (hne : front ≠ []) (r : Text) :
    afterOpening? (front ++ (mark ++ r)) = none := by
  cases hopening : afterOpening? (front ++ (mark ++ r)) with
  | none => rfl
  | some body =>
    obtain ⟨tag, blanks, htag, hblanks, heq⟩ := afterOpening?_eq_some_iff.mp hopening
    have hhead := head?_ne_backtick htag hblanks body
    generalize tag ++ (blanks ++ '\n' :: body) = u at heq hhead
    -- One or two characters in front leave a backtick of the mark where the tag should begin. Three
    -- of them would be a mark in the text in front.
    rcases front with _ | ⟨a, _ | ⟨b, _ | ⟨c, front⟩⟩⟩
    · exact absurd rfl hne
    all_goals simp only [mark, List.cons_append, List.nil_append, List.cons.injEq, true_and] at heq
    · exact absurd (congrArg List.head? heq.2.symm) hhead
    · exact absurd (congrArg List.head? heq.2.2.symm) hhead
    · obtain ⟨rfl, rfl, rfl, -⟩ := heq
      exact absurd (List.prefix_append mark front).isInfix hfront

/-- No block begins in front of the first mark. -/
theorem body?_append (r : Text) : body? (front ++ (mark ++ r)) = body? (mark ++ r) := by
  induction front with
  | nil => rfl
  | cons c front ih =>
    have hnone := afterOpening?_append hfront (List.cons_ne_nil c front) r
    rw [List.cons_append] at hnone
    rw [List.cons_append, body?, hnone]
    exact ih fun hmem => hfront (hmem.trans (List.suffix_cons c front).isInfix)

end

/-! ### The body -/

/-- The mark does not reach over a line feed. -/
theorem mark_prefix_of_append {w r : Text} (h : mark <+: w ++ '\n' :: r) : mark <+: w := by
  rcases List.prefix_or_prefix_of_prefix h (List.prefix_append w ('\n' :: r)) with hmark | hmark
  · exact hmark
  · obtain ⟨z, hz⟩ := hmark
    rcases z with _ | ⟨a, z⟩
    · exact ⟨[], by rw [List.append_nil, ← hz, List.append_nil]⟩
    · rw [← hz, List.prefix_append_right_inj, List.cons_prefix_cons] at h
      have hmem : '\n' ∈ mark := by
        rw [← hz, ← h.1]
        exact List.mem_append_right w List.mem_cons_self
      exact absurd hmem (by decide)

/-- A body without a mark is read up to its end. -/
theorem beforeMark?_append {body : Text} (hbody : ¬mark <:+: body) (r : Text) :
    beforeMark? (body ++ '\n' :: (mark ++ r)) = some body := by
  induction body with
  | nil => simp [beforeMark?]
  | cons c body ih =>
    -- A mark that begins here ends in front of the line feed, so it would stand in the body.
    have hrest : ¬mark <:+: body := fun h => hbody (h.trans (List.suffix_cons c body).isInfix)
    have hhere : ¬mark <+: (c :: body) ++ '\n' :: (mark ++ r) :=
      fun h => hbody (mark_prefix_of_append h).isInfix
    have hfeed : ¬('\n' :: mark) <+: (c :: body) ++ '\n' :: (mark ++ r) := by
      rw [List.cons_append, List.cons_prefix_cons]
      exact fun h => hrest (mark_prefix_of_append h.2).isInfix
    rw [← List.isPrefixOf_iff_prefix] at hhere hfeed
    rw [List.cons_append] at hhere hfeed ⊢
    rw [beforeMark?, if_neg (by simp [hhere, hfeed]), ih hrest]
    rfl

/-! ### The whole block -/

/-- The body of a fenced block is the code of an answer, if no three backticks stand in it or in
front of the block. The tag is made of word characters and a few signs. -/
theorem code_fenced {front tag body : Text} (hfront : ¬mark <:+: front)
    (htag : ∀ c ∈ tag, isWord c = true ∨ c = '+' ∨ c = '#' ∨ c = '.' ∨ c = '-')
    (hbody : ¬mark <:+: body) (rest : Text) :
    code (front ++ (mark ++ (tag ++ '\n' :: (body ++ '\n' :: (mark ++ rest))))) = body := by
  have htag' : tag.all isTagChar = true :=
    List.all_eq_true.mpr fun c hc => by simpa [isTagChar, or_assoc] using htag c hc
  have hopening : afterOpening? (mark ++ (tag ++ '\n' :: (body ++ '\n' :: (mark ++ rest)))) =
      some (body ++ '\n' :: (mark ++ rest)) :=
    afterOpening?_eq_some_iff.mpr ⟨tag, [], htag', rfl, rfl⟩
  have hblock : body? (mark ++ (tag ++ '\n' :: (body ++ '\n' :: (mark ++ rest)))) = some body := by
    rw [mark, List.cons_append, body?, ← List.cons_append, ← mark, hopening, Option.bind_some,
      beforeMark?_append hbody]
  rw [code, body?_append hfront, hblock, Option.getD_some]

/-- The theorem at a block with backticks right in front of it, at both ends of its body, and
behind it. -/
theorem code_fenced_backticks :
    ¬mark <:+: "see `".toList ∧ (∀ c ∈ "c++".toList, isWord c = true ∨ c = '+' ∨ c = '#' ∨ c = '.' ∨
      c = '-') ∧ ¬mark <:+: "``a``\n".toList ∧
    code ("see `".toList ++ (mark ++ ("c++".toList ++ '\n' :: ("``a``\n".toList ++ '\n' ::
      (mark ++ "`".toList))))) = "``a``\n".toList := by
  have hfront : ¬mark <:+: "see `".toList := by decide
  have htag : ∀ c ∈ "c++".toList, isWord c = true ∨ c = '+' ∨ c = '#' ∨ c = '.' ∨ c = '-' := by
    decide
  have hbody : ¬mark <:+: "``a``\n".toList := by decide
  exact ⟨hfront, htag, hbody, code_fenced hfront htag hbody "`".toList⟩

end CodeTidy.Fence
