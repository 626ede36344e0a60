import CodeTidy.Proofs.Json.Reads
import Mathlib.Logic.Relation

/-!
# `CodeTidy.Proofs.Json.Relaid`: other white space, the same value

Outside of its strings a JSON text holds marks and white space only. A text is
relaid if runs of white space become other runs, or go; the marks and the
strings stay. The theorems:

* `lexed_of_parse`: what is parsed is made of marks, strings and white space.
* `parse_relaid`, `parse_relays`: a text that is relaid, once or several times,
  is parsed as the same value.
* `infix_relays`: a word between quotes stays.
-/

set_option autoImplicit false

namespace CodeTidy.Json

/-- A text of marks, strings and white space. -/
inductive Lexed : Text → Prop
  | nil : Lexed []
  | mark {c : Char} {t : Text} (hc : isMark c = true) (ht : Lexed t) : Lexed (c :: t)
  | string {body t : Text} (hbody : StringBody body) (ht : Lexed t) :
    Lexed ('"' :: (body ++ '"' :: t))
  | space {c : Char} {t : Text} (hc : isSpace c = true) (ht : Lexed t) : Lexed (c :: t)

/-- The second text is the first one with other white space where there is some. -/
inductive Relaid : Text → Text → Prop
  | nil : Relaid [] []
  | mark {c : Char} {t u : Text} (hc : isMark c = true) (h : Relaid t u) : Relaid (c :: t) (c :: u)
  | string {body t u : Text} (hbody : StringBody body) (h : Relaid t u) :
    Relaid ('"' :: (body ++ '"' :: t)) ('"' :: (body ++ '"' :: u))
  | space {s s' t u : Text} (hne : s ≠ []) (hs : s.all isSpace = true)
      (hs' : s'.all isSpace = true) (h : Relaid t u) : Relaid (s ++ t) (s' ++ u)

/-! ### The kinds of characters -/

/-- The four characters that are white space in JSON. -/
theorem isSpace_cases {c : Char} (h : isSpace c = true) :
    c = ' ' ∨ c = '\t' ∨ c = '\n' ∨ c = '\r' := by
  simpa [isSpace, or_assoc] using h

/-- White space is no mark. -/
theorem isMark_of_isSpace {c : Char} (h : isSpace c = true) : isMark c = false := by
  rcases isSpace_cases h with rfl | rfl | rfl | rfl <;> rfl

/-- A mark is no white space. -/
theorem isSpace_of_isMark {c : Char} (h : isMark c = true) : isSpace c = false := by
  cases hspace : isSpace c with
  | false => rfl
  | true =>
    rw [isMark_of_isSpace hspace] at h
    cases h

/-- Where a string ends does not depend on what comes after it. -/
theorem StringBody.unique {body body' t t' : Text} (h : StringBody body) (h' : StringBody body')
    (heq : body ++ '"' :: t = body' ++ '"' :: t') : body = body' ∧ t = t' := by
  -- A plain character neither ends the string nor begins an escape, so both are read alike.
  have hplain {c : Char} (hc : isPlain c = true) : c ≠ '"' ∧ c ≠ '\\' := by
    simp only [isPlain, Bool.and_eq_true, bne_iff_ne, ne_eq] at hc
    exact hc.1
  induction h generalizing body' with
  | nil =>
    cases h' with
    | nil => exact ⟨rfl, (List.cons.inj heq).2⟩
    | plain hc => exact absurd (List.cons.inj heq).1.symm (hplain hc).1
    | escape => exact absurd (List.cons.inj heq).1 (by decide)
  | plain hc _ ih =>
    cases h' with
    | nil => exact absurd (List.cons.inj heq).1 (hplain hc).1
    | plain _ ht =>
      obtain ⟨rfl, htail⟩ := List.cons.inj heq
      obtain ⟨rfl, rfl⟩ := ih ht htail
      exact ⟨rfl, rfl⟩
    | escape => exact absurd (List.cons.inj heq).1 (hplain hc).2
  | escape _ _ ih =>
    cases h' with
    | nil => exact absurd (List.cons.inj heq).1 (by decide)
    | plain hc => exact absurd (List.cons.inj heq).1.symm (hplain hc).2
    | escape _ ht =>
      obtain ⟨-, htail⟩ := List.cons.inj heq
      obtain ⟨rfl, htail'⟩ := List.cons.inj htail
      obtain ⟨rfl, rfl⟩ := ih ht htail'
      exact ⟨rfl, rfl⟩

/-- A string stands on one line. -/
theorem StringBody.not_mem_line {body : Text} (h : StringBody body) :
    '\n' ∉ '"' :: (body ++ ['"']) := by
  have hbody : '\n' ∉ body := by
    induction h with
    | nil => exact List.not_mem_nil
    | plain hc _ ih =>
      rw [List.mem_cons, not_or]
      refine ⟨?_, ih⟩
      rintro rfl
      cases hc
    | escape hc _ ih =>
      rw [List.mem_cons, List.mem_cons, not_or, not_or]
      refine ⟨by decide, ?_, ih⟩
      rintro rfl
      exact absurd hc (by decide)
  simp [hbody]

/-! ### What is parsed is lexed -/

/-- Marks may be put in front. -/
theorem Lexed.marks {u t : Text} (hu : u.all isMark = true) (ht : Lexed t) : Lexed (u ++ t) := by
  induction u with
  | nil => exact ht
  | cons c u ih =>
    rw [List.all_cons, Bool.and_eq_true] at hu
    exact .mark hu.1 (ih hu.2)

/-- White space may be put in front. -/
theorem Lexed.spaces {s t : Text} (hs : s.all isSpace = true) (ht : Lexed t) : Lexed (s ++ t) := by
  induction s with
  | nil => exact ht
  | cons c s ih =>
    rw [List.all_cons, Bool.and_eq_true] at hs
    exact .space hs.1 (ih hs.2)

/-- What a lexed text begins with. -/
theorem Lexed.cases {c : Char} {t : Text} (h : Lexed (c :: t)) :
    isMark c = true ∧ Lexed t ∨ isSpace c = true ∧ Lexed t ∨
      c = '"' ∧ ∃ body r, t = body ++ '"' :: r ∧ StringBody body ∧ Lexed r := by
  generalize ht : c :: t = t' at h
  cases h with
  | nil => cases ht
  | mark hc h =>
    obtain ⟨rfl, rfl⟩ := List.cons.inj ht
    exact .inl ⟨hc, h⟩
  | @string body r hbody h =>
    obtain ⟨rfl, rfl⟩ := List.cons.inj ht
    exact .inr (.inr ⟨rfl, body, r, rfl, hbody, h⟩)
  | space hc h =>
    obtain ⟨rfl, rfl⟩ := List.cons.inj ht
    exact .inr (.inl ⟨hc, h⟩)

/-- White space in front may be left out. -/
theorem Lexed.of_spaces {s t : Text} (hs : s.all isSpace = true)
    (h : Lexed (s ++ t)) : Lexed t := by
  induction s with
  | nil => exact h
  | cons c s ih =>
    rw [List.all_cons, Bool.and_eq_true] at hs
    rcases h.cases with ⟨hc, -⟩ | ⟨-, h⟩ | ⟨rfl, -⟩
    · rw [isMark_of_isSpace hs.1] at hc
      cases hc
    · exact ih hs.2 h
    · cases hs.1

/-- What is made of marks, strings and white space behind white space is so with it. -/
theorem lexed_of_skipSpace {t : Text} (h : Lexed (skipSpace t)) : Lexed t := by
  obtain ⟨s, hs, ht⟩ := exists_skipSpace t
  rw [ht]
  exact h.spaces hs

/-- A string that has been read is one. -/
theorem lexed_of_string? {t s rest : Text} (h : string? t = some (s, rest)) (hrest : Lexed rest) :
    Lexed ('"' :: t) := by
  obtain ⟨body, rfl, hbody, -⟩ := string?_split h
  exact .string hbody hrest

/-- A mark behind white space may be put in front. -/
theorem lexed_of_mark {t r : Text} {c : Char} (h : skipSpace t = c :: r) (hc : isMark c = true)
    (hr : Lexed r) : Lexed t := by
  refine lexed_of_skipSpace ?_
  rw [h]
  exact .mark hc hr

/-- What has been read is made of marks, strings and white space. -/
theorem lexed_of_reads {room : Nat} {t rest : Text} {part : Part} (h : Reads room t part rest)
    (hrest : Lexed rest) : Lexed t := by
  induction h with
  -- The induction is on the reading, and each case puts back what it has taken off the front.
  | atom h hends =>
    obtain ⟨u, rfl, hu, -⟩ := atom_split h (endsNumber_of_ends hends)
    exact hrest.marks hu
  | string h => exact lexed_of_string? h hrest
  | emptyArray h => exact .mark rfl (lexed_of_mark h rfl hrest)
  | array _ ih => exact .mark rfl (lexed_of_skipSpace (ih hrest))
  | emptyObject h => exact .mark rfl (lexed_of_mark h rfl hrest)
  | object _ ih => exact .mark rfl (lexed_of_skipSpace (ih hrest))
  | lastItem _ hclose ih => exact ih (lexed_of_mark hclose rfl hrest)
  | nextItem _ hcomma _ ih ihRest =>
    exact ih (lexed_of_mark hcomma rfl (lexed_of_skipSpace (ihRest hrest)))
  | lastMember hkey hcolon _ hclose ih =>
    exact lexed_of_string? hkey (lexed_of_mark hcolon rfl
      (lexed_of_skipSpace (ih (lexed_of_mark hclose rfl hrest))))
  | nextMember hkey hcolon _ hcomma _ ih ihRest =>
    exact lexed_of_string? hkey (lexed_of_mark hcolon rfl
      (lexed_of_skipSpace (ih (lexed_of_mark hcomma rfl (lexed_of_skipSpace (ihRest hrest))))))

/-- What is parsed is made of marks, strings and white space. -/
theorem lexed_of_parse {t : Text} {v : Json} (h : parse t = .ok v) : Lexed t := by
  obtain ⟨rest, hread, hempty⟩ := parse_eq_ok_iff.mp h
  refine lexed_of_skipSpace (lexed_of_reads hread (lexed_of_skipSpace ?_))
  rw [hempty]
  exact .nil

/-! ### Relaying -/

/-- A text is laid out anew as it is. -/
theorem Lexed.relaid {t : Text} (h : Lexed t) : Relaid t t := by
  induction h with
  | nil => exact .nil
  | mark hc _ ih => exact .mark hc ih
  | string hbody _ ih => exact .string hbody ih
  | @space c _ hc _ ih =>
    have hs : [c].all isSpace = true := by rw [List.all_cons, hc]; rfl
    exact .space (List.cons_ne_nil c []) hs hs ih

/-- What is laid out anew is made of marks, strings and white space. -/
theorem Relaid.lexed {t u : Text} (h : Relaid t u) : Lexed u := by
  induction h with
  | nil => exact .nil
  | mark hc _ ih => exact .mark hc ih
  | string hbody _ ih => exact .string hbody ih
  | space _ _ hs' _ ih => exact ih.spaces hs'

/-- What may be laid out anew is made of marks, strings and white space. -/
theorem Relaid.lexed_left {t u : Text} (h : Relaid t u) : Lexed t := by
  induction h with
  | nil => exact .nil
  | mark hc _ ih => exact .mark hc ih
  | string hbody _ ih => exact .string hbody ih
  | space _ hs _ _ ih => exact ih.spaces hs

/-- Two texts in a row are laid out anew one by one. -/
theorem Relaid.append {t u t' u' : Text} (h : Relaid t u) (h' : Relaid t' u') :
    Relaid (t ++ t') (u ++ u') := by
  induction h with
  | nil => exact h'
  | mark hc _ ih => exact .mark hc ih
  | string hbody _ ih =>
    simp only [List.cons_append, List.append_assoc]
    exact .string hbody ih
  | space hne hs hs' _ ih =>
    rw [List.append_assoc, List.append_assoc]
    exact .space hne hs hs' ih

/-- A mark in front stays. -/
theorem Relaid.of_mark {c : Char} {t u : Text} (hc : isMark c = true) (h : Relaid (c :: t) u) :
    ∃ u', u = c :: u' ∧ Relaid t u' := by
  generalize ht : c :: t = t' at h
  cases h with
  | nil => cases ht
  | mark _ h =>
    obtain ⟨rfl, rfl⟩ := List.cons.inj ht
    exact ⟨_, rfl, h⟩
  | string =>
    obtain ⟨rfl, -⟩ := List.cons.inj ht
    cases hc
  | @space s _ _ _ hne hs =>
    obtain ⟨c', s, rfl⟩ := List.exists_cons_of_ne_nil hne
    obtain ⟨rfl, -⟩ := List.cons.inj ht
    rw [List.all_cons, Bool.and_eq_true, isSpace_of_isMark hc] at hs
    cases hs.1

/-- Marks in front stay. -/
theorem Relaid.of_marks {w t u : Text} (hw : w.all isMark = true) (h : Relaid (w ++ t) u) :
    ∃ u', u = w ++ u' ∧ Relaid t u' := by
  induction w generalizing u with
  | nil => exact ⟨u, rfl, h⟩
  | cons c w ih =>
    rw [List.all_cons, Bool.and_eq_true] at hw
    obtain ⟨u₁, rfl, h₁⟩ := h.of_mark hw.1
    obtain ⟨u₂, rfl, h₂⟩ := ih hw.2 h₁
    exact ⟨u₂, rfl, h₂⟩

/-- A string in front stays as it is. -/
theorem Relaid.of_string {body t u : Text} (hbody : StringBody body)
    (h : Relaid ('"' :: (body ++ '"' :: t)) u) :
    ∃ u', u = '"' :: (body ++ '"' :: u') ∧ Relaid t u' := by
  generalize ht : '"' :: (body ++ '"' :: t) = t' at h
  cases h with
  | nil => cases ht
  | mark hc =>
    obtain ⟨rfl, -⟩ := List.cons.inj ht
    cases hc
  | string hbody' h =>
    obtain ⟨rfl, rfl⟩ := hbody.unique hbody' (List.cons.inj ht).2
    exact ⟨_, rfl, h⟩
  | @space s _ _ _ hne hs =>
    obtain ⟨c', s, rfl⟩ := List.exists_cons_of_ne_nil hne
    obtain ⟨rfl, -⟩ := List.cons.inj ht
    cases hs

/-- Behind the white space in front the texts are laid out anew as well. -/
theorem Relaid.skipSpace {t u : Text} (h : Relaid t u) : Relaid (skipSpace t) (skipSpace u) := by
  have hself {c : Char} {r : Text} (hc : isSpace c = false) : Json.skipSpace (c :: r) = c :: r :=
    skipSpace_eq_self (by simp [hc])
  induction h with
  | nil => exact .nil
  | mark hc h =>
    rw [hself (isSpace_of_isMark hc), hself (isSpace_of_isMark hc)]
    exact .mark hc h
  | string hbody h =>
    rw [hself rfl, hself rfl]
    exact .string hbody h
  | space _ hs hs' _ ih =>
    rw [skipSpace_append hs, skipSpace_append hs']
    exact ih

/-- The first mark is the same in both texts. -/
theorem Relaid.skipSpace_eq {c : Char} {t r u : Text} (h : Relaid t u)
    (ht : Json.skipSpace t = c :: r) (hc : isMark c = true) :
    ∃ u', Json.skipSpace u = c :: u' ∧ Relaid r u' := by
  have hskip := h.skipSpace
  rw [ht] at hskip
  exact hskip.of_mark hc

/-- A text without any mark stays so. -/
theorem Relaid.skipSpace_nil {t u : Text} (h : Relaid t u) (ht : Json.skipSpace t = []) :
    Json.skipSpace u = [] := by
  have hskip := h.skipSpace
  have hhead := head?_skipSpace u
  rw [ht] at hskip
  generalize Json.skipSpace u = u' at hskip hhead
  generalize hnil : ([] : Text) = t' at hskip
  cases hskip with
  | nil => rfl
  | mark => cases hnil
  | string => cases hnil
  | space hne => exact absurd (List.append_eq_nil_iff.mp hnil.symm).1 hne

/-- A value that may end in front of the one text may end in front of the other. -/
theorem Relaid.ends {t u : Text} (h : Relaid t u) (ht : ends t = true) : Json.ends u = true := by
  rw [Json.ends] at ht ⊢
  cases hskip : Json.skipSpace t with
  | nil =>
    rw [h.skipSpace_nil hskip]
    rfl
  | cons c r =>
    rw [hskip, List.head?_cons, Option.all_some] at ht
    have hc : isMark c = true := by
      simp only [Bool.or_eq_true, beq_iff_eq] at ht
      rcases ht with (rfl | rfl) | rfl <;> rfl
    obtain ⟨u', hu, -⟩ := h.skipSpace_eq hskip hc
    rw [hu]
    exact ht

/-- What is read is read from a text that is relaid. -/
theorem reads_relaid {room : Nat} {t rest u : Text} {part : Part} (h : Reads room t part rest)
    (hu : Relaid t u) : ∃ rest', Reads room u part rest' ∧ Relaid rest rest' := by
  induction h generalizing u with
  -- Atoms and strings are the same in both texts. Each mark is found again behind other white
  -- space.
  | atom h hends =>
    obtain ⟨w, rfl, hw, hread⟩ := atom_split h (endsNumber_of_ends hends)
    obtain ⟨u₁, rfl, hu₁⟩ := hu.of_marks hw
    exact ⟨u₁, .atom (hread u₁ (endsNumber_of_ends (hu₁.ends hends))) (hu₁.ends hends), hu₁⟩
  | string h =>
    obtain ⟨body, rfl, hbody, hread⟩ := string?_split h
    obtain ⟨u₁, rfl, hu₁⟩ := hu.of_string hbody
    exact ⟨u₁, .string (hread u₁), hu₁⟩
  | emptyArray h =>
    obtain ⟨u₁, rfl, hu₁⟩ := hu.of_mark rfl
    obtain ⟨rest', hclose, hrest⟩ := hu₁.skipSpace_eq h rfl
    exact ⟨rest', .emptyArray hclose, hrest⟩
  | array _ ih =>
    obtain ⟨u₁, rfl, hu₁⟩ := hu.of_mark rfl
    obtain ⟨rest', hread, hrest⟩ := ih hu₁.skipSpace
    exact ⟨rest', .array hread, hrest⟩
  | emptyObject h =>
    obtain ⟨u₁, rfl, hu₁⟩ := hu.of_mark rfl
    obtain ⟨rest', hclose, hrest⟩ := hu₁.skipSpace_eq h rfl
    exact ⟨rest', .emptyObject hclose, hrest⟩
  | object _ ih =>
    obtain ⟨u₁, rfl, hu₁⟩ := hu.of_mark rfl
    obtain ⟨rest', hread, hrest⟩ := ih hu₁.skipSpace
    exact ⟨rest', .object hread, hrest⟩
  | lastItem _ hclose ih =>
    obtain ⟨u₁, hread, hu₁⟩ := ih hu
    obtain ⟨rest', hclose', hrest⟩ := hu₁.skipSpace_eq hclose rfl
    exact ⟨rest', .lastItem hread hclose', hrest⟩
  | nextItem _ hcomma _ ih ihRest =>
    obtain ⟨u₁, hread, hu₁⟩ := ih hu
    obtain ⟨u₂, hcomma', hu₂⟩ := hu₁.skipSpace_eq hcomma rfl
    obtain ⟨rest', hread', hrest⟩ := ihRest hu₂.skipSpace
    exact ⟨rest', .nextItem hread hcomma' hread', hrest⟩
  | lastMember hkey hcolon _ hclose ih =>
    obtain ⟨body, rfl, hbody, hkey'⟩ := string?_split hkey
    obtain ⟨u₁, rfl, hu₁⟩ := hu.of_string hbody
    obtain ⟨u₂, hcolon', hu₂⟩ := hu₁.skipSpace_eq hcolon rfl
    obtain ⟨u₃, hread, hu₃⟩ := ih hu₂.skipSpace
    obtain ⟨rest', hclose', hrest⟩ := hu₃.skipSpace_eq hclose rfl
    exact ⟨rest', .lastMember (hkey' u₁) hcolon' hread hclose', hrest⟩
  | nextMember hkey hcolon _ hcomma _ ih ihRest =>
    obtain ⟨body, rfl, hbody, hkey'⟩ := string?_split hkey
    obtain ⟨u₁, rfl, hu₁⟩ := hu.of_string hbody
    obtain ⟨u₂, hcolon', hu₂⟩ := hu₁.skipSpace_eq hcolon rfl
    obtain ⟨u₃, hread, hu₃⟩ := ih hu₂.skipSpace
    obtain ⟨u₄, hcomma', hu₄⟩ := hu₃.skipSpace_eq hcomma rfl
    obtain ⟨rest', hread', hrest⟩ := ihRest hu₄.skipSpace
    exact ⟨rest', .nextMember (hkey' u₁) hcolon' hread hcomma' hread', hrest⟩

/-- A text that is relaid is parsed as the same value. -/
theorem parse_relaid {t u : Text} {v : Json} (h : parse t = .ok v) (hu : Relaid t u) :
    parse u = .ok v := by
  obtain ⟨rest, hread, hempty⟩ := parse_eq_ok_iff.mp h
  obtain ⟨rest', hread', hrest⟩ := reads_relaid hread hu.skipSpace
  exact parse_eq_ok_iff.mpr ⟨rest', hread', hrest.skipSpace_nil hempty⟩

/-! ### Words between quotes -/

/-- A word that can stand between quotes only: it begins with no mark and holds no quote. -/
def isQuotable (word : Text) : Bool :=
  word.head?.any (fun c => !isMark c && !isSpace c) && word.all (· != '"')

/-- A word without quotes and the quote behind it stand in front of any other quote. -/
theorem prefix_of_quote {word w t y : Text} (hquote : word.all (· != '"') = true)
    (h : word ++ '"' :: y = w ++ '"' :: t) : word ++ ['"'] <+: w ++ ['"'] := by
  induction word generalizing w with
  | nil =>
    cases w with
    | nil => exact List.prefix_rfl
    | cons d w =>
      obtain ⟨rfl, -⟩ := List.cons.inj h
      exact ⟨w ++ ['"'], rfl⟩
  | cons c word ih =>
    rw [List.all_cons, Bool.and_eq_true, bne_iff_ne] at hquote
    cases w with
    | nil => exact absurd (List.cons.inj h).1 hquote.1
    | cons d w =>
      obtain ⟨rfl, htail⟩ := List.cons.inj h
      exact List.prefix_cons_inj _ |>.mpr (ih hquote.2 htail)

/-- A quotable word between quotes stands in one string, or behind it. -/
theorem infix_of_string {word body t : Text} (hword : isQuotable word = true) (ht : Lexed t)
    (h : '"' :: (word ++ ['"']) <:+: '"' :: (body ++ '"' :: t)) :
    '"' :: (word ++ ['"']) <:+: '"' :: (body ++ ['"']) ∨ '"' :: (word ++ ['"']) <:+: t := by
  rw [isQuotable, Bool.and_eq_true] at hword
  obtain ⟨hhead, hquote⟩ := hword
  obtain ⟨x, y, heq⟩ := h
  have heq' : x ++ '"' :: (word ++ '"' :: y) = ('"' :: body) ++ '"' :: t := by
    simpa using heq
  -- The quote behind the string does not begin the word, as no word can follow it.
  have hclose : t ≠ word ++ '"' :: y := by
    intro htail
    cases word with
    | nil => cases hhead
    | cons c word =>
      rw [htail] at ht
      simp only [List.head?_cons, Option.any_some, Bool.and_eq_true, Bool.not_eq_true'] at hhead
      rw [List.all_cons, Bool.and_eq_true, bne_iff_ne] at hquote
      rcases ht.cases with ⟨hc, -⟩ | ⟨hc, -⟩ | ⟨hc, -⟩
      · rw [hhead.1] at hc
        cases hc
      · rw [hhead.2] at hc
        cases hc
      · exact hquote.1 hc
  rcases List.append_eq_append_iff.mp heq' with ⟨z, hz, hrest⟩ | ⟨z, -, hrest⟩
  · -- The word begins with the quote in front of the string, or in the string.
    cases z with
    | nil => exact absurd (List.cons.inj hrest).2.symm hclose
    | cons d z =>
      obtain ⟨rfl, htail⟩ := List.cons.inj hrest
      obtain ⟨r, hr⟩ := prefix_of_quote hquote htail
      refine .inl ⟨x, r, ?_⟩
      have hstring : '"' :: (body ++ ['"']) = x ++ ('"' :: (z ++ ['"'])) := by
        rw [← List.cons_append, hz, List.append_assoc]
        rfl
      rw [hstring, ← hr]
      simp
  · -- The word begins behind the string.
    cases z with
    | nil => exact absurd (List.cons.inj hrest).2 hclose
    | cons d z =>
      obtain ⟨-, htail⟩ := List.cons.inj hrest
      exact .inr ⟨z, y, by rw [htail]; simp⟩

/-- A quotable word between quotes stays. -/
theorem Relaid.infix {word t u : Text} (hword : isQuotable word = true) (h : Relaid t u)
    (ht : '"' :: (word ++ ['"']) <:+: t) : '"' :: (word ++ ['"']) <:+: u := by
  -- The word begins with a quote, so it stands behind marks and white space.
  have hcons {c : Char} {r : Text} (hc : c ≠ '"') (hr : '"' :: (word ++ ['"']) <:+: c :: r) :
      '"' :: (word ++ ['"']) <:+: r := by
    rcases List.infix_cons_iff.mp hr with hprefix | hinfix
    · obtain ⟨y, hy⟩ := hprefix
      exact absurd (List.cons.inj hy).1.symm hc
    · exact hinfix
  have hspaces {s r : Text} (hs : s.all isSpace = true) (hr : '"' :: (word ++ ['"']) <:+: s ++ r) :
      '"' :: (word ++ ['"']) <:+: r := by
    induction s with
    | nil => exact hr
    | cons c s ih =>
      rw [List.all_cons, Bool.and_eq_true] at hs
      refine ih hs.2 (hcons ?_ hr)
      rintro rfl
      cases hs.1
  induction h with
  | nil => exact ht
  | mark hc _ ih =>
    refine List.infix_cons (ih (hcons ?_ ht))
    rintro rfl
    cases hc
  | @string body t u hbody h ih =>
    have hsplit : '"' :: (body ++ '"' :: u) = '"' :: (body ++ ['"']) ++ u := by simp
    rw [hsplit]
    -- It is that of the string, or comes behind it.
    rcases infix_of_string hword h.lexed_left ht with hin | hbehind
    · exact hin.trans (List.prefix_append _ _).isInfix
    · exact (ih hbehind).trans (List.suffix_append _ _).isInfix
  | space _ hs _ _ ih => exact (ih (hspaces hs ht)).trans (List.suffix_append _ _).isInfix

/-! ### One relaying after the other -/

/-- The second text comes of the first one by relaying, any number of times. -/
abbrev Relays : Text → Text → Prop := Relation.ReflTransGen Relaid

/-- A text that is relaid several times is parsed as the same value. -/
theorem parse_relays {t u : Text} {v : Json} (h : Relays t u) (hv : parse t = .ok v) :
    parse u = .ok v := by
  induction h with
  | refl => exact hv
  | tail _ hlast ih => exact parse_relaid ih hlast

/-- A quotable word between quotes stays however often a text is relaid. -/
theorem infix_relays {word t u : Text} (hword : isQuotable word = true) (h : Relays t u)
    (ht : '"' :: (word ++ ['"']) <:+: t) : '"' :: (word ++ ['"']) <:+: u := by
  induction h with
  | refl => exact ht
  | tail _ hlast ih => exact hlast.infix hword ih

end CodeTidy.Json
