import CodeTidy.Proofs.Text.Reader

/-!
# `CodeTidy.Proofs.Text.Marks`: the characters that literals are made of

Quotes and hyphens are the marks by which literals are found. `marksFrom`
lists the visible characters of a text: which of them are marks, and which
marks stand right behind another mark. `markReader` reads that list, so a
layout keeps it. The theorems:

* `marksFrom_append`: a text goes on from the marks before it.
* `seen_read`: the reader collects the list.
-/

set_option autoImplicit false

namespace CodeTidy

namespace Text

/-- A quote or a hyphen. -/
def isMark (c : Char) : Bool := c == '\'' || c == '"' || c == '`' || c == '-'

/-- The visible characters of a text, each with itself if it is a mark and whether it stands right
behind another mark. `isBehind` says so for the first character. -/
def marksFrom (isBehind : Bool) : Text → List (Option Char × Bool)
  | [] => []
  | c :: t =>
    if isBlank c then marksFrom false t
    else if isMark c then (some c, isBehind) :: marksFrom true t
    else (none, false) :: marksFrom false t

/-- Whether a text ends with a mark; an empty one does so if a mark stands before it. -/
def endsMarked (isBehind : Bool) : Text → Bool
  | [] => isBehind
  | c :: t => endsMarked (isMark c) t

/-- White space is no mark. -/
theorem isMark_of_isBlank {c : Char} (h : isBlank c = true) : isMark c = false := by
  by_cases hmark : isMark c = true
  · simp only [isMark, Bool.or_eq_true, beq_iff_eq] at hmark
    rcases hmark with ((rfl | rfl) | rfl) | rfl <;> cases h
  · simpa using hmark

/-- Word characters are no marks. -/
theorem isMark_of_isWord {c : Char} (h : isWord c = true) : isMark c = false := by
  by_cases hmark : isMark c = true
  · simp only [isMark, Bool.or_eq_true, beq_iff_eq] at hmark
    rcases hmark with ((rfl | rfl) | rfl) | rfl <;> cases h
  · simpa using hmark

/-- White space is not seen, but parts two marks. -/
theorem marksFrom_blank {c : Char} (h : isBlank c = true) (isBehind : Bool) (t : Text) :
    marksFrom isBehind (c :: t) = marksFrom false t := by
  rw [marksFrom, if_pos h]

/-- A mark is seen as itself. -/
theorem marksFrom_mark {c : Char} (h : isMark c = true) (isBehind : Bool) (t : Text) :
    marksFrom isBehind (c :: t) = (some c, isBehind) :: marksFrom true t := by
  have hblank : ¬isBlank c = true := by
    intro hblank
    rw [isMark_of_isBlank hblank] at h
    cases h
  rw [marksFrom, if_neg hblank, if_pos h]

/-- Any other visible character is seen, but not which one it is. -/
theorem marksFrom_other {c : Char} (h : isBlank c = false) (h' : isMark c = false)
    (isBehind : Bool) (t : Text) :
    marksFrom isBehind (c :: t) = (none, false) :: marksFrom false t := by
  rw [marksFrom, h, h', if_neg Bool.false_ne_true, if_neg Bool.false_ne_true]

/-- The marks of two texts in a row. What the first one ends with decides whether a mark at the
start of the second one stands right behind another. -/
theorem marksFrom_append (isBehind : Bool) (t u : Text) :
    marksFrom isBehind (t ++ u) = marksFrom isBehind t ++ marksFrom (endsMarked isBehind t) u := by
  induction t generalizing isBehind with
  | nil => rfl
  | cons c t ih =>
    rw [List.cons_append, endsMarked]
    cases hblank : isBlank c with
    | true => rw [marksFrom_blank hblank, marksFrom_blank hblank, ih, isMark_of_isBlank hblank]
    | false =>
      cases hmark : isMark c with
      | true => rw [marksFrom_mark hmark, marksFrom_mark hmark, ih, List.cons_append]
      | false =>
        rw [marksFrom_other hblank hmark, marksFrom_other hblank hmark, ih, List.cons_append]

/-- Whether two texts in a row end with a mark. -/
theorem endsMarked_append (isBehind : Bool) (t u : Text) :
    endsMarked isBehind (t ++ u) = endsMarked (endsMarked isBehind t) u := by
  induction t generalizing isBehind with
  | nil => rfl
  | cons c t ih => exact ih (isMark c)

/-- The first mark stands right behind another one only if the text begins with it. -/
theorem head_of_marksFrom {isBehind : Bool} {t : Text} {mark : Option Char}
    {marks : List (Option Char × Bool)} (h : marksFrom isBehind t = (mark, true) :: marks) :
    isBehind = true ∧ t.head? = mark := by
  induction t generalizing isBehind with
  | nil => cases h
  | cons c t ih =>
    cases hblank : isBlank c with
    | true =>
      rw [marksFrom_blank hblank] at h
      cases (ih h).1
    | false =>
      cases hmark : isMark c with
      | true =>
        rw [marksFrom_mark hmark, List.cons.injEq, Prod.mk.injEq] at h
        exact ⟨h.1.2, h.1.1⟩
      | false =>
        rw [marksFrom_other hblank hmark] at h
        cases h

/-- The number of visible characters. -/
theorem length_marksFrom (isBehind : Bool) (t : Text) :
    (marksFrom isBehind t).length = (nonBlank t).length := by
  induction t generalizing isBehind with
  | nil => rfl
  | cons c t ih =>
    cases hblank : isBlank c with
    | true => rw [marksFrom_blank hblank, ih, nonBlank_cons_blank hblank]
    | false =>
      rw [nonBlank_cons hblank, List.length_cons]
      cases hmark : isMark c with
      | true => rw [marksFrom_mark hmark, List.length_cons, ih]
      | false => rw [marksFrom_other hblank hmark, List.length_cons, ih]

end Text

open Text

/-- What has been read of a text: its marks, and whether the last character is one. -/
structure Marks where
  seen : List (Option Char × Bool)
  isBehind : Bool

namespace Marks

/-- Nothing has been read. -/
def start : Marks := ⟨[], false⟩

/-- No mark stands right before the next character. -/
def close (s : Marks) : Marks := ⟨s.seen, false⟩

/-- One more character is read. -/
def step (s : Marks) (c : Char) : Marks := ⟨s.seen ++ marksFrom s.isBehind [c], isMark c⟩

/-- White space does no more than to part two marks. -/
theorem step_blank (s : Marks) {c : Char} (h : isBlank c = true) : s.step c = s.close := by
  rw [step, marksFrom_blank h, isMark_of_isBlank h, marksFrom, List.append_nil, close]

/-- A character that is no mark is read alike behind a mark and elsewhere. -/
theorem step_close (s : Marks) {c : Char} (h : isMark c = false) : s.close.step c = s.step c := by
  cases hblank : isBlank c with
  | true =>
    rw [step_blank _ hblank, step_blank _ hblank]
    rfl
  | false =>
    rw [step, step, marksFrom_other hblank h, marksFrom_other hblank h]
    rfl

/-- A letter form and its capital are read alike: neither is a mark, nor white space. -/
theorem step_form (s : Marks) {c : Char} (h : c ∈ letterForms) :
    (upperChar c).foldl step s = s.step c := by
  obtain ⟨hblank, hword, d, hupper, hblank', hword', -⟩ := letterForms_spec c h
  rw [hupper, List.foldl_cons, List.foldl_nil, step, step,
    marksFrom_other hblank' (isMark_of_isWord hword'),
    marksFrom_other hblank (isMark_of_isWord hword), isMark_of_isWord hword,
    isMark_of_isWord hword']

end Marks

/-- The reader that collects marks. A mark goes on from the mark right before it. -/
def markReader : Reader Marks where
  step := Marks.step
  close := Marks.close
  isTight := isMark
  step_blank s c h := s.step_blank h
  close_close s := rfl
  step_close s c h := s.step_close h
  close_step s c h := by rw [Marks.close, Marks.step, h]
  isWord_eq a b ha hb := by
    have hword : ∀ c, isMark c = true → isWord c = false := by
      intro c hc
      cases hword : isWord c with
      | false => rfl
      | true =>
        rw [isMark_of_isWord hword] at hc
        cases hc
    rw [hword a ha, hword b hb]
  isTight_punctuation c hc := by
    simp only [List.mem_cons, List.not_mem_nil, or_false] at hc
    rcases hc with rfl | rfl | rfl | rfl | rfl <;> rfl
  step_form s c h := s.step_form h

/-- What the reader has seen are the marks of the text, behind those that it knew. -/
theorem seen_read (s : Marks) (t : Text) :
    (markReader.read s t).seen = s.seen ++ marksFrom s.isBehind t := by
  induction t generalizing s with
  | nil => rw [Reader.read_nil, marksFrom, List.append_nil]
  | cons c t ih =>
    have hsplit := marksFrom_append s.isBehind [c] t
    rw [Reader.read_cons, ih]
    show s.seen ++ marksFrom s.isBehind [c] ++ marksFrom (isMark c) t = _
    rw [List.append_assoc, show marksFrom s.isBehind (c :: t) =
      marksFrom s.isBehind [c] ++ marksFrom (isMark c) t from hsplit]

/-- For marks white space in front of a word never counts. -/
theorem markReader_isFree (s : Marks) : markReader.IsFree s := fun _ h =>
  s.step_close (isMark_of_isWord h)

/-- Texts that are read alike have the same marks. -/
theorem marksFrom_of_close_read {t u : Text}
    (h : markReader.close (markReader.read Marks.start t) =
      markReader.close (markReader.read Marks.start u)) :
    marksFrom false t = marksFrom false u := by
  have hclosed := congrArg Marks.seen h
  have hseen : (markReader.read Marks.start t).seen = (markReader.read Marks.start u).seen :=
    hclosed
  rw [seen_read, seen_read] at hseen
  exact hseen

end CodeTidy
