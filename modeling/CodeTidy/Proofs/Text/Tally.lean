import CodeTidy.Proofs.Text.Reader

/-!
# `CodeTidy.Proofs.Text.Tally`: the characters and the words of a text

`tallyReader` collects the characters of a text other than white space and its
words, both in capital letters. The theorems:

* `chars_tally`, `runs_tally`: the tally of a text holds the sequence of its
  characters other than white space and that of its words.
-/

set_option autoImplicit false

namespace CodeTidy

namespace Text

/-- The maximal runs of word characters. -/
def wordRuns (t : Text) : List Text :=
  (splitAtEach (fun c => !isWord c) t).filter (fun w => !w.isEmpty)

/-- Capitals are as empty as the text: no character is lost. -/
theorem isEmpty_upper (t : Text) : (upper t).isEmpty = t.isEmpty := by
  cases t with
  | nil => rfl
  | cons c t =>
    rw [upper_cons, List.isEmpty_cons, List.isEmpty_eq_false_iff]
    exact List.append_ne_nil_of_left_ne_nil (upperChar_ne_nil c) _

end Text

open Text

/-- What has been read of a text, in capital letters: its characters other than white space, the
words that have ended and the word that the reader is in. -/
structure Tally where
  chars : Text
  runs : List Text
  current : Text

namespace Tally

/-- Nothing has been read. -/
def start : Tally := ⟨[], [], []⟩

/-- The word that the reader is in ends. -/
def close (s : Tally) : Tally :=
  if s.current.isEmpty then s else ⟨s.chars, s.runs ++ [s.current], []⟩

/-- One more character is read. -/
def step (s : Tally) (c : Char) : Tally :=
  if isWord c then ⟨s.chars ++ upperChar c, s.runs, s.current ++ upperChar c⟩
  else if isBlank c then s.close
  else { s.close with chars := s.close.chars ++ upperChar c }

/-- The end of a word adds no character. -/
theorem chars_close (s : Tally) : s.close.chars = s.chars := by
  rw [close]
  split <;> rfl

/-- Behind the end of a word the reader is in none. -/
theorem current_close (s : Tally) : s.close.current = [] := by
  rw [close]
  split
  · rename_i h
    exact List.isEmpty_iff.mp h
  · rfl

/-- Where the reader is in no word, none ends. -/
theorem close_eq_self {s : Tally} (h : s.current = []) : s.close = s := by
  rw [close, h, List.isEmpty_nil, if_pos rfl]

/-- A word ends once. -/
theorem close_close (s : Tally) : s.close.close = s.close := close_eq_self (current_close s)

/-- A word character goes on with the word that the reader is in. -/
theorem step_word (s : Tally) {c : Char} (h : isWord c = true) :
    s.step c = ⟨s.chars ++ upperChar c, s.runs, s.current ++ upperChar c⟩ := by
  rw [step, if_pos h]

/-- White space ends the word and is not seen otherwise. -/
theorem step_blank (s : Tally) {c : Char} (h : isBlank c = true) : s.step c = s.close := by
  rw [step, isWord_of_isBlank h, if_neg Bool.false_ne_true, if_pos h]

/-- Any other character ends the word and is seen. -/
theorem step_other (s : Tally) {c : Char} (h : isWord c = false) (h' : isBlank c = false) :
    s.step c = { s.close with chars := s.close.chars ++ upperChar c } := by
  rw [step, h, h', if_neg Bool.false_ne_true, if_neg Bool.false_ne_true]

/-- A character that is no word character ends the word before it. -/
theorem step_close (s : Tally) {c : Char} (h : isWord c = false) : s.close.step c = s.step c := by
  cases h' : isBlank c with
  | false => rw [step_other _ h h', step_other _ h h', close_close]
  | true => rw [step_blank _ h', step_blank _ h', close_close]

/-- After a character that is no word character the reader is in no word. -/
theorem current_step (s : Tally) {c : Char} (h : isWord c = false) : (s.step c).current = [] := by
  cases h' : isBlank c with
  | false => rw [step_other _ h h', current_close]
  | true => rw [step_blank _ h', current_close]

/-- A letter is read as its capital form. -/
theorem step_form (s : Tally) {c : Char} (h : c ∈ letterForms) :
    (upperChar c).foldl step s = s.step c := by
  obtain ⟨-, hword, d, hupper, -, hword', hupper'⟩ := letterForms_spec c h
  rw [hupper, List.foldl_cons, List.foldl_nil, step_word s hword, step_word s hword', hupper,
    hupper']

end Tally

/-- The reader that collects characters and words. A word goes on from one word character to the
next. -/
def tallyReader : Reader Tally where
  step := Tally.step
  close := Tally.close
  isTight := isWord
  step_blank s c h := s.step_blank h
  close_close := Tally.close_close
  step_close s c h := s.step_close h
  close_step s c h := Tally.close_eq_self (s.current_step h)
  isWord_eq a b ha hb := ha.trans hb.symm
  isTight_punctuation c hc := by
    simp only [List.mem_cons, List.not_mem_nil, or_false] at hc
    rcases hc with rfl | rfl | rfl | rfl | rfl <;> rfl
  step_form s c h := s.step_form h

namespace Tally

/-- A step sees the character in capitals, unless it is white space. -/
theorem chars_step (s : Tally) (c : Char) :
    (s.step c).chars = s.chars ++ upper (nonBlank [c]) := by
  -- The three kinds of step; a word character is no white space.
  cases hword : isWord c with
  | true =>
    have hblank : isBlank c = false := by
      cases hblank : isBlank c with
      | false => rfl
      | true => rw [isWord_of_isBlank hblank] at hword; cases hword
    rw [step_word _ hword]
    simp [nonBlank, hblank, upper]
  | false =>
    cases hblank : isBlank c with
    | true =>
      rw [step_blank _ hblank, chars_close]
      simp [nonBlank, hblank, upper]
    | false =>
      rw [step_other _ hword hblank, chars_close]
      simp [nonBlank, hblank, upper]

/-- The reader sees the visible characters in capitals. -/
theorem chars_read (s : Tally) (t : Text) :
    (tallyReader.read s t).chars = s.chars ++ upper (nonBlank t) := by
  induction t generalizing s with
  | nil => simp [Reader.read_nil, nonBlank, upper]
  | cons c t ih =>
    have hsplit : nonBlank (c :: t) = nonBlank [c] ++ nonBlank t := nonBlank_append [c] t
    have hstep : (tallyReader.step s c).chars = s.chars ++ upper (nonBlank [c]) := chars_step s c
    rw [Reader.read_cons, ih, hstep, hsplit, upper_append, List.append_assoc]

/-- The word that the reader is in and the words after it, once all of a text is read. -/
def runsOf (current : Text) (pieces : List Text) : List Text :=
  (match pieces with
    | [] => [current]
    | first :: rest => (current ++ upper first) :: rest.map upper).filter (fun w => !w.isEmpty)

/-- The word that ends is the last one. -/
theorem runs_close (s : Tally) : s.close.runs = s.runs ++ runsOf s.current [[]] := by
  rw [close]
  by_cases h : s.current.isEmpty = true
  · simp [runsOf, upper, h]
  · simp [runsOf, upper, h]

/-- Once the text has ended, its words have been seen, the first of them together with what the
reader was in before. -/
theorem runs_read (s : Tally) (t : Text) :
    (tallyReader.read s t).close.runs =
      s.runs ++ runsOf s.current (splitAtEach (fun c => !isWord c) t) := by
  induction t generalizing s with
  | nil => exact runs_close s
  | cons c t ih =>
    rw [Reader.read_cons, ih]
    show (s.step c).runs ++ runsOf (s.step c).current (splitAtEach (fun c => !isWord c) t) = _
    rw [splitAtEach_cons]
    cases hrest : splitAtEach (fun c => !isWord c) t with
    | nil => exact absurd hrest (splitAtEach_ne_nil _ t)
    | cons first rest =>
      -- A word character makes the first run longer; any other ends it.
      cases hword : isWord c with
      | true =>
        rw [step_word s hword]
        simp [runsOf, upper_cons]
      | false =>
        have hruns : (s.step c).runs = s.close.runs := by
          cases hblank : isBlank c with
          | true => rw [step_blank s hblank]
          | false => rw [step_other s hword hblank]
        rw [hruns, current_step s hword, runs_close]
        have hnil : upper [] = [] := rfl
        by_cases hcurrent : s.current = []
        · simp [runsOf, hnil, hcurrent]
        · simp [runsOf, hnil, hcurrent]

end Tally

/-- What is read of a whole text. -/
def Text.tally (t : Text) : Tally := (tallyReader.read Tally.start t).close

/-- The characters of a tally are the visible ones of the text in capitals. -/
theorem chars_tally (t : Text) : t.tally.chars = upper (nonBlank t) := by
  rw [tally, Tally.chars_close, Tally.chars_read]
  rfl

/-- The words of a tally are the runs of word characters in capitals. -/
theorem runs_tally (t : Text) : t.tally.runs = (wordRuns t).map upper := by
  rw [tally, Tally.runs_read]
  cases h : splitAtEach (fun c => !isWord c) t with
  | nil => exact absurd h (splitAtEach_ne_nil _ t)
  | cons first rest =>
    have hfilter : (fun w : Text => !w.isEmpty) ∘ upper = fun w => !w.isEmpty :=
      funext fun w => congrArg _ (isEmpty_upper w)
    simp only [Tally.start, Tally.runsOf, List.nil_append, wordRuns, h]
    rw [← List.map_cons, List.filter_map, hfilter]

end CodeTidy
