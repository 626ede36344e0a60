import CodeTidy.Proofs.Text.Lines
import CodeTidy.Proofs.Text.Tables

/-!
# `CodeTidy.Proofs.Text.Reader`: reading a text and minding its layout little

A layout changes the white space of a text and the case of some words. What it
must not change is said by a `Reader`: a state that each character takes to
the next one. White space only closes what the reader is in the middle of. Of
the other characters those that are tight may go on with the one before them,
so white space in front of them counts; in front of the others it does not.
`CodeTidy.Proofs.Text.Tally` reads words this way, and
`CodeTidy.Proofs.Text.Marks` reads the characters that literals are made of.

Cutting a text at white space and joining the pieces with other white space
changes no closed state. The theorems:

* `read_blanks`: white space does no more than close.
* `step_at_boundary`: at the boundary of a word white space does not count.
* `close_read_joinWith`, `close_read_splitAtEach`: how pieces are joined, and
  how the text was cut, does not count.
* `close_read_squeeze`, `close_read_unlines`: single spaces between words, and
  lines that are changed at their ends only.
-/

set_option autoImplicit false

namespace CodeTidy

namespace Text

/-- The characters of a text other than white space. -/
def nonBlank (t : Text) : Text := t.filter (fun c => !isBlank c)

/-- The visible characters of two texts in a row. -/
theorem nonBlank_append (t u : Text) : nonBlank (t ++ u) = nonBlank t ++ nonBlank u :=
  List.filter_append t u

/-- White space in front is not visible. -/
theorem nonBlank_cons_blank {c : Char} (h : isBlank c = true) (t : Text) :
    nonBlank (c :: t) = nonBlank t :=
  List.filter_cons_of_neg (by simp [h])

/-- Any other character in front is visible. -/
theorem nonBlank_cons {c : Char} (h : isBlank c = false) (t : Text) :
    nonBlank (c :: t) = c :: nonBlank t :=
  List.filter_cons_of_pos (by simp [h])

/-- White space has no visible characters. -/
theorem nonBlank_eq_nil {t : Text} (h : t.all isBlank = true) : nonBlank t = [] := by
  rw [nonBlank, List.filter_eq_nil_iff]
  intro c hc
  rw [List.all_eq_true.mp h c hc]
  exact Bool.noConfusion

/-- White space around a text does not count among its visible characters. -/
theorem nonBlank_between {s s' : Text} (hs : s.all isBlank = true) (hs' : s'.all isBlank = true)
    (t : Text) : nonBlank (s ++ (t ++ s')) = nonBlank t := by
  rw [nonBlank_append, nonBlank_append, nonBlank_eq_nil hs, nonBlank_eq_nil hs', List.nil_append,
    List.append_nil]

/-- To trim a text takes no visible character. -/
theorem nonBlank_trim (t : Text) : nonBlank (trim t) = nonBlank t := by
  obtain ⟨s, s', ht, hs, hs'⟩ := exists_blanks_around t
  calc nonBlank (trim t) = nonBlank (s ++ (trim t ++ s')) := (nonBlank_between hs hs' _).symm
    _ = nonBlank t := by rw [← ht]

/-- What lines are indented with is white space. -/
theorem all_isBlank_of_isIndent {s : Text} (h : s.all isIndent = true) : s.all isBlank = true :=
  List.all_eq_true.mpr fun c hc => isBlank_of_isIndent (List.all_eq_true.mp h c hc)

/-- Whether the text begins with no word character. -/
def beginsNoWord (t : Text) : Bool := t.head?.all (fun c => !isWord c)

/-- Whether a text begins with a word character is said by its first character. -/
theorem beginsNoWord_cons (c : Char) (t : Text) : beginsNoWord (c :: t) = !isWord c := rfl

/-- The first piece of a text that begins with no word does so too. -/
theorem beginsNoWord_of_append {t u : Text} (h : beginsNoWord (t ++ u) = true) :
    beginsNoWord t = true := by
  cases t with
  | nil => rfl
  | cons c t => exact h

/-- The capitals of two texts in a row. -/
theorem upper_append (t u : Text) : upper (t ++ u) = upper t ++ upper u :=
  List.flatMap_append

/-- The capitals of a text, character by character. -/
theorem upper_cons (c : Char) (t : Text) : upper (c :: t) = upperChar c ++ upper t :=
  List.flatMap_cons

end Text

open Text

/-- A way to read a text character by character. -/
structure Reader (σ : Type) where
  /-- The state after one more character. -/
  step : σ → Char → σ
  /-- The state in which nothing goes on from the character before. -/
  close : σ → σ
  /-- Whether the character may go on from the one before it. -/
  isTight : Char → Bool
  step_blank : ∀ s c, isBlank c = true → step s c = close s
  close_close : ∀ s, close (close s) = close s
  /-- In front of a character that is not tight white space does not count. -/
  step_close : ∀ s c, isTight c = false → step (close s) c = step s c
  /-- Nothing goes on from a character that is not tight. -/
  close_step : ∀ s c, isTight c = false → close (step s c) = step s c
  /-- Nothing goes on from a word to something else or back. -/
  isWord_eq : ∀ a b, isTight a = true → isTight b = true → isWord a = isWord b
  /-- The characters that lists, parentheses and lines end with are not tight. -/
  isTight_punctuation : ∀ c ∈ [',', ';', '(', ')', '\n'], isTight c = false
  /-- Capital letters are read like small ones. -/
  step_form : ∀ s c, c ∈ letterForms → (upperChar c).foldl step s = step s c

namespace Reader

variable {σ : Type} (r : Reader σ)

/-- The state after a text. -/
def read (s : σ) (t : Text) : σ := t.foldl r.step s

/-- Nothing is read of an empty text. -/
theorem read_nil (s : σ) : r.read s [] = s := rfl

/-- A text is read from its first character on. -/
theorem read_cons (s : σ) (c : Char) (t : Text) : r.read s (c :: t) = r.read (r.step s c) t := rfl

/-- Two texts in a row are read one after the other. -/
theorem read_append (s : σ) (t u : Text) : r.read s (t ++ u) = r.read (r.read s t) u :=
  List.foldl_append

/-- White space does no more than close. -/
theorem read_blanks (s : σ) {u : Text} (h : u.all isBlank = true) (hu : u ≠ []) :
    r.read s u = r.close s := by
  induction u generalizing s with
  | nil => exact absurd rfl hu
  | cons c u ih =>
    rw [List.all_cons, Bool.and_eq_true] at h
    rw [read_cons, r.step_blank s c h.1]
    cases u with
    | nil => rfl
    | cons d u => rw [ih (r.close s) h.2 (List.cons_ne_nil _ _), r.close_close]

/-- Where nothing goes on, white space does nothing. -/
theorem read_blanks_of_closed {s : σ} (hs : r.close s = s) {u : Text}
    (h : u.all isBlank = true) : r.read s u = s := by
  cases u with
  | nil => rfl
  | cons c u => rw [r.read_blanks s h (List.cons_ne_nil _ _), hs]

/-- White space at the end does not count. -/
theorem close_read_append_blanks (s : σ) (t : Text) {u : Text} (h : u.all isBlank = true) :
    r.close (r.read s (t ++ u)) = r.close (r.read s t) := by
  rw [read_append]
  cases u with
  | nil => rfl
  | cons c u => rw [r.read_blanks _ h (List.cons_ne_nil c u), r.close_close]

/-- At the boundary of a word white space does not count. -/
theorem step_at_boundary (s : σ) {a b : Char} (h : isWord a ≠ isWord b) :
    r.step (r.close (r.step s a)) b = r.step (r.step s a) b := by
  cases ha : r.isTight a with
  | false => rw [r.close_step s a ha]
  | true =>
    cases hb : r.isTight b with
    | false => exact r.step_close _ b hb
    | true => exact absurd (r.isWord_eq a b ha hb) h

/-- In front of a word white space does not count. -/
def IsFree (s : σ) : Prop := ∀ c, isWord c = true → r.step (r.close s) c = r.step s c

/-- Behind what is no word character white space does not count. -/
theorem isFree_step (s : σ) {c : Char} (h : isWord c = false) : r.IsFree (r.step s c) := by
  intro d hd
  exact r.step_at_boundary s (by rw [h, hd]; exact Bool.noConfusion)

/-- White space does not count where it changes nothing. -/
theorem isFree_of_closed {s : σ} (h : r.close s = s) : r.IsFree s := by
  intro d _
  rw [h]

/-- A text that begins with no word, behind a word: white space between them does not count. -/
theorem close_read_close (s : σ) {a : Char} (ha : isWord a = true) {z : Text}
    (hz : z.beginsNoWord = true) :
    r.close (r.read (r.close (r.step s a)) z) = r.close (r.read (r.step s a) z) := by
  cases z with
  | nil => exact r.close_close _
  | cons b z =>
    rw [beginsNoWord_cons, Bool.not_eq_true'] at hz
    rw [read_cons, read_cons, r.step_at_boundary s (by rw [ha, hz]; exact Bool.noConfusion)]

/-- Letter forms and their capitals are read alike. -/
theorem read_upper (s : σ) {u : Text} (h : ∀ c ∈ u, c ∈ letterForms) :
    r.read s (upper u) = r.read s u := by
  induction u generalizing s with
  | nil => rfl
  | cons c u ih =>
    have hc : r.read s (upperChar c) = r.step s c := r.step_form s c (h c List.mem_cons_self)
    rw [upper_cons, read_append, hc, read_cons,
      ih (r.step s c) (fun d hd => h d (List.mem_cons_of_mem c hd))]

/-! ### Pieces -/

/-- Pieces are read, each on its own. -/
def readPieces (s : σ) (pieces : List Text) : σ :=
  pieces.foldl (fun s w => r.close (r.read s w)) s

/-- Pieces are read from the first one on, each up to its end. -/
theorem readPieces_cons (s : σ) (w : Text) (pieces : List Text) :
    r.readPieces s (w :: pieces) = r.readPieces (r.close (r.read s w)) pieces := rfl

/-- How a text is cut at white space does not count. -/
theorem close_read_splitAtEach {sep : Char → Bool} (hsep : ∀ c, sep c = true → isBlank c = true)
    (s : σ) (t : Text) : r.readPieces s (splitAtEach sep t) = r.close (r.read s t) := by
  induction t generalizing s with
  | nil => rfl
  | cons c t ih =>
    rw [splitAtEach_cons]
    cases hc : sep c with
    | true =>
      rw [if_pos rfl, readPieces_cons, read_nil, ih, read_cons, r.step_blank s c (hsep c hc)]
    | false =>
      rw [if_neg Bool.false_ne_true, read_cons, ← ih]
      cases hrest : splitAtEach sep t with
      | nil => exact absurd hrest (splitAtEach_ne_nil sep t)
      | cons piece rest => rfl

/-- Empty pieces do not count where nothing goes on. -/
theorem readPieces_filter {s : σ} (hs : r.close s = s) (pieces : List Text) :
    r.readPieces s (pieces.filter (fun w => !w.isEmpty)) = r.readPieces s pieces := by
  induction pieces generalizing s with
  | nil => rfl
  | cons w pieces ih =>
    rw [readPieces_cons, ← ih (r.close_close (r.read s w))]
    cases w with
    | nil =>
      rw [read_nil, hs]
      rfl
    | cons c w => rfl

/-- What white space stands between pieces does not count. -/
theorem close_read_joinWith {sep : Text} (hsep : sep.all isBlank = true) (hne : sep ≠ [])
    (s : σ) (w : Text) (pieces : List Text) :
    r.close (r.read s (joinWith sep (w :: pieces))) = r.readPieces s (w :: pieces) := by
  induction pieces generalizing s w with
  | nil =>
    rw [joinWith_singleton]
    rfl
  | cons v pieces ih =>
    rw [joinWith_cons_cons, read_append, read_append, r.read_blanks _ hsep hne, ih,
      r.readPieces_cons s w]

/-- The words of a text, where nothing goes on. -/
theorem readPieces_words {s : σ} (hs : r.close s = s) (t : Text) :
    r.readPieces s (words t) = r.close (r.read s t) := by
  rw [words, r.readPieces_filter hs, r.close_read_splitAtEach (fun c hc => hc)]

/-- Words with single spaces between them, where nothing goes on. -/
theorem close_read_squeeze {s : σ} (hs : r.close s = s) (t : Text) :
    r.close (r.read s (joinWith " ".toList (words t))) = r.close (r.read s t) := by
  have hwords := r.readPieces_words hs t
  cases h : words t with
  | nil =>
    rw [h] at hwords
    rw [← hwords]
    exact hs
  | cons w rest =>
    rw [r.close_read_joinWith (by decide) (by decide), ← h, hwords]

/-- Words with a space behind each of them. -/
theorem read_flatMap_space (s : σ) (ws : List Text) :
    r.read s (ws.flatMap (fun w => w ++ [' '])) = r.readPieces s ws := by
  induction ws generalizing s with
  | nil => rfl
  | cons w ws ih =>
    rw [List.flatMap_cons, read_append, read_append, ih,
      r.read_blanks (r.read s w) (u := [' ']) (by decide) (by decide)]
    rfl

/-- White space at the end of a text is not read if the text ends there. -/
theorem close_read_trimEnd (s : σ) (t : Text) :
    r.close (r.read s (trimEnd t)) = r.close (r.read s t) := by
  -- What is trimmed is the white space behind the rest.
  have hsplit : t = trimEnd t ++ (t.reverse.takeWhile isBlank).reverse := by
    rw [trimEnd, dropEndWhile, ← List.reverse_append, List.takeWhile_append_dropWhile,
      List.reverse_reverse]
  have hblank : (t.reverse.takeWhile isBlank).reverse.all isBlank = true := by
    rw [List.all_reverse]
    exact List.all_takeWhile
  calc r.close (r.read s (trimEnd t))
      = r.close (r.read s (trimEnd t ++ (t.reverse.takeWhile isBlank).reverse)) :=
        (r.close_read_append_blanks s _ hblank).symm
    _ = r.close (r.read s t) := by rw [← hsplit]

/-- White space around a text is not read if something ends in front of it and behind it. -/
theorem close_read_trim {s : σ} (hs : r.close s = s) (t : Text) :
    r.close (r.read s (trim t)) = r.close (r.read s t) :=
  calc r.close (r.read s (trim t))
      = r.close (r.read s (t.dropWhile isBlank)) := r.close_read_trimEnd s (t.dropWhile isBlank)
    _ = r.close (r.read s (t.takeWhile isBlank ++ t.dropWhile isBlank)) := by
        rw [read_append, r.read_blanks_of_closed hs List.all_takeWhile]
    _ = r.close (r.read s t) := by rw [List.takeWhile_append_dropWhile]

/-- A change of the pieces that does not count one by one does not count at all. -/
theorem readPieces_map {f : Text → Text} {s : σ} (hs : r.close s = s)
    (hf : ∀ s, r.close s = s → ∀ w, r.close (r.read s (f w)) = r.close (r.read s w))
    (pieces : List Text) : r.readPieces s (pieces.map f) = r.readPieces s pieces := by
  induction pieces generalizing s with
  | nil => rfl
  | cons w pieces ih =>
    rw [List.map_cons, readPieces_cons, readPieces_cons, hf s hs w, ih (r.close_close _)]

/-- Lines that are changed at their ends only. -/
theorem close_read_unlines {f : Text → Text} {s : σ} (hs : r.close s = s)
    (hf : ∀ s, r.close s = s → ∀ w, r.close (r.read s (f w)) = r.close (r.read s w)) (t : Text) :
    r.close (r.read s (unlines ((lines t).map f))) = r.close (r.read s t) := by
  have hsep : ∀ c, (c == '\n') = true → isBlank c = true := by
    intro c hc
    rw [beq_iff_eq] at hc
    subst hc
    decide
  rw [← r.close_read_splitAtEach hsep s t, ← r.readPieces_map hs hf]
  cases h : lines t with
  | nil => exact absurd h (splitAtEach_ne_nil _ t)
  | cons w rest =>
    rw [List.map_cons, unlines, r.close_read_joinWith (by decide) (by decide), ← List.map_cons,
      ← h]
    rfl

end Reader

end CodeTidy
