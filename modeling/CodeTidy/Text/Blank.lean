import CodeTidy.Text.Basic

/-!
# `CodeTidy.Text.Blank`: white space, and the operations that look for it

White space is Unicode white space and the four information separators
U+001C to U+001F. The lemma `isBlank_of_isWhitespace` says that every
character core calls white space is among them.

Besides the line feed, the carriage return, the vertical tab, the form feed,
three of the information separators, the next-line control and Unicode's line
and paragraph separators end a line. A carriage return and the line feed after
it are one line end. The lemma `flatten_linesWithEnds` says that the pieces
make up the text.
-/

set_option autoImplicit false

namespace CodeTidy.Text

/-- White space: Unicode's, with the information separators U+001C to U+001F. -/
def isBlank (c : Char) : Bool :=
  let n := c.toNat
  if n < 128 then n == 32 || (9 ≤ n && n ≤ 13) || (28 ≤ n && n ≤ 31)
  else n == 0x85 || n == 0xA0 || n == 0x1680 || (0x2000 ≤ n && n ≤ 0x200A) ||
    n == 0x2028 || n == 0x2029 || n == 0x202F || n == 0x205F || n == 0x3000

/-- A space or a tab, the two characters that indent a line. -/
def isIndent (c : Char) : Bool := c == ' ' || c == '\t'

/-- The text without white space at its start. -/
def trimStart (t : Text) : Text := t.dropWhile isBlank

/-- The text without white space at its end. -/
def trimEnd (t : Text) : Text := dropEndWhile isBlank t

/-- The text without white space at both ends. -/
def trim (t : Text) : Text := dropAroundWhile isBlank t

/-- Whether the text holds nothing but white space. -/
def allBlank (t : Text) : Bool := t.all isBlank

/-- The maximal runs of characters other than white space. -/
def words (t : Text) : List Text := (splitAtEach isBlank t).filter (fun w => !w.isEmpty)

/-- The spaces and tabs at the start of a line. -/
def indentOf (line : Text) : Text := line.takeWhile isIndent

/-- What the library takes for white space is white space here. -/
theorem isBlank_of_isWhitespace {c : Char} (h : c.isWhitespace = true) : isBlank c = true := by
  simp only [Char.isWhitespace, Bool.or_eq_true, decide_eq_true_eq] at h
  rcases h with ((h | h) | h) | h <;> subst h <;> decide

/-- What lines are indented with is white space. -/
theorem isBlank_of_isIndent {c : Char} (h : isIndent c = true) : isBlank c = true := by
  simp only [isIndent, Bool.or_eq_true, beq_iff_eq] at h
  rcases h with h | h <;> subst h <;> decide

/-! ### Lines that keep their line ends -/

/-- A character that ends a line. -/
def isLineEnd (c : Char) : Bool :=
  c == '\n' || c == '\r' || c == '\x0b' || c == '\x0c' || c == '\x1c' || c == '\x1d' ||
    c == '\x1e' || c == '\u0085' || c == '\u2028' || c == '\u2029'

/-- The lines of a text, each with the line end that closes it. A text that ends with a line end
has no empty last line, and the empty text has no line. -/
def linesWithEnds (t : Text) : List Text :=
  t.foldr
    (fun c pieces =>
      match pieces with
      | [] => [[c]]
      | piece :: rest =>
        if c == '\r' && piece.head? == some '\n' then (c :: piece) :: rest
        else if isLineEnd c then [c] :: piece :: rest
        else (c :: piece) :: rest)
    []

/-- A carriage return joins the line feed behind it; any other line end closes a line of its own;
all else belongs to the first line of the rest. -/
theorem linesWithEnds_cons (c : Char) (r : Text) :
    linesWithEnds (c :: r) =
      match linesWithEnds r with
      | [] => [[c]]
      | l :: ls =>
        if c == '\r' && l.head? == some '\n' then (c :: l) :: ls
        else if isLineEnd c then [c] :: l :: ls
        else (c :: l) :: ls := rfl

/-- The lines with their line ends are the text. -/
theorem flatten_linesWithEnds (t : Text) : (linesWithEnds t).flatten = t := by
  induction t with
  | nil => rfl
  | cons c r ih =>
    rw [linesWithEnds_cons]
    cases h : linesWithEnds r with
    | nil => simp [h] at ih; simp [← ih]
    | cons piece rest =>
      rw [h] at ih
      simp only [List.flatten_cons] at ih
      dsimp only
      split
      · simp [ih]
      · split <;> simp [ih]

end CodeTidy.Text
