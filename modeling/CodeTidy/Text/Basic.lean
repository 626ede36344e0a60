/-!
# `CodeTidy.Text.Basic`: text as a list of characters

All of the library works on `Text`, a list of Unicode scalar values, so that
lengths, offsets and slices count characters and every operation is a list
operation. `String` appears only where text enters or leaves the program.

The module holds the operations that do not depend on a character class:
cutting at separators, joining, searching and replacing. `unlines_lines` says
that the lines of a text, put together again, are the text.
-/

set_option autoImplicit false

namespace CodeTidy

/-- A text is the list of its characters. -/
abbrev Text := List Char

instance : Coe String Text := ⟨String.toList⟩

namespace Text

/-- The text as a `String`, for output. -/
def toStr (t : Text) : String := String.ofList t

/-- The decimal digits of a natural number. -/
def ofNat (n : Nat) : Text := (Nat.repr n).toList

/-- The decimal digits of an integer, a minus sign before a negative one. -/
def ofInt : Int → Text
  | .ofNat n => ofNat n
  | .negSucc n => '-' :: ofNat (n + 1)

/-- The pieces between the characters that satisfy `sep`, empty ones included. There is always at
least one piece. -/
def splitAtEach (sep : Char → Bool) (t : Text) : List Text :=
  t.foldr
    (fun c pieces =>
      if sep c then [] :: pieces
      else match pieces with
        | [] => [[c]]
        | piece :: rest => (c :: piece) :: rest)
    [[]]

/-- The lines of a text: the pieces between its line feeds. -/
def lines (t : Text) : List Text := splitAtEach (· == '\n') t

/-- The pieces with `sep` between each two of them. -/
def joinWith (sep : Text) (pieces : List Text) : Text := List.intercalate sep pieces

/-- The lines with a line feed between each two of them. -/
def unlines (ls : List Text) : Text := joinWith ['\n'] ls

/-- The text without the characters at its end that satisfy `p`. -/
def dropEndWhile (p : Char → Bool) (t : Text) : Text := (t.reverse.dropWhile p).reverse

/-- The text without the characters at both ends that satisfy `p`. -/
def dropAroundWhile (p : Char → Bool) (t : Text) : Text := dropEndWhile p (t.dropWhile p)

/-- Whether `t` begins with `start`. -/
def startsWith (t start : Text) : Bool := start.isPrefixOf t

/-- Whether `t` ends with `tail`. -/
def endsWith (t tail : Text) : Bool := tail.isSuffixOf t

/-- Whether `t` begins with one of `starts`. -/
def startsWithAny (t : Text) (starts : List Text) : Bool := starts.any (startsWith t)

/-- Whether `part` occurs in the text. -/
def holds : (t part : Text) → Bool
  | [], part => part.isEmpty
  | c :: r, part => part.isPrefixOf (c :: r) || holds r part

/-- The text before and after the first occurrence of the character `c`, if it occurs. -/
def cutAt? (c : Char) (t : Text) : Option (Text × Text) :=
  match t.span (· != c) with
  | (_, []) => none
  | (before, _ :: after) => some (before, after)

/-- Replace the occurrences of a non-empty text from left to right; `skip` counts the characters
of the occurrence just replaced that are still to be passed over. -/
def replaceFrom (old new : Text) : Nat → Text → Text
  | _, [] => []
  | skip + 1, _ :: r => replaceFrom old new skip r
  | 0, c :: r =>
    if old.isPrefixOf (c :: r) then new ++ replaceFrom old new (old.length - 1) r
    else c :: replaceFrom old new 0 r

/-- Replace every occurrence of `old`, from left to right and without overlap. The empty text
occurs before each character and at the end. -/
def replaceAll (old new t : Text) : Text :=
  if old.isEmpty then new ++ t.flatMap (fun c => c :: new) else replaceFrom old new 0 t

/-- Replace the first occurrence of `old`, if there is one. -/
def replaceFirst (old new : Text) : Text → Text
  | [] => if old.isEmpty then new else []
  | c :: r =>
    if old.isPrefixOf (c :: r) then new ++ (c :: r).drop old.length
    else c :: replaceFirst old new r

/-- Tabs become spaces up to the next multiple of `width`; a line end starts the count again. -/
def expandTabs (width : Nat) (t : Text) : Text :=
  go 0 t
where
  go : Nat → Text → Text
    | _, [] => []
    | column, '\t' :: r =>
      let fill := width - column % width
      List.replicate fill ' ' ++ go (column + fill) r
    | column, c :: r => c :: go (if c == '\n' || c == '\r' then 0 else column + 1) r

/-- The text padded with `fill` on the left up to `width` characters. -/
def padLeft (width : Nat) (fill : Char) (t : Text) : Text :=
  List.replicate (width - t.length) fill ++ t

/-- The text padded with `fill` on the right up to `width` characters. -/
def padRight (width : Nat) (fill : Char) (t : Text) : Text :=
  t ++ List.replicate (width - t.length) fill

/-- There is always a piece, if an empty one. -/
theorem splitAtEach_ne_nil (sep : Char → Bool) (t : Text) : splitAtEach sep t ≠ [] := by
  cases t with
  | nil => simp [splitAtEach]
  | cons c r =>
    simp only [splitAtEach, List.foldr_cons]
    split
    · simp
    · split <;> simp

/-- A separator ends an empty piece; any other character belongs to the first piece of the rest. -/
theorem splitAtEach_cons (sep : Char → Bool) (c : Char) (r : Text) :
    splitAtEach sep (c :: r) =
      if sep c then [] :: splitAtEach sep r
      else match splitAtEach sep r with
        | [] => [[c]]
        | piece :: rest => (c :: piece) :: rest := rfl

/-- A line feed ends an empty line; any other character belongs to the first line of the rest. -/
theorem lines_cons (c : Char) (r : Text) :
    lines (c :: r) =
      if c == '\n' then [] :: lines r
      else match lines r with
        | [] => [[c]]
        | l :: ls => (c :: l) :: ls := rfl

/-- The lines of a text with line feeds between them are the text. -/
theorem unlines_lines (t : Text) : unlines (lines t) = t := by
  induction t with
  | nil => rfl
  | cons c r ih =>
    rw [lines_cons]
    cases h : lines r with
    | nil => exact absurd h (splitAtEach_ne_nil _ r)
    | cons l ls =>
      rw [h] at ih
      by_cases hc : c = '\n'
      · subst hc
        simpa [unlines, joinWith, List.intercalate_cons_cons] using ih
      · cases ls <;> simp_all [unlines, joinWith, List.intercalate_cons_cons]

end Text

end CodeTidy
