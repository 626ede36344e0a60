import CodeTidy.Text.Basic

/-!
# `CodeTidy.Diff.Script`: the edit script between two lists of lines

The script is found from the longest common stretch of the two lists; the parts
before it and after it are treated in the same way. In a list of 200 lines or
more, a line that stands there very often starts no stretch, but may lengthen
one.
-/

set_option autoImplicit false

namespace CodeTidy

/-- One step of an edit script. -/
inductive Edit where
  | keep (lines : List Text)
  | change (removed added : List Text)
  deriving DecidableEq, Repr

namespace Edit

/-- The lines of the old list. -/
def oldLines : Edit → List Text
  | .keep lines => lines
  | .change removed _ => removed

/-- The lines of the new list. -/
def newLines : Edit → List Text
  | .keep lines => lines
  | .change _ added => added

/-- The lines that stand in both lists. -/
def keptLines : Edit → List Text
  | .keep lines => lines
  | .change _ _ => []

/-- Whether the two lists differ here. -/
def isChange : Edit → Bool
  | .keep _ => false
  | .change _ _ => true

end Edit

namespace Diff

/-- A line under the number of its text: equal texts have equal numbers. -/
structure Line where
  number : Nat
  text : Text

/-- The lines under the numbers of their texts in a list of texts. -/
def numbered (texts lines : List Text) : List Line := lines.map (fun t => ⟨texts.idxOf t, t⟩)

/-- A common stretch: where it starts in both lists, and how long it is. -/
structure Stretch where
  oldStart : Nat
  newStart : Nat
  size : Nat
  deriving DecidableEq, Repr

/-- For each line of the new list, the length of the common stretch that ends there and at a line of
the old list, given the lengths for the line before that. -/
def runLengths (starts : Nat → Bool) (line : Nat) (previous : List Nat)
    (new : List Line) : List Nat :=
  List.zipWith (fun other before => if line == other.number && starts line then before + 1 else 0)
    new (0 :: previous)

/-- The longer of the best stretch so far and those that end at the old line `i`. -/
def bestInRow (i : Nat) : (j : Nat) → List Nat → Stretch → Stretch
  | _, [], best => best
  | j, size :: rest, best =>
    bestInRow i (j + 1) rest
      (if best.size < size then ⟨i + 1 - size, j + 1 - size, size⟩ else best)

/-- The longest stretch from the old line `i` on; of equally long ones the first. -/
def longestFrom (starts : Nat → Bool) (new : List Line) :
    (i : Nat) → List Nat → List Line → Stretch → Stretch
  | _, _, [], best => best
  | i, previous, line :: rest, best =>
    let row := runLengths starts line.number previous new
    longestFrom starts new (i + 1) row rest (bestInRow i 0 row best)

/-- How many lines two lists have in common at their starts. -/
def commonLength : List Line → List Line → Nat
  | x :: xs, y :: ys => if x.number == y.number then commonLength xs ys + 1 else 0
  | _, _ => 0

/-- The stretch lengthened in both directions. -/
def Stretch.widened (s : Stretch) (old new : List Line) : Stretch :=
  let before := commonLength (old.take s.oldStart).reverse (new.take s.newStart).reverse
  let after := commonLength (old.drop (s.oldStart + s.size)) (new.drop (s.newStart + s.size))
  ⟨s.oldStart - before, s.newStart - before, before + s.size + after⟩

/-- The longest common stretch. -/
def longest (starts : Nat → Bool) (old new : List Line) : Stretch :=
  (longestFrom starts new 0 (List.replicate new.length 0) old ⟨0, 0, 0⟩).widened old new

/-- The step that replaces all lines. -/
def replaceAll (old new : List Line) : List Edit :=
  if old.isEmpty && new.isEmpty then [] else [.change (old.map Line.text) (new.map Line.text)]

/-- The steps between two lists. Both parts around a stretch have fewer old lines, so their number
is a sufficient bound. -/
def steps (starts : Nat → Bool) : (bound : Nat) → List Line → List Line → List Edit
  | 0, old, new => replaceAll old new
  | bound + 1, old, new =>
    let s := longest starts old new
    if s.size = 0 then replaceAll old new
    else
      steps starts bound (old.take s.oldStart) (new.take s.newStart) ++
      .keep (((old.drop s.oldStart).take s.size).map Line.text) ::
      steps starts bound (old.drop (s.oldStart + s.size)) (new.drop (s.newStart + s.size))

/-- The steps with neighbouring common stretches put together. -/
def joinKept : List Edit → List Edit
  | .keep first :: rest =>
    match joinKept rest with
    | .keep second :: later => .keep (first ++ second) :: later
    | later => .keep first :: later
  | step :: rest => step :: joinKept rest
  | [] => []

/-- From how many lines on frequent lines start no stretch. -/
def manyLines : Nat := 200

/-- Whether a line may start a stretch: in a long list it may stand in one line of a hundred, and
once more. -/
def startsStretch (new : List Line) (line : Nat) : Bool :=
  new.length < manyLines || (new.filter (fun l => l.number == line)).length ≤ new.length / 100 + 1

/-- The edit script that makes the new lines out of the old ones. -/
def script (old new : List Text) : List Edit :=
  let texts := old ++ new
  let new := numbered texts new
  let frequent := (new.map Line.number).filter (fun n => !startsStretch new n)
  joinKept (steps (fun n => !frequent.elem n) (old.length + 1) (numbered texts old) new)

end Diff

end CodeTidy
