import CodeTidy.Diff.Script
import CodeTidy.Text.Blank

/-!
# `CodeTidy.Diff.Unified`: the differences of two texts in hunks

A hunk shows changes that are close to each other, with a few common lines
around them. `unified` writes all hunks of two texts; equal texts have none.
-/

set_option autoImplicit false

namespace CodeTidy

/-- Steps of an edit script, and the numbers of lines before them. -/
structure Hunk where
  oldStart : Nat
  newStart : Nat
  steps : List Edit

namespace Hunk

/-- How many old lines the hunk covers. -/
def oldSize (h : Hunk) : Nat := (h.steps.flatMap Edit.oldLines).length

/-- How many new lines the hunk covers. -/
def newSize (h : Hunk) : Nat := (h.steps.flatMap Edit.newLines).length

/-- The hunk with one more step. -/
def add (h : Hunk) (step : Edit) : Hunk := { h with steps := h.steps ++ [step] }

/-- The hunks of the remaining steps, of which the first belongs to `current`. A long common stretch
ends a hunk and begins the next one. -/
def collect (context : Nat) : (current : Hunk) → List Edit → List Hunk
  | current, [] => [current]
  | current, [.keep lines] => [current.add (.keep (lines.take context))]
  | current, .keep lines :: rest =>
    if 2 * context < lines.length then
      let skipped := lines.length - context
      let next : Hunk := ⟨current.oldStart + current.oldSize + skipped,
        current.newStart + current.newSize + skipped, [.keep (lines.drop skipped)]⟩
      current.add (.keep (lines.take context)) :: collect context next rest
    else collect context (current.add (.keep lines)) rest
  | current, step :: rest => collect context (current.add step) rest

/-- The hunks of an edit script. -/
def ofScript (context : Nat) (script : List Edit) : List Hunk :=
  let hunks := match script with
    | .keep lines :: rest =>
      let skipped := lines.length - context
      collect context ⟨skipped, skipped, [.keep (lines.drop skipped)]⟩ rest
    | steps => collect context ⟨0, 0, []⟩ steps
  hunks.filter (fun h => h.steps.any Edit.isChange)

/-- A range of lines: the number of the first one and how many they are, if that is not one. An
empty range stands after the line before it. -/
def rangeText (start size : Nat) : Text :=
  if size = 1 then Text.ofNat (start + 1)
  else if size = 0 then Text.ofNat start ++ ",0"
  else Text.ofNat (start + 1) ++ "," ++ Text.ofNat size

/-- Lines under a mark. -/
def markLines (mark : Char) (lines : List Text) : Text := lines.flatMap (fun l => mark :: l)

/-- A step as lines under marks. -/
def stepText : Edit → Text
  | .keep lines => markLines ' ' lines
  | .change removed added => markLines '-' removed ++ markLines '+' added

/-- The hunk as a text. -/
def text (h : Hunk) : Text :=
  "@@ -" ++ rangeText h.oldStart h.oldSize ++ " +" ++ rangeText h.newStart h.newSize ++ " @@\n" ++
    h.steps.flatMap stepText

end Hunk

namespace Diff

/-- The number of common lines around changes. -/
def contextLines : Nat := 3

/-- The differences of two texts under their names; nothing if they are equal. -/
def unified (oldName newName before after : Text) : Text :=
  let hunks := Hunk.ofScript contextLines
    (script (Text.linesWithEnds before) (Text.linesWithEnds after))
  if hunks.isEmpty then []
  else "--- " ++ oldName ++ "\n+++ " ++ newName ++ "\n" ++ hunks.flatMap Hunk.text

end Diff

end CodeTidy
