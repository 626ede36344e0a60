import CodeTidy.Screen.Width
import CodeTidy.Text.Blank

/-!
# `CodeTidy.Screen.Wrap`: lines that are no wider than the screen

A line that is too wide is broken before words. A word that is wider than the
screen itself begins on a line of its own and is broken anywhere.
-/

set_option autoImplicit false

namespace CodeTidy.Screen

/-- The width of the screen. -/
def columns : Nat := 100

/-- The distance of tab stops in plain text. -/
def tabStop : Nat := 8

/-- The words of a line, each with the white space after it; the first one also has the white space
before it. The length of the line bounds the number of words. -/
def wordsWithBlanks : (bound : Nat) → Text → List Text
  | 0, _ => []
  | bound + 1, t =>
    let lead := t.takeWhile Text.isBlank
    let word := (t.drop lead.length).takeWhile (fun c => !Text.isBlank c)
    if word.isEmpty then []
    else
      let rest := t.drop (lead.length + word.length)
      let trail := rest.takeWhile Text.isBlank
      (lead ++ word ++ trail) :: wordsWithBlanks bound (rest.drop trail.length)

/-- The text in pieces of at most `cells`. -/
def chop (cells : Nat) (t : Text) : List Text :=
  go 0 t
where
  go : Nat → Text → List Text
    | _, [] => [[]]
    | used, c :: rest =>
      if cells < used + charWidth c then
        match go (charWidth c) rest with
        | piece :: pieces => [] :: (c :: piece) :: pieces
        | [] => [[], [c]]
      else
        match go (used + charWidth c) rest with
        | piece :: pieces => (c :: piece) :: pieces
        | [] => [[c]]

/-- The lines so far: the closed ones, the open one, and how many cells of it are used. -/
structure Lines where
  closed : List Text
  current : Text
  used : Nat

namespace Lines

/-- The lines with the open one closed, unless it is empty. -/
def breakLine (ls : Lines) : Lines :=
  if ls.current.isEmpty then ls else ⟨ls.closed ++ [ls.current], [], 0⟩

/-- The lines with a text at the end of the open one. -/
def append (ls : Lines) (t : Text) : Lines := ⟨ls.closed, ls.current ++ t, ls.used + width t⟩

/-- The lines with one more word. -/
def addWord (cells : Nat) (ls : Lines) (word : Text) : Lines :=
  let size := width (Text.trimEnd word)
  if ls.used + size ≤ cells then ls.append word
  else if size ≤ cells then ls.breakLine.append word
  else (chop cells word).foldl (fun ls piece => ls.breakLine.append piece) ls

end Lines

/-- The line without the white space at its end that stands beyond the width. -/
def trimBeyond (cells : Nat) (t : Text) : Text :=
  let blanks := (t.reverse.takeWhile Text.isBlank).length
  t.take (t.length - min blanks (t.length - cells))

/-- The lines that a line without line feeds takes. -/
def wrapLine (cells : Nat) (t : Text) : List Text :=
  let words := wordsWithBlanks t.length t
  if words.isEmpty then [crop cells (trimBeyond cells t)]
  else
    let ls := words.foldl (Lines.addWord cells) ⟨[], [], 0⟩
    (ls.closed ++ [ls.current]).map (fun l => crop cells (trimBeyond cells l))

/-- The lines that a text takes. -/
def wrap (cells : Nat) (t : Text) : List Text :=
  (Text.lines t).flatMap (fun l => wrapLine cells (expandTabs tabStop l))

end CodeTidy.Screen
