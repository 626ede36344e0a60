import CodeTidy.Text.Word
import CodeTidy.Text.Blank

/-!
# `CodeTidy.Model.Fence`: the code in an answer

A model is asked to put its code into a fenced block, that is, between a line
with three backticks and a tag and the next three backticks. `Fence.code`
takes the body of the first such block. An answer without one is code as a
whole.
-/

set_option autoImplicit false

namespace CodeTidy.Fence

/-- The mark at both ends of a block. -/
def mark : Text := ['\x60', '\x60', '\x60']

/-- The characters of a tag. -/
def isTagChar (c : Char) : Bool := Text.isWord c || c == '+' || c == '#' || c == '.' || c == '-'

/-- The text after an opening line, if the text begins with one. -/
def afterOpening? (t : Text) : Option Text :=
  if mark.isPrefixOf t then
    let rest :=
      ((t.drop mark.length).dropWhile isTagChar).dropWhile (fun c => c == ' ' || c == '\t')
    match rest with
    | '\n' :: body => some body
    | _ => none
  else none

/-- The text before the first mark, without the line end right before it. -/
def beforeMark? (t : Text) : Option Text :=
  if mark.isPrefixOf t || ('\n' :: mark).isPrefixOf t then some []
  else
    match t with
    | [] => none
    | c :: rest => (beforeMark? rest).map (c :: ·)

/-- The body of the first block in a text. -/
def body? : Text → Option Text
  | [] => none
  | c :: rest =>
    match (afterOpening? (c :: rest)).bind beforeMark? with
    | some body => some body
    | none => body? rest

/-- The code in an answer. -/
def code (answer : Text) : Text := (body? answer).getD (Text.trim answer)

end CodeTidy.Fence
