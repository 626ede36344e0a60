import CodeTidy.Text.Blank

/-!
# `CodeTidy.Rule.Nesting`: cutting at commas outside brackets and quotes

A `Nesting` says which characters are quotes and which open and close
brackets. `Nesting.cut` cuts a text at the commas outside of both.
`splitParams` reads a parameter list this way, `splitColumns` the columns of a
query.
-/

set_option autoImplicit false

namespace CodeTidy

/-- The characters that quote, open and close. -/
structure Nesting where
  quotes : Text
  openers : Text
  closers : Text

namespace Nesting

/-- Where a scan stands: how many more brackets were opened than closed, and the quote it is
in. -/
structure State where
  depth : Int
  quote : Option Char
  deriving DecidableEq, Repr

/-- The state at the start of a text. -/
def State.start : State := ⟨0, none⟩

/-- The state after one more character. Inside quotes only the closing quote counts. -/
def step (n : Nesting) (s : State) (c : Char) : State :=
  match s.quote with
  | some q => if c == q then { s with quote := none } else s
  | none =>
    if n.quotes.contains c then { s with quote := some c }
    else if n.openers.contains c then { s with depth := s.depth + 1 }
    else if n.closers.contains c then { s with depth := s.depth - 1 }
    else s

/-- Whether the text is cut at the character. -/
def cutsAt (s : State) (c : Char) : Bool := s.quote.isNone && s.depth == 0 && c == ','

/-- The pieces between the commas outside brackets and quotes, from a state on. -/
def cutFrom (n : Nesting) : State → Text → List Text
  | _, [] => [[]]
  | s, c :: r =>
    if cutsAt s c then [] :: cutFrom n s r
    else match cutFrom n (n.step s c) r with
      | [] => [[c]]
      | piece :: rest => (c :: piece) :: rest

/-- The pieces between the commas outside brackets and quotes. -/
def cut (n : Nesting) (t : Text) : List Text := cutFrom n State.start t

/-- In a parameter list all brackets nest, angle brackets too. -/
def params : Nesting := ⟨"\"'", "([\x7b<", ")]\x7d>"⟩

/-- In a list of columns only parentheses nest. -/
def columns : Nesting := ⟨"'\"`", "(", ")"⟩

end Nesting

/-- The parameters of a parameter list, without the white space around them. -/
def splitParams (t : Text) : List Text :=
  ((Nesting.params.cut t).map Text.trim).filter (fun p => !p.isEmpty)

/-- The columns of a select list, as they are written. -/
def splitColumns (t : Text) : List Text := Nesting.columns.cut t

end CodeTidy
