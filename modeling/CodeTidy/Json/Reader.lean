import CodeTidy.Double.Decimal
import CodeTidy.Json.Basic
import CodeTidy.Rule.Basic
import CodeTidy.Text.Digit
import CodeTidy.Text.Encoding

/-!
# `CodeTidy.Json.Reader`: reading JSON

`Json.parse` reads a text that is one JSON value with white space around it.
Beyond the standard it takes `NaN`, `Infinity` and `-Infinity`; a whole number
may have 4300 digits at most, and values may be nested up to `maxNesting`. A
repeated key keeps its first place and gets its last value. Of two faults the
first one in the text is reported.

The readers go down by recursion on a number that bounds the calls; twice the
length of the text is always enough, because at most two calls are made between
two characters. Beside it they count down the containers that may still be
opened.
-/

set_option autoImplicit false

namespace CodeTidy.Json

/-- What holds other values. -/
inductive Container where
  | array
  | object
  deriving DecidableEq, Repr

/-- The name of the container. -/
def Container.name : Container → Text
  | .array => "array"
  | .object => "object"

/-- The most containers that may be open around a value. The reader has no bound of its own: it
stops where the interpreter's recursion limit of 1000 is reached, so the number is that limit less
the frames that are in use when the reader is called. It was taken at one call depth; a call from
deeper down has a few levels less. -/
def maxNesting : Nat := 988

/-- A container stands in more containers than may be open. -/
structure NestingError where
  container : Container
  deriving DecidableEq, Repr

/-- What is said about the failure. -/
def NestingError.message (e : NestingError) : Text :=
  "maximum recursion depth exceeded while decoding a JSON " ++ e.container.name ++
    " from a unicode string"

/-- Why a text is not read as a value. -/
inductive ParseError where
  /-- The text is not JSON. -/
  | malformed
  /-- A whole number has more digits than are read. -/
  | tooManyDigits (digits : Nat)
  /-- Values are nested too deeply. -/
  | tooDeep (error : NestingError)
  deriving DecidableEq, Repr

/-- What an optional reader has read; nothing means that the text is not JSON. -/
def required {α : Type} : Option α → Except ParseError α
  | some x => .ok x
  | none => .error .malformed

/-- The white space of JSON. -/
def isSpace (c : Char) : Bool := c == ' ' || c == '\t' || c == '\n' || c == '\r'

/-- The text after white space. -/
def skipSpace (t : Text) : Text := t.dropWhile isSpace

/-- The text after `word`, if it begins with it. -/
def after? (word : Text) (t : Text) : Option Text :=
  if word.isPrefixOf t then some (t.drop word.length) else none

/-- The value of a hexadecimal digit. -/
def hexValue? (c : Char) : Option Nat :=
  if c.isDigit then some (c.toNat - 48)
  else if 'a' ≤ c && c ≤ 'f' then some (c.toNat - 87)
  else if 'A' ≤ c && c ≤ 'F' then some (c.toNat - 55)
  else none

/-- The value of four hexadecimal digits. -/
def unitValue? (a b c d : Char) : Option Nat := do
  return (((← hexValue? a) * 16 + (← hexValue? b)) * 16 + (← hexValue? c)) * 16 + (← hexValue? d)

/-- What an escape of one letter stands for. -/
def escapeValue? : Char → Option Nat
  | '"' => some 34
  | '\\' => some 92
  | '/' => some 47
  | 'b' => some 8
  | 'f' => some 12
  | 'n' => some 10
  | 'r' => some 13
  | 't' => some 9
  | _ => none

/-- The code units of a string up to its closing quote, and the text after it. A control
character may not stand in a string. -/
def units? : Text → Option (List Nat × Text)
  | [] => none
  | '"' :: r => some ([], r)
  | '\\' :: 'u' :: a :: b :: c :: d :: r => do
    let n ← unitValue? a b c d
    let (ns, rest) ← units? r
    return (n :: ns, rest)
  | '\\' :: c :: r => do
    let n ← escapeValue? c
    let (ns, rest) ← units? r
    return (n :: ns, rest)
  | c :: r =>
    if c.toNat < 32 then none
    else do
      let (ns, rest) ← units? r
      return (c.toNat :: ns, rest)

/-- A string after its opening quote. -/
def string? (t : Text) : Option (Text × Text) := do
  let (ns, rest) ← units? t
  return (Text.ofUnits ns, rest)

/-- The whole part of a number: a zero, or digits that do not begin with one. -/
def wholePart? : Text → Option (Text × Text)
  | '0' :: r => some (['0'], r)
  | t =>
    let digits := t.takeWhile Char.isDigit
    if digits.isEmpty then none else some (digits, t.drop digits.length)

/-- The fraction after a point, if at least one digit follows it. -/
def fractionPart : Text → Option Text × Text
  | '.' :: r =>
    let digits := r.takeWhile Char.isDigit
    if digits.isEmpty then (none, '.' :: r) else (some digits, r.drop digits.length)
  | t => (none, t)

/-- The exponent after an `e`, if at least one digit follows it. -/
def exponentPart : Text → Option Int × Text
  | e :: r =>
    if e == 'e' || e == 'E' then
      let (minus, body) := match r with
        | '-' :: body => (true, body)
        | '+' :: body => (false, body)
        | _ => (false, r)
      let digits := body.takeWhile Char.isDigit
      match Text.decimalValue? digits with
      | some n =>
        if digits.isEmpty then (none, e :: r)
        else (some (if minus then -(n : Int) else n), body.drop digits.length)
      | none => (none, e :: r)
    else (none, e :: r)
  | [] => (none, [])

/-- A number without its sign. Without fraction and exponent it is a whole number. -/
def number (negative : Bool) (t : Text) : Except ParseError (Json × Text) := do
  let (whole, rest) ← required (wholePart? t)
  let (fraction, rest) := fractionPart rest
  let (exponent, rest) := exponentPart rest
  if fraction.isNone && exponent.isNone && maxNumberDigits < whole.length then
    throw (.tooManyDigits whole.length)
  let digits ← required (Text.decimalValue? (whole ++ fraction.getD []))
  if fraction.isNone && exponent.isNone then
    return (.int (if negative then -(digits : Int) else digits), rest)
  else
    let places : Int := (fraction.getD []).length
    return (.float (Double.ofDecimal negative digits (exponent.getD 0 - places)), rest)

/-- The value that `word` stands for. -/
def constant (word : Text) (value : Json) (t : Text) : Except ParseError (Json × Text) :=
  (required (after? word t)).map (value, ·)

/-- A value that is not a string, an array or an object. -/
def atom (t : Text) : Except ParseError (Json × Text) :=
  match t with
  | 'n' :: _ => constant "null" .null t
  | 't' :: _ => constant "true" (.bool true) t
  | 'f' :: _ => constant "false" (.bool false) t
  | 'N' :: _ => constant "NaN" (.float .nan) t
  | 'I' :: _ => constant "Infinity" (.float (.infinity false)) t
  | '-' :: r =>
    match after? "Infinity" r with
    | some rest => .ok (.float (.infinity true), rest)
    | none => number true r
  | _ => number false t

/-- The containers that may be opened inside of a container for which there is room. -/
def enter (container : Container) : (room : Nat) → Except ParseError Nat
  | 0 => .error (.tooDeep ⟨container⟩)
  | room + 1 => .ok room

mutual

/-- A value, for whose containers there is some room, and the text after it. -/
def value : (bound room : Nat) → Text → Except ParseError (Json × Text)
  | 0, _, _ => .error .malformed
  | bound + 1, room, t =>
    match t with
    | '"' :: r => do
      let (s, rest) ← required (string? r)
      return (.string s, rest)
    | '[' :: r => do
      let room ← enter .array room
      match skipSpace r with
      | ']' :: rest => return (.array [], rest)
      | r =>
        let (items, rest) ← items bound room r
        return (.array items, rest)
    | '\x7b' :: r => do
      let room ← enter .object room
      match skipSpace r with
      | '\x7d' :: rest => return (.object [], rest)
      | r =>
        let (members, rest) ← members bound room r
        return (.object (uniteMembers members), rest)
    | _ => atom t

/-- The items of an array from the next one on, and the text after the array. -/
def items : (bound room : Nat) → Text → Except ParseError (List Json × Text)
  | 0, _, _ => .error .malformed
  | bound + 1, room, t => do
    let (item, rest) ← value bound room t
    match skipSpace rest with
    | ']' :: rest => return ([item], rest)
    | ',' :: rest =>
      let (items, rest) ← items bound room (skipSpace rest)
      return (item :: items, rest)
    | _ => throw .malformed

/-- The members of an object from the next one on, and the text after the object. -/
def members : (bound room : Nat) → Text → Except ParseError (List (Text × Json) × Text)
  | 0, _, _ => .error .malformed
  | bound + 1, room, t =>
    match t with
    | '"' :: r => do
      let (key, rest) ← required (string? r)
      match skipSpace rest with
      | ':' :: rest =>
        let (value, rest) ← value bound room (skipSpace rest)
        match skipSpace rest with
        | '\x7d' :: rest => return ([(key, value)], rest)
        | ',' :: rest =>
          let (members, rest) ← members bound room (skipSpace rest)
          return ((key, value) :: members, rest)
        | _ => throw .malformed
      | _ => throw .malformed
    | _ => .error .malformed

end

/-- The value that a text writes, or why it writes none. -/
def parse (t : Text) : Except ParseError Json := do
  let (v, rest) ← value (2 * t.length + 2) maxNesting (skipSpace t)
  if (skipSpace rest).isEmpty then return v else throw .malformed

/-- The value that a text writes, if it writes one; only a text that is nested too deeply is a
failure. -/
def parse? (t : Text) : Except NestingError (Option Json) :=
  match parse t with
  | .ok v => .ok (some v)
  | .error (.tooDeep e) => .error e
  | .error _ => .ok none

end CodeTidy.Json
