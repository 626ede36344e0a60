import CodeTidy.Pattern.Search
import CodeTidy.Text.Printable

/-!
# `CodeTidy.Rule.Basic`: rules and tables of them

A `Rule` is a named transformation of a text. A table is a list of rules that
run in order, each on the result of the one before. Only one kind of rule can
fail: a rule that reads the number of a format field, which may be written with
digit signs that make no number.

A line that has to stand with the imports or includes of a file goes after the
last of them, or to the top if there is none.
-/

set_option autoImplicit false

namespace CodeTidy

/-- Why a rule gives no result. -/
inductive RuleError where
  /-- The number of a format field is written with signs that are not decimal digits. -/
  | fieldNumberUnreadable (field : Text)
  /-- The number of a format field has more digits than are read. -/
  | fieldNumberTooLong (digits : Nat)
  deriving Repr

/-- The most digits a number may have to be read. -/
def maxNumberDigits : Nat := 4300

/-- The message for a number with more digits than are read. -/
def tooManyDigitsMessage (digits : Nat) : Text :=
  "Exceeds the limit (" ++ Text.ofNat maxNumberDigits ++
    " digits) for integer string conversion: value has " ++ Text.ofNat digits ++
    " digits; use sys.set_int_max_str_digits() to increase the limit"

/-- The number of characters that a message shows of a quoted number that cannot be read. -/
def maxShownNumber : Nat := 200

/-- What is said about the failure. A long field loses its end, and the quote after it. -/
def RuleError.message : RuleError → Text
  | .fieldNumberUnreadable field =>
    "invalid literal for int() with base 10: " ++ (Text.quoted field).take maxShownNumber
  | .fieldNumberTooLong digits => tooManyDigitsMessage digits

/-- A named transformation of a text. -/
structure Rule where
  name : String
  apply : Text → Except RuleError Text

namespace Rule

/-- The rule that puts `f` of each match of `p` in its place. -/
def replacing (name : String) (p : Pattern) (f : Match → Text) : Rule :=
  ⟨name, fun t => .ok (p.replace f t)⟩

/-- The rule that applies `f` to the whole text. -/
def ofText (name : String) (f : Text → Text) : Rule := ⟨name, fun t => .ok (f t)⟩

end Rule

/-- Rules that run in order, each on the result of the one before. -/
abbrev RuleTable := List Rule

namespace RuleTable

/-- The result of the last rule, or the first failure. -/
def apply (table : RuleTable) (t : Text) : Except RuleError Text :=
  table.foldlM (fun t r => r.apply t) t

/-- For each rule that changes the text, its name and the text after it. -/
def trace : RuleTable → Text → Except RuleError (List (String × Text))
  | [], _ => .ok []
  | r :: rest, t => do
    let t' ← r.apply t
    let later ← trace rest t'
    return if t' = t then later else (r.name, t') :: later

/-- The rule of that name. -/
def named? (table : RuleTable) (name : String) : Option Rule :=
  List.find? (fun r => r.name == name) table

end RuleTable

/-! ### Inserting after the header of a file -/

/-- The number of lines up to the last one that matches `header`, counted from `seen` on; `found`
is the count at the last such line so far. -/
def headerEnd (header : Pattern) : (seen found : Nat) → List Text → Nat
  | _, found, [] => found
  | seen, found, l :: ls =>
    headerEnd header (seen + 1) (if header.isStart l then seen + 1 else found) ls

/-- The text with `line` after the last line that matches `header`, or at the top. -/
def insertAfterHeader (t line : Text) (header : Pattern) : Text :=
  let ls := Text.lines t
  let n := headerEnd header 0 0 ls
  Text.unlines (ls.take n ++ line :: ls.drop n)

end CodeTidy
