import CodeTidy.Double.Notation
import CodeTidy.Json.Basic
import CodeTidy.Text.Printable

/-!
# `CodeTidy.Json.Number`: the number that a value stands for

Numbers, truth values and texts that write a number stand for one. A whole
number may be too large to be one of binary64.
-/

set_option autoImplicit false

namespace CodeTidy

/-- Why a value stands for no number. -/
inductive NumberError where
  | unreadable (text : Text)
  | tooLarge
  | otherKind (kind : Text)
  deriving Repr

/-- What is said about the failure. -/
def NumberError.message : NumberError → Text
  | .unreadable t => "could not convert string to float: " ++ Text.quoted t
  | .tooLarge => "int too large to convert to float"
  | .otherKind kind => "float() argument must be a string or a real number, not '" ++ kind ++ "'"

namespace Json

/-- The whole number as one of binary64. -/
def intToDouble (n : Int) : Except NumberError Double :=
  match Double.ofInt n with
  | .infinity _ => .error .tooLarge
  | x => .ok x

/-- The number that a value stands for. -/
def toDouble : Json → Except NumberError Double
  | .int n => intToDouble n
  | .float x => .ok x
  | .bool b => .ok (if b then 1 else 0)
  | .string t =>
    match Double.ofText? t with
    | some x => .ok x
    | none => .error (.unreadable t)
  | v => .error (.otherKind v.kindName)

end Json

end CodeTidy
