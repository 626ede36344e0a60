import CodeTidy.Double.Basic
import CodeTidy.Text.Basic

/-!
# `CodeTidy.Json.Basic`: JSON values

Objects keep their members in the order in which their keys were first
written, and whole numbers are kept apart from other numbers, so that a
document that is read and written again keeps its order and its numbers.
-/

set_option autoImplicit false

namespace CodeTidy

/-- A JSON value. -/
inductive Json where
  | null
  | bool (value : Bool)
  | int (value : Int)
  | float (value : Double)
  | string (value : Text)
  | array (items : List Json)
  | object (members : List (Text × Json))
  deriving Repr, Inhabited

namespace Json

/-- The members with the value of `key` replaced, or added at the end if the key is new. -/
def putMember (key : Text) (value : Json) : List (Text × Json) → List (Text × Json)
  | [] => [(key, value)]
  | (k, v) :: rest => if k = key then (k, value) :: rest else (k, v) :: putMember key value rest

/-- The members in which each key stands once: at its first place and with its last value. -/
def uniteMembers (members : List (Text × Json)) : List (Text × Json) :=
  members.foldl (fun seen (k, v) => putMember k v seen) []

/-- The value of a member, if there is one. -/
def member? (members : List (Text × Json)) (key : Text) : Option Json := members.lookup key

/-- The value of a member of an object. -/
def get? : Json → Text → Option Json
  | .object members, key => member? members key
  | _, _ => none

/-- Whether a value counts as true: it is neither empty nor zero nor false. -/
def truthy : Json → Bool
  | .null => false
  | .bool b => b
  | .int n => n != 0
  | .float x => !(x.same 0)
  | .string s => !s.isEmpty
  | .array items => !items.isEmpty
  | .object members => !members.isEmpty

mutual

/-- Whether all numbers in a value are finite. Others cannot be written in standard JSON. -/
def isFinite : Json → Bool
  | .float x => x.isFinite
  | .array items => allFinite items
  | .object members => allMembersFinite members
  | _ => true

/-- Whether all numbers in some values are finite. -/
def allFinite : List Json → Bool
  | [] => true
  | v :: vs => v.isFinite && allFinite vs

/-- Whether all numbers in the values of some members are finite. -/
def allMembersFinite : List (Text × Json) → Bool
  | [] => true
  | (_, v) :: rest => v.isFinite && allMembersFinite rest

end

/-- The name of the kind of a value. -/
def kindName : Json → Text
  | .null => "NoneType"
  | .bool _ => "bool"
  | .int _ => "int"
  | .float _ => "float"
  | .string _ => "str"
  | .array _ => "list"
  | .object _ => "dict"

end Json

end CodeTidy
