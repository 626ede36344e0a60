import CodeTidy.Command.Setting
import CodeTidy.Diff.Script
import CodeTidy.Text.Printable

/-!
# `CodeTidy.Command.Arguments`: reading the arguments of a call

Arguments are options, their values, and operands. Long options may have their
value after an equals sign; letters may stand together after one dash, and the
value of the last one may follow at once. After `--` all arguments are operands.
An option that is not known is answered with the known ones that look like it.
-/

set_option autoImplicit false

namespace CodeTidy.Command

/-- Why arguments cannot be read. -/
inductive UsageError where
  | noSuchOption (name : Text) (similar : List Text)
  | needsValue (name : Text)
  | takesNoValue (name : Text)
  | missingFile
  | missingAction
  | noSuchAction (name : Text) (similar : List Text)
  | extraArguments (arguments : List Text)
  deriving DecidableEq, Repr

namespace UsageError

/-- A hint at names that look like the one that is not known. -/
def hint (plural : Text) : List Text → Text
  | [] => []
  | [one] => " Did you mean " ++ Text.quoted one ++ "?"
  | several =>
    " (Possible " ++ plural ++ ": " ++ Text.joinWith ", " (several.map Text.quoted) ++ ")"

/-- What is said about the failure. -/
def message : UsageError → Text
  | .noSuchOption name similar =>
    "No such option " ++ Text.quoted name ++ "." ++ hint "options" similar
  | .needsValue name => "Option " ++ Text.quoted name ++ " requires an argument."
  | .takesNoValue name => "Option " ++ Text.quoted name ++ " does not take a value."
  | .missingFile => "Missing argument 'FILE'."
  | .missingAction => "Missing command."
  | .noSuchAction name similar =>
    "No such command " ++ Text.quoted name ++ "." ++ hint "commands" similar
  | .extraArguments [one] => "Got unexpected extra argument (" ++ one ++ ")"
  | .extraArguments several =>
    "Got unexpected extra arguments (" ++ Text.joinWith " " several ++ ")"

end UsageError

/-- How many characters two texts have in common, in order. -/
def commonChars (a b : Text) : Nat :=
  let chars (t : Text) : List Text := t.map (fun c => [c])
  ((Diff.script (chars a) (chars b)).flatMap Edit.keptLines).length

/-- A name that looks like another one, with the part of the characters that they share. -/
structure Candidate where
  name : Text
  shared : Nat
  total : Nat

namespace Candidate

/-- Whether the part of shared characters is at least six tenths. -/
def isClose (c : Candidate) : Bool := c.total * 6 ≤ c.shared * 20

/-- Whether the first candidate shares more than the second one; of equal parts, the greater name
comes first. -/
def precedes (a b : Candidate) : Bool :=
  a.shared * b.total > b.shared * a.total ||
    (a.shared * b.total == b.shared * a.total && !(a.name < b.name))

end Candidate

/-- The most names that a hint gives. -/
def maxHints : Nat := 3

/-- The known names that look like a name, in alphabetical order. -/
def similarNames (name : Text) (known : List Text) : List Text :=
  let candidates : List Candidate :=
    known.map (fun k => ⟨k, commonChars k name, k.length + name.length⟩)
  let best := (candidates.filter Candidate.isClose).mergeSort Candidate.precedes
  ((best.take maxHints).map Candidate.name).mergeSort (fun a b => !(b < a))

/-- Options with their values, in the order in which they are given, and the other arguments. -/
structure Arguments where
  given : List (Setting × Text)
  operands : List Text

namespace Arguments

/-- No arguments. -/
def none : Arguments := ⟨[], []⟩

/-- The arguments after an option. -/
def addSetting (s : Setting) (value : Text) (a : Arguments) : Arguments :=
  { a with given := (s, value) :: a.given }

/-- The arguments after an operand. -/
def addOperands (ts : List Text) (a : Arguments) : Arguments :=
  { a with operands := ts ++ a.operands }

/-- Whether an option is given. -/
def has (a : Arguments) (s : Setting) : Bool := a.given.any (fun g => g.1 == s)

/-- The value of an option; of several the last one. -/
def value? (a : Arguments) (s : Setting) : Option Text :=
  (a.given.reverse.find? (fun g => g.1 == s)).map Prod.snd

end Arguments

/-- The error for an option that is not known. -/
def unknownOption (known : List Setting) (name : Text) : UsageError :=
  .noSuchOption name (similarNames name (known.map Setting.longName))

/-- What an argument that is an option asks for: options that stand alone, and then one that has its
value or waits for it in the next argument. -/
structure Request where
  alone : List Setting
  valued : Option (Setting × Text)
  awaiting : Option (Setting × Text)

/-- The request of a long option. -/
def longRequest? (known : List Setting) (argument : Text) : Option (Except UsageError Request) :=
  let name := argument.takeWhile (· != '=')
  let value? := (argument.drop name.length).tail?
  (known.find? (fun s => s.longName == name)).map (fun s =>
    match s.takesValue, value? with
    | true, some value => .ok ⟨[], some (s, value), none⟩
    | true, none => .ok ⟨[], none, some (s, name)⟩
    | false, some _ => .error (.takesNoValue name)
    | false, none => .ok ⟨[s], none, none⟩)

/-- The request of letters after a dash. -/
def lettersRequest (known : List Setting) : Text → Except UsageError Request
  | [] => .ok ⟨[], none, none⟩
  | c :: rest =>
    match known.find? (fun s => s.letter? == some c) with
    | none => .error (.noSuchOption ['-', c] [])
    | some s =>
      if s.takesValue then
        if rest.isEmpty then .ok ⟨[], none, some (s, ['-', c])⟩ else .ok ⟨[], some (s, rest), none⟩
      else (lettersRequest known rest).map (fun r => { r with alone := s :: r.alone })

/-- The request of an argument that begins with a dash. -/
def requestOf (known : List Setting) (argument : Text) : Except UsageError Request :=
  match longRequest? known argument with
  | some r => r
  | none =>
    if Text.startsWith argument "--" then
      .error (unknownOption known (argument.takeWhile (· != '=')))
    else lettersRequest known (argument.drop 1)

/-- The arguments from the next one on. An option may await its value; if `stops`, all arguments
from the first operand on are operands. -/
def readFrom (known : List Setting) (stops : Bool) :
    (awaiting : Option (Setting × Text)) → List Text → Except UsageError Arguments
  | none, [] => .ok Arguments.none
  | some (_, name), [] => .error (.needsValue name)
  | some (s, _), value :: rest => do
    return (← readFrom known stops none rest).addSetting s value
  | none, argument :: rest =>
    if argument = "--".toList then .ok ⟨[], rest⟩
    else if Text.startsWith argument "-" && 1 < argument.length then do
      let request ← requestOf known argument
      let later ← readFrom known stops request.awaiting rest
      let later := match request.valued with
        | some (s, value) => later.addSetting s value
        | none => later
      return request.alone.foldr (fun s a => a.addSetting s []) later
    else if stops then .ok ⟨[], argument :: rest⟩
    else do return (← readFrom known stops none rest).addOperands [argument]

/-- What a call asks for. -/
inductive Call where
  | help (action : Option Action)
  | version
  | perform (action : Action) (file : Text) (arguments : Arguments)

/-- A failure to read the arguments of the program or of an action. A call without arguments gets
the help page. -/
inductive CallError where
  | noArguments
  | usage (action : Option Action) (error : UsageError)

/-- The call of an action with its arguments. -/
def actionCall (a : Action) (args : List Text) : Except UsageError Call := do
  let arguments ← readFrom a.settings false none args
  if arguments.has .help then return .help (some a)
  match a.takesFile, arguments.operands with
  | true, [] => throw .missingFile
  | true, [file] => return .perform a file arguments
  | true, _ :: extra => throw (.extraArguments extra)
  | false, [] => return .perform a [] arguments
  | false, extra => throw (.extraArguments extra)

/-- What the options of the program itself ask for: the first one decides. -/
def programCall (arguments : Arguments) : Option Call :=
  match arguments.given with
  | (.version, _) :: _ => some .version
  | (.help, _) :: _ => some (.help none)
  | _ => none

/-- The error for the name of an action that is not known. A name with a dash before it is read as
an option first. -/
def unknownAction (name : Text) (rest : List Text) : Except UsageError Call := do
  match programCall (← readFrom programSettings true none (name :: rest)) with
  | some call => return call
  | none => throw (.noSuchAction name (similarNames name (Action.all.map Action.name)))

/-- What the arguments of the program ask for. -/
def operandCall (operands : List Text) : Except CallError Call :=
  match operands with
  | [] => .error (.usage none .missingAction)
  | name :: rest =>
    match Action.ofName? name with
    | some a => (actionCall a rest).mapError (CallError.usage (some a))
    | none => (unknownAction name rest).mapError (CallError.usage none)

/-- What the arguments of a call ask for. -/
def callOf (args : List Text) : Except CallError Call :=
  if args.isEmpty then .error .noArguments
  else
    match readFrom programSettings true none args with
    | .error e => .error (.usage none e)
    | .ok arguments =>
      match programCall arguments with
      | some call => .ok call
      | none => operandCall arguments.operands

end CodeTidy.Command
