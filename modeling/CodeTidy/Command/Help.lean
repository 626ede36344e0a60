import CodeTidy.Command.Setting
import CodeTidy.Text.Blank

/-!
# `CodeTidy.Command.Help`: the help page of a command

A page has the form of a call, a description, the options and, for the program
itself, the actions. It is 80 columns wide.
-/

set_option autoImplicit false

namespace CodeTidy.Command

/-- The width of a help page. -/
def pageWidth : Nat := 80

/-- The words put into lines of at most `size` characters; `current` is the line so far. -/
def fillFrom (size : Nat) : (current : Text) → List Text → List Text
  | current, [] => if current.isEmpty then [] else [current]
  | current, word :: rest =>
    if current.isEmpty then fillFrom size word rest
    else if current.length + 1 + word.length ≤ size then fillFrom size (current ++ " " ++ word) rest
    else current :: fillFrom size word rest

/-- A text in lines of at most `size` characters. -/
def fill (size : Nat) (t : Text) : List Text := fillFrom size [] (Text.words t)

/-- Spaces. -/
def blank (n : Nat) : Text := List.replicate n ' '

/-- A paragraph, indented. -/
def paragraph (indent : Nat) (t : Text) : List Text :=
  (fill (pageWidth - indent) t).map (fun l => blank indent ++ l)

/-- Paragraphs with an empty line before each. -/
def paragraphs (ps : List (Nat × Text)) : List Text :=
  ps.flatMap (fun (indent, t) => [] :: paragraph indent t)

/-- Terms and what is said about them, in two columns. -/
def definitions (rows : List (Text × Text)) : List Text :=
  let first := (rows.map (fun r => r.1.length)).foldl max 0 + 2
  rows.flatMap (fun (term, t) =>
    match fill (pageWidth - first - 2) t with
    | [] => [blank 2 ++ term]
    | l :: ls =>
      (blank 2 ++ Text.padRight first ' ' term ++ l) :: ls.map (fun l => blank (2 + first) ++ l))

/-- The heading of a list, after an empty line. -/
def heading (t : Text) : List Text := [[], t]

/-- An option as it stands in a help page. -/
def settingTerm (s : Setting) : Text :=
  let names : Text := match s.letter? with
    | some c => ['-', c] ++ ", " ++ s.longName
    | none => s.longName
  if s.takesValue then names ++ " TEXT" else names

/-- The name of a call of the program or of an action. -/
def callName : Option Action → Text
  | some a => programName ++ " " ++ a.name
  | none => programName

/-- The form of a call. -/
def usageLine (a : Option Action) : Text :=
  let operands : Text := match a with
    | none => " COMMAND [ARGS]..."
    | some a => if a.takesFile then " FILE" else []
  "Usage: " ++ callName a ++ " [OPTIONS]" ++ operands

/-- What the page says about the program or an action. -/
def description : Option Action → List (Nat × Text)
  | none => programDescription.map (fun t => (2, t))
  | some a =>
    let fileNote : List (Nat × Text) :=
      [(2, "FILE may be \"-\" to read from stdin."), (2, "Examples:")]
    (2, a.summary) ::
      (if a.takesFile then fileNote ++ a.examples.map (fun t => (6, t)) else [])

/-- The list of actions at the end of the page of the program. -/
def actionList : Option Action → List Text
  | none =>
    let rows : List (Text × Text) := Action.all.map (fun a => (a.name, a.summary))
    heading "Commands:" ++ definitions rows
  | some _ => []

/-- The lines of a help page. -/
def helpLines (a : Option Action) : List Text :=
  let rows : List (Text × Text) := (settingsOf a).map (fun s => (settingTerm s, s.description))
  [usageLine a] ++ paragraphs (description a) ++ heading "Options:" ++
    definitions rows ++ actionList a

end CodeTidy.Command
