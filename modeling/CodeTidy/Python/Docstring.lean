import CodeTidy.Python.Signature
import CodeTidy.Rule.Phrase

/-!
# `CodeTidy.Python.Docstring`: docstrings for functions and classes

A definition whose body does not begin with a docstring gets one that says its
name in words and lists its parameters. Names that begin with two underscores
are left alone.
-/

set_option autoImplicit false

namespace CodeTidy.Python

open Pattern

/-- The name of a parameter without annotation, default and stars, if it is documented. -/
def documentedParam? (param : Text) : Option Text :=
  let name := (Text.trim (param.takeWhile (fun c => c != ':' && c != '='))).dropWhile (· == '*')
  if name.isEmpty || isReceiver name then none else some name

/-- The lines of a docstring at an indentation. -/
def docstringLines (margin name params : Text) : List Text :=
  let quotes : Text := "\"\"\""
  let summary := humanize (Text.dropAroundWhile (· == '_') name) ++ "."
  let names := (splitParams params).filterMap documentedParam?
  if names.isEmpty then [margin ++ quotes ++ summary ++ quotes]
  else
    [margin ++ quotes ++ summary, [], margin ++ "Args:"] ++
      names.map (fun n => margin ++ "    " ++ n ++ ": " ++ humanize n ++ ".") ++
      [margin ++ quotes]

/-- The docstring that a definition line and the lines after it call for. -/
def missingDocstring (line : Text) (following : List Text) : List Text :=
  match (defLine.matchStart? line).or (classLine.matchStart? line) with
  | none => []
  | some m =>
    match following.find? (fun l => !Text.allBlank l) with
    | none => []
    | some body =>
      let margin := Text.indentOf body
      if Text.startsWith (m.group 2) "__" || margin.length ≤ (m.group 1).length ||
          docstringStart.isStart body then []
      else docstringLines margin (m.group 2) (m.group 3)

/-- The lines with the missing docstrings. -/
def documentLines : List Text → List Text
  | [] => []
  | l :: ls => l :: missingDocstring l ls ++ documentLines ls

/-- The text with the missing docstrings. -/
def addDocstrings (t : Text) : Text := Text.unlines (documentLines (Text.lines t))

end CodeTidy.Python
