import CodeTidy.Python.Header
import CodeTidy.Rule.Nesting

/-!
# `CodeTidy.Python.Signature`: parameters of functions

A default value that all calls would share becomes `None`, and a guard at the
start of the body makes a new value. A function without any annotation gets
one for each parameter, read off from the default values, and for its result.
-/

set_option autoImplicit false

namespace CodeTidy.Python

open Pattern

/-- A parameter with a default that all calls would share: name, annotation and default are
groups 1 to 3. -/
def mutableParam : Pattern :=
  seq [.group 1 word, space,
    opt (seq [":", space, .group 2 (few1 (CharSet.except "="))]), space, "=",
    space, .group 3 (oneOfWords ["[]", "\x7b\x7d", "list()", "dict()", "set()"]),
    .place Cursor.atLastEnd]

/-- A value that is made anew in each call. -/
structure Guard where
  name : Text
  value : Text

/-- The parameter with `None` in place of a shared default, and the guard that it needs. -/
def withoutMutableDefault (param : Text) : Text × Option Guard :=
  match mutableParam.matchStart? param with
  | none => (param, none)
  | some m =>
    let annotation := m.group 2
    let safe :=
      if annotation.isEmpty then m.group 1 ++ "=None"
      else m.group 1 ++ ": Optional[" ++ annotation ++ "] = None"
    (safe, some ⟨m.group 1, m.group 3⟩)

/-- The lines that make the value when the parameter is `None`. -/
def Guard.lines (margin : Text) (g : Guard) : List Text :=
  [margin ++ "if " ++ g.name ++ " is None:", margin ++ "    " ++ g.name ++ " = " ++ g.value]

/-- The indentation of the body that follows a header: that of its first line with text, or one
level more than the header's if that line is not deeper. -/
def bodyIndent (following : List Text) (headerIndent : Text) : Text :=
  match following.find? (fun l => !Text.allBlank l) with
  | some l =>
    if headerIndent.length < (Text.indentOf l).length then Text.indentOf l
    else headerIndent ++ "    "
  | none => headerIndent ++ "    "

/-- The line with other parameters. -/
def withParams (line : Text) (m : Match) (params : List Text) : Text :=
  line.take (m.groupStart 3) ++ Text.joinWith ", " params ++ line.drop (m.groupStop 3)

/-- The header with safe defaults and the lines of its guards, if it has shared defaults. -/
def guardedHeader? (line : Text) (following : List Text) : Option (Text × List Text) := do
  let m ← defLine.matchStart? line
  let params := (splitParams (m.group 3)).map withoutMutableDefault
  let guards := params.filterMap Prod.snd
  if guards.isEmpty then none
  else
    let margin := bodyIndent following (m.group 1)
    some (withParams line m (params.map Prod.fst), guards.flatMap (Guard.lines margin))

/-- The lines with guards for shared defaults. `skip` lines of a docstring come first, then the
`pending` guards. -/
def guardLines : (skip : Nat) → (pending : List Text) → List Text → List Text
  | _, pending, [] => pending
  | skip + 1, pending, l :: ls => l :: guardLines skip pending ls
  | 0, pending, l :: ls =>
    match guardedHeader? l ls with
    | none => pending ++ l :: guardLines 0 [] ls
    | some (header, guards) => pending ++ header :: guardLines (docstringLength ls) guards ls

/-- The text with `None` and a guard for each default that all calls would share. -/
def guardMutableDefaults (t : Text) : Text := Text.unlines (guardLines 0 [] (Text.lines t))

/-- A whole number. -/
def intLiteral : Pattern := seq [opt "-", many1 Text.isDecimal]

/-- A number with a point. -/
def floatLiteral : Pattern :=
  seq [opt "-", many Text.isDecimal, ".", many1 Text.isDecimal,
    opt (seq ["e", opt "-", many1 Text.isDecimal])]

/-- A string that ends with the quote it begins with. -/
def stringLiteral : Pattern :=
  seq [opt (.one (CharSet.of "rbfu")), .group 1 (.one (CharSet.of "'\"")), restOfLine, .again 1]

/-- The annotation that a default value suggests. -/
def hintFor (default : Text) : Text :=
  if intLiteral.isWhole default then "int"
  else if floatLiteral.isWhole default then "float"
  else if default == "True".toList || default == "False".toList then "bool"
  else if stringLiteral.isWhole default then "str"
  else if default == "None".toList then "Optional[Any]"
  else "Any"

/-- A parameter that takes no annotation: the receiver, or a mark between parameters. -/
def isReceiver (name : Text) : Bool :=
  name == "self".toList || name == "cls".toList || name == "/".toList

/-- The parameter with an annotation. -/
def annotated (param : Text) : Text :=
  let name := Text.trim (param.takeWhile (· != '='))
  if isReceiver name || Text.startsWith name "*" then param
  else match Text.cutAt? '=' param with
    | some (_, default) =>
      let default := Text.trim default
      name ++ ": " ++ hintFor default ++ " = " ++ default
    | none => name ++ ": Any"

/-- A return annotation with any space around it. -/
def returnAnnotation : Pattern :=
  seq [")", space, "-> ", .group 1 word, space, ":"]

/-- The line with annotations, if it begins a function that has none. -/
def annotateLine (line : Text) : Text :=
  match defLine.matchStart? line with
  | none => line
  | some m =>
    let params := m.group 3
    if !(m.group 4).isEmpty || params.contains ':' then line
    else
      let result : Text := if m.group 2 == "__init__".toList then "None" else "Any"
      let header := line.take (m.groupStart 3) ++
        Text.joinWith ", " ((splitParams params).map annotated) ++ ") -> " ++ result ++
        line.drop (m.groupStop 3 + 1)
      returnAnnotation.replaceFirst (fun r => ") -> " ++ r.group 1 ++ ":") header

/-- The text with annotations for each function that has none. -/
def addTypeHints (t : Text) : Text := Text.unlines ((Text.lines t).map annotateLine)

end CodeTidy.Python
