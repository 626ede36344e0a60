import CodeTidy.Pattern.Search
import CodeTidy.Rule.Basic
import CodeTidy.Rule.Nesting

/-!
# `CodeTidy.Python.FString`: formatted strings

Three ways to put values into a string become an f-string: the `%` operator,
the `format` method and the concatenation with `str(…)`. A match is left alone
when an argument would need the quote of the string, when a field has no
argument, or when the string holds braces that the f-string would read
differently.
-/

set_option autoImplicit false

namespace CodeTidy.Python

open Pattern

/-- A single or double quote that no word character comes before, as group 1. -/
def openingQuote : Pattern := seq [notAfter Text.isWord, .group 1 (.one (CharSet.of "'\""))]

/-- A character that may stand between the quotes of a string without escapes. -/
def isPlainInside : CharSet := CharSet.except "'\"\n\\"

/-- A conversion of the `%` operator. -/
def percentSpec : Pattern := seq ["%", .one (CharSet.of "sdr")]

/-- A percent sign that is neither a known conversion nor doubled. -/
def otherPercent : Pattern := seq ["%", .notAhead (.one (CharSet.of "sdr%"))]

/-- A string with conversions, the `%` operator and its arguments: a parenthesised list or a
name. -/
def percentFormat : Pattern :=
  seq [openingQuote,
    .group 2 (seq [many isPlainInside, percentSpec, many isPlainInside]), .again 1,
    space, "%", space,
    .group 3 (oneOf [
      seq ["(", many (CharSet.except "()\n"), ")"],
      seq [.one (CharSet.letter.or (CharSet.of "_")),
        many (CharSet.or Text.isWord (CharSet.of ".")),
        opt (seq ["[", many (CharSet.except "]\n"), "]"])]])]

/-- The replacement field for a conversion. -/
def percentField (spec value : Text) : Text :=
  if spec == "%r".toList then "\x7b" ++ value ++ "!r\x7d" else "\x7b" ++ value ++ "\x7d"

/-- The pieces of a format string, with the values in the places of its conversions. -/
def fillConversions : List Segment → (values : List Text) → Text
  | .gap t :: rest, values => t ++ fillConversions rest values
  | .hit m :: rest, value :: values => percentField m.text value ++ fillConversions rest values
  | .hit m :: rest, [] => m.text ++ fillConversions rest []
  | [], _ => []

/-- The arguments of the `%` operator. -/
def percentArguments (args : Text) : List Text :=
  if Text.startsWith args "(" then splitParams (args.drop 1).dropLast else [args]

/-- The f-string for a string with the `%` operator. -/
def percentToFString (m : Match) : Text :=
  let quote := m.group 1
  let body := m.group 2
  let values := percentArguments (m.group 3)
  if body.contains '\x7b' || body.contains '\x7d' || otherPercent.occursIn body then m.text
  else if values.length ≠ percentSpec.count body || values.any (fun v => Text.holds v quote) then
    m.text
  else
    let filled := fillConversions (percentSpec.segments body) values
    "f" ++ quote ++ Text.replaceAll "%%" "%" filled ++ quote

/-- A string with fields and a call of its `format` method, whose arguments nest one level of
parentheses at most. -/
def formatCall : Pattern :=
  let inner := many (CharSet.except "()\n")
  seq [openingQuote,
    .group 2 (seq [many isPlainInside, "\x7b", many isPlainInside]), .again 1, ".format(",
    .group 3 (seq [inner, .star .most (seq ["(", inner, ")", inner])]), ")"]

/-- The arguments of a `format` call: by position, and by name with the last of a name first. -/
structure FormatArguments where
  positional : List Text
  keywords : List (Text × Text)

/-- The arguments of a `format` call from a list of them. -/
def FormatArguments.ofParams (params : List Text) : FormatArguments :=
  params.foldl
    (fun args param =>
      match Text.cutAt? '=' param with
      | some (key, value) =>
        let key := Text.trim key
        if word.isWhole key && !Text.startsWith value "=" then
          { args with keywords := (key, Text.trim value) :: args.keywords }
        else { args with positional := args.positional ++ [param] }
      | none => { args with positional := args.positional ++ [param] })
    ⟨[], []⟩

/-- A replacement field between braces, its content as group 1. -/
def formatField : Pattern := seq ["\x7b", .group 1 (many (CharSet.except "\x7b\x7d")), "\x7d"]

/-- The parts of a replacement field: its name, and its conversion and format as written. -/
structure FieldParts where
  name : Text
  conversion : Text
  format : Text

/-- The parts of the content of a replacement field. -/
def FieldParts.ofText (field : Text) : FieldParts :=
  let head := field.takeWhile (· != ':')
  ⟨head.takeWhile (· != '!'), head.dropWhile (· != '!'), field.dropWhile (· != ':')⟩

/-- The number that the name of a field writes. -/
def fieldNumber (name : Text) : Except RuleError Nat :=
  let digits := (name.takeWhile Text.isDecimal).length
  if maxNumberDigits < digits then .error (.fieldNumberTooLong digits)
  else match Text.decimalValue? name with
    | some n => .ok n
    | none => .error (.fieldNumberUnreadable name)

/-- The fields of a format string filled in, from a piece on; `next` is the position of the
argument for the next field without a name, and a field without argument is absent. -/
def fillFields (args : FormatArguments) :
    (next : Nat) → List Segment → Except RuleError (List (Option Text))
  | _, [] => .ok []
  | next, .gap t :: rest => do return some t :: (← fillFields args next rest)
  | next, .hit m :: rest => do
    let parts := FieldParts.ofText (m.group 1)
    let value ←
      if parts.name.isEmpty then pure args.positional[next]?
      else if parts.name.all Text.isDigitSign then do
        pure args.positional[← fieldNumber parts.name]?
      else pure (args.keywords.lookup parts.name)
    let filled := value.map
      (fun v => "\x7b" ++ v ++ parts.conversion ++ parts.format ++ "\x7d")
    return filled :: (← fillFields args (if parts.name.isEmpty then next + 1 else next) rest)

/-- The f-string for a `format` call. -/
def formatToFString (m : Match) : Except RuleError Text := do
  let quote := m.group 1
  let body := m.group 2
  let params := splitParams (m.group 3)
  if Text.holds body "\x7b\x7b" || Text.holds body "\x7d\x7d" then return m.text
  if params.any (fun p => Text.holds p quote || p.contains '\\' || Text.startsWith p "*") then
    return m.text
  let pieces ← fillFields (FormatArguments.ofParams params) 0 (formatField.segments body)
  if pieces.any Option.isNone then return m.text
  return "f" ++ quote ++ (pieces.filterMap id).flatten ++ quote

/-- A string and the text of a value added to it. -/
def strConcatenation : Pattern :=
  seq [openingQuote, .group 2 (many (CharSet.except "'\"\n\\\x7b\x7d")), .again 1,
    space, "+", space, "str(", .group 3 (many1 (CharSet.except "()\n")), ")"]

/-- The f-string for a string and the text of a value added to it. -/
def concatenationToFString (m : Match) : Text :=
  "f" ++ m.group 1 ++ m.group 2 ++ "\x7b" ++ m.group 3 ++ "\x7d" ++ m.group 1

/-- The rules for formatted strings. -/
def fStringRules : RuleTable := [
  .replacing "percent_format_to_fstring" percentFormat percentToFString,
  ⟨"format_call_to_fstring", formatCall.replaceM formatToFString⟩,
  .replacing "str_concatenation_to_fstring" strConcatenation concatenationToFString]

end CodeTidy.Python
