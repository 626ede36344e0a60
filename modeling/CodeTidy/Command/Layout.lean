import CodeTidy.Diff.Unified
import CodeTidy.Language
import CodeTidy.Quality.Report
import CodeTidy.Screen.Markup
import CodeTidy.Screen.Panel

/-!
# `CodeTidy.Command.Layout`: results on the screen

Reports, refactorings and the list of languages as lines of the screen. Texts
that hold tags are shown without them, and a tag that closes nothing is an
error.
-/

set_option autoImplicit false

namespace CodeTidy.Command

/-- The lines that a text with tags takes. -/
def markedLines (t : Text) : Except MarkupError (List Text) := do
  return Screen.wrap Screen.columns (← Markup.shown t)

/-- The lines that a text without tags takes. -/
def plainLines (t : Text) : List Text :=
  Screen.wrap Screen.columns (Screen.visible (Emoji.expand t))

/-- Items under a heading, with an empty line before it; nothing if there are no items. -/
def itemLines (heading : Text) (items : List Text) : List Text :=
  if items.isEmpty then [] else [[], heading] ++ items.flatMap (fun t => plainLines ("  - " ++ t))

/-- The colour of a score. -/
def scoreColour (score : Int) : Text :=
  if 80 ≤ score then "green" else if 60 ≤ score then "yellow" else "red"

/-- A framed headline in the colour of a score, and a text below it. -/
def headline (title : Text) (score : Int) (headline rest provider : Text) :
    Except MarkupError (List Text) := do
  let title ← Markup.shown title
  let content ← Markup.shown ("[bold " ++ scoreColour score ++ "]" ++ headline ++ "[/]" ++ rest)
  let subtitle ← Markup.shown ("provider: " ++ provider)
  return [] :: Screen.panel title subtitle content

/-- A score out of a hundred. -/
def outOfHundred (score : Int) : Text := Text.ofInt score ++ "/100"

/-- The title of the result for a target in a language. -/
def targetTitle (target language : Text) : Text := target ++ " (" ++ language ++ ")"

/-- The errors of a result. -/
def errorLines (errors : List Text) : Except MarkupError (List Text) :=
  if errors.isEmpty then return []
  else do
    let shown ← errors.mapM (fun e => markedLines ("  [red]" ++ Markup.escape e ++ "[/]"))
    return [[], "Errors (fell back to heuristics):"] ++ shown.flatten

/-- The table of the categories. -/
def categoryLines (categories : List Quality.CategoryScore) : List Text :=
  let rows : List (List Text) := categories.map (fun c => [c.name, Text.ofInt c.score])
  Screen.grid "Categories" (Screen.fittedColumns [("Category", false), ("Score", true)] rows) rows

/-- The lines of a report on a target. -/
def reportLines (target : Text) (r : Quality.Report) : Except MarkupError (List Text) := do
  let top ← headline (targetTitle target r.language.shown) r.score
    ("Quality score: " ++ outOfHundred r.score) ("\n" ++ r.summary) r.provider
  let errors ← errorLines r.errors
  let code : List Text := match r.refactored with
    | none => []
    | some code => [[], "Refactored code:"] ++ Screen.Listing.numbered code
  return top ++ categoryLines r.categories ++ itemLines "Issues:" r.issues ++
    itemLines "Recommendations:" r.recommendations ++ errors ++ code

/-- The lines of a refactoring of a target, without its code. -/
def refactoringLines (target : Text) (r : Refactoring) : Except MarkupError (List Text) := do
  let summary : Text := Text.ofNat r.improvements.count ++ " improvement(s), quality " ++
    outOfHundred r.score
  let top ← headline (targetTitle target r.family.name) r.score summary [] r.provider
  let items ← r.improvements.messages.mapM (fun t => markedLines ("  [cyan]-[/] " ++ t))
  let errors ← errorLines r.errors
  return top ++ items.flatten ++ errors

/-- The differences that a refactoring has made. -/
def diffLines (target before after : Text) : List Text :=
  let diff := Diff.unified ("a/" ++ target) ("b/" ++ target) before after
  [] :: (if diff.isEmpty then ["No changes."] else Screen.Listing.plain diff)

/-- Texts in alphabetical order. -/
def sorted (ts : List Text) : List Text := ts.mergeSort (fun a b => !(b < a))

/-- The extensions of the files in the languages of a family. -/
def extensionsOf (f : Family) : List Text :=
  fileExtensions.flatMap (fun entry => if Family.ofAlias entry.1 == f then entry.2 else [])

/-- The table of the languages. -/
def languageLines : List Text :=
  let rows : List (List Text) := Family.all.map (fun f =>
    let aliases : Text :=
      if f == .generic then "anything else" else Text.joinWith ", " (sorted f.aliases)
    [f.name, aliases, Text.joinWith " " (sorted (extensionsOf f))])
  let table := Screen.grid "Rule Tables"
    (Screen.sharedColumns ["Family", "Language ids", "Extensions"] rows) rows
  [[]] ++ table ++ [[], "Override detection with: codelens analyze <file> -l <language>"]

end CodeTidy.Command
