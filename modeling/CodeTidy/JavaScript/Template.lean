import CodeTidy.JavaScript.Basic

/-!
# `CodeTidy.JavaScript.Template`: concatenations become template literals

Seven steps merge neighbouring strings, operands and templates. One pass
applies each of them once; passes are repeated until nothing changes, five
times at most.
-/

set_option autoImplicit false

namespace CodeTidy.JavaScript

open Pattern

/-- A plus sign with white space around it. -/
def plus : Pattern := seq [space, "+", space]

/-- A template literal whose text is group `n`. -/
def template (n : Nat) : Pattern := seq ["`", .group n (many (CharSet.except "`")), "`"]

/-- A place that no operand can end before. -/
def notAfterOperand : Pattern := notAfter (isNamePart.or (CharSet.of ".])'\"`"))

/-- A template literal. -/
def inTemplate (t : Text) : Text := "`" ++ t ++ "`"

/-- An operand in a template. -/
def hole (t : Text) : Text := "$\x7b" ++ t ++ "\x7d"

/-- The template for a match that begins with an operand, unless a multiplication, division,
remainder or subtraction comes before it and takes that operand. -/
def unlessTaken (f : Match → Text) (m : Match) : Text :=
  if m.leftContext.head?.any (CharSet.of "*/%-") then m.text else f m

/-- The steps of one pass, in order. -/
def templateRules : List (Pattern × (Match → Text)) := [
  (seq [plainString 1, plus, plainString 3],
    fun m => m.group 1 ++ m.group 2 ++ m.group 4 ++ m.group 1),
  (seq [plainString 1, plus, .group 3 operand,
      .notAhead (oneOf [.one (isNamePart.or (CharSet.of ".([")),
        seq [space, .one (CharSet.of "*/%")]])],
    fun m => inTemplate (m.group 2 ++ hole (m.group 3))),
  (seq [template 1, plus, plainString 2],
    fun m => inTemplate (m.group 1 ++ m.group 3)),
  (seq [notAfterOperand, .group 1 operand, plus, plainString 2],
    unlessTaken (fun m => inTemplate (hole (m.group 1) ++ m.group 3))),
  (seq [plainString 1, plus, template 3],
    fun m => inTemplate (m.group 2 ++ m.group 3)),
  (seq [template 1, plus, template 2],
    fun m => inTemplate (m.group 1 ++ m.group 2)),
  (seq [notAfterOperand, .group 1 operand, plus, template 2],
    unlessTaken (fun m => inTemplate (hole (m.group 1) ++ m.group 2)))]

/-- Each step once, in order. -/
def templatePass (t : Text) : Text :=
  templateRules.foldl (fun t r => r.1.replace r.2 t) t

/-- Passes until one changes nothing, `passes` at most. -/
def templatePasses : (passes : Nat) → Text → Text
  | 0, t => t
  | passes + 1, t =>
    let t' := templatePass t
    if t' = t then t else templatePasses passes t'

/-- The most passes that are made. -/
def maxTemplatePasses : Nat := 5

/-- Concatenations as template literals. -/
def concatenationsToTemplates (t : Text) : Text := templatePasses maxTemplatePasses t

end CodeTidy.JavaScript
