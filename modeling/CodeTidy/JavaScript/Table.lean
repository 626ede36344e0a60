import CodeTidy.JavaScript.Declaration
import CodeTidy.JavaScript.Import
import CodeTidy.JavaScript.Loop
import CodeTidy.JavaScript.Statement
import CodeTidy.JavaScript.Template
import CodeTidy.Rule.Phrase

/-!
# `CodeTidy.JavaScript.Table`: the rules for JavaScript and TypeScript

The table runs the rules for declarations, loops, concatenations, statements,
modules and object access, and last gives each arrow function a documentation
comment.
-/

set_option autoImplicit false

namespace CodeTidy.JavaScript

open Pattern

/-- The declaration of a constant that holds an arrow function, at the start of a line. -/
def arrowDeclaration : Pattern :=
  seq [lineStart, .group 1 indent,
    .group 2 (seq [opt (seq ["export", space1]), "const", space1, .group 3 name, space, "=", space,
      opt (seq ["async", space1]), "(", .group 4 (many (CharSet.except "()")), ")",
      opt (seq [space, ":", space, few1 (CharSet.except "=;\x7b\x7d()")]), space, "=>"])]

/-- The name of a parameter for the documentation: what stands before its default or type, or
`options` for one that is taken apart. -/
def documentedParam (param : Text) : Text :=
  let n := (Text.trim (param.takeWhile (fun c => c != '=' && c != ':'))).dropWhile (· == '.')
  if Text.startsWithAny n ["\x7b", "["] then "options" else n

/-- The declaration with a documentation comment before it, unless it has one. -/
def withDoc (m : Match) : Text :=
  if followsComment m then m.text
  else
    let margin := m.group 1
    let params := (splitParams (m.group 4)).map
      (fun p => margin ++ " * @param \x7b*\x7d " ++ documentedParam p)
    let comment : List Text :=
      [margin ++ "/**", margin ++ " * " ++ humanize (m.group 3) ++ "."] ++ params ++
        [margin ++ " */"]
    Text.unlines comment ++ "\n" ++ m.text

/-- The rules for JavaScript and TypeScript. -/
def rules : RuleTable :=
  declarationRules ++ loopRules ++
    [.ofText "concatenation_to_template" concatenationsToTemplates] ++
    statementRules ++ importRules ++ accessRules ++
    [.replacing "jsdoc_header" arrowDeclaration withDoc]

end CodeTidy.JavaScript
