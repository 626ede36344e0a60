import CodeTidy.JavaScript.Basic
import CodeTidy.Rule.Nesting

/-!
# `CodeTidy.JavaScript.Import`: modules

Calls of `require` become imports and assignments to `exports` become exports.
`importEnd` finds where the imports at the head of a file end.
-/

set_option autoImplicit false

namespace CodeTidy.JavaScript

open Pattern

/-- A call of `require` with a quoted module name. The quote is group `n`, the name the next
one. -/
def requireCall (n : Nat) : Pattern :=
  seq ["require(", .group n quote, .group (n + 1) (many1 (CharSet.except "'\"")),
    .again n, ")", opt ";"]

/-- A variable that holds a required module. -/
def requiredModule : Pattern :=
  seq [boundary, declarator, space1, .group 1 name, space, "=", space, requireCall 2]

/-- Variables that hold members of a required module. -/
def requiredMembers : Pattern :=
  seq [boundary, declarator, space, "\x7b", .group 1 (many1 (CharSet.except "\x7b\x7d")),
    "\x7d", space, "=", space, requireCall 2]

/-- A colon with white space around it. -/
def colon : Pattern := seq [space, ":", space]

/-- An import of members, in which a member that gets another name has `as` before it. -/
def toNamedImport (m : Match) : Text :=
  let names := (splitParams (m.group 1)).map (colon.replace (fun _ => " as "))
  "import \x7b " ++ Text.joinWith ", " names ++ " \x7d from \"" ++ m.group 3 ++ "\";"

/-- A module that is required for its effects, at the start of a line. -/
def requiredForEffect : Pattern := seq [lineStart, .group 1 indent, requireCall 2]

/-- The export of a whole module. -/
def moduleExports : Pattern :=
  seq [boundary, "module.exports", space, "=", space, .group 1 name, opt ";"]

/-- The export of one member. -/
def memberExport : Pattern :=
  seq [standsAlone, "exports.", .group 1 name, space, "=", space, .group 2 name, opt ";"]

/-- The export of a member, by its own name or another one. -/
def toNamedExport (m : Match) : Text :=
  if m.group 1 = m.group 2 then "export \x7b " ++ m.group 1 ++ " \x7d;"
  else "export const " ++ m.group 1 ++ " = " ++ m.group 2 ++ ";"

/-- The rules for modules. -/
def importRules : RuleTable := [
  .replacing "require_to_import" requiredModule
    (fun m => "import " ++ m.group 1 ++ " from \"" ++ m.group 3 ++ "\";"),
  .replacing "named_require_to_import" requiredMembers toNamedImport,
  .replacing "bare_require_to_import" requiredForEffect
    (fun m => m.group 1 ++ "import \"" ++ m.group 3 ++ "\";"),
  .replacing "module_exports_to_export" moduleExports
    (fun m => "export default " ++ m.group 1 ++ ";"),
  .replacing "exports_to_named_export" memberExport toNamedExport]

/-- The beginning of an import, a required module or a directive. -/
def importStart : Pattern :=
  seq [space, oneOf [
    seq ["import", boundary],
    seq [declarator, space1, many1 (CharSet.except "=\n"), "=", space, "require("],
    seq [quote, "use strict", quote]]]

/-- What ends an import: the module it is from, or a semicolon at the end of the line. -/
def importClose : Pattern :=
  oneOf [
    seq [boundary, "from", space, quote],
    seq [.place Cursor.atStart, space, "import", space, quote],
    seq [";", space, .place Cursor.atLastEnd]]

/-- Of the lines after the first line of an import, which is `l`, how many belong to it. -/
def importRest : (l : Text) → List Text → Nat
  | _, [] => 0
  | l, next :: rest => if importClose.occursIn l then 0 else importRest next rest + 1

/-- The number of lines up to the last import, required module or directive at the head of the
file. `skip` lines still belong to an import, `seen` lines are passed and `found` is the number up
to the last one so far. -/
def importEndFrom : (skip seen found : Nat) → List Text → Nat
  | _, _, found, [] => found
  | skip + 1, seen, found, _ :: ls => importEndFrom skip (seen + 1) found ls
  | 0, seen, found, l :: ls =>
    if importStart.isStart l then
      let extra := if Text.startsWith (Text.trimStart l) "import" then importRest l ls else 0
      importEndFrom extra (seen + 1) (seen + 1 + extra) ls
    else if !Text.allBlank l && !Text.startsWith (Text.trimStart l) "//" then found
    else importEndFrom 0 (seen + 1) found ls

/-- The number of lines up to the last import, required module or directive at the head of the
file. -/
def importEnd (ls : List Text) : Nat := importEndFrom 0 0 0 ls

end CodeTidy.JavaScript
