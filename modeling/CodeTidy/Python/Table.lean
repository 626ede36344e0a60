import CodeTidy.Python.Docstring
import CodeTidy.Python.FString
import CodeTidy.Python.Header
import CodeTidy.Python.Loop
import CodeTidy.Python.Statement

/-!
# `CodeTidy.Python.Table`: the rules for Python

A cell of a notebook gets the rules that look at one statement or loop at a
time. A file gets these and then the passes over its definitions and imports.
-/

set_option autoImplicit false

namespace CodeTidy.Python

/-- The rules for a cell of a notebook. -/
def cellRules : RuleTable := fStringRules ++ loopRules ++ statementRules

/-- The rules for a file. -/
def rules : RuleTable :=
  cellRules ++ [
    evalRule,
    .ofText "mutable_default_arguments" guardMutableDefaults,
    .ofText "type_hints" addTypeHints,
    .ofText "docstrings" addDocstrings,
    .ofText "imports" addImports]

end CodeTidy.Python
