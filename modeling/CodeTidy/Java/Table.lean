import CodeTidy.Java.Declaration
import CodeTidy.Java.Loop
import CodeTidy.Rule.Nesting
import CodeTidy.Rule.Phrase

/-!
# `CodeTidy.Java.Table`: the rules for Java

After the rules for loops and declarations, methods that override one of
`Object` or `Comparable` are marked, and public methods get a documentation
comment.
-/

set_option autoImplicit false

namespace CodeTidy.Java

open Pattern

/-- The declaration of a method of `Object` or `Comparable`, at the start of a line. -/
def overridingMethod : Pattern :=
  seq [lineStart, .group 1 indent,
    .group 2 (seq ["public", space1, opt (seq ["final", space1]),
      oneOfWords ["boolean", "int", "String"], space1,
      oneOfWords ["equals", "hashCode", "toString", "compareTo"], space, "("])]

/-- The declaration with a mark before it, unless it has one. -/
def withOverride (m : Match) : Text :=
  if Text.startsWith m.leftContext "@Override".toList.reverse then m.text
  else m.group 1 ++ "@Override\n" ++ m.group 1 ++ m.group 2

/-- Annotations on lines of their own. -/
def annotationLines : Pattern :=
  .star .most
    (seq ["@", word, opt (seq ["(", many (CharSet.except ")\n"), ")"]), indent, "\n", indent])

/-- The declaration of a public method with its annotations, at the start of a line. Its
indentation is group 1; result type, name and parameters are groups 3 to 5. -/
def publicMethod : Pattern :=
  let isTypePart := CharSet.or Text.isWord (CharSet.of "<>[], ?")
  seq [lineStart, .group 1 indent, .group 2 annotationLines, "public", space1,
    .star .most (seq [oneOfWords ["static", "final", "abstract", "synchronized"], space1]),
    .notAhead (seq [oneOfWords ["class", "interface", "enum", "record"], boundary]),
    .group 3 (few1 isTypePart), space1, .group 4 word, space, "(",
    .group 5 (many (CharSet.except "()")), ")"]

/-- The name of a parameter: the last word of it, if it has one. -/
def paramName? (param : Text) : Option Text := (word.hits param).getLast?.map Match.text

/-- The declaration with a documentation comment before it, unless it has one. -/
def withDoc (m : Match) : Text :=
  if Text.startsWith m.leftContext "/*" then m.text
  else
    let margin := m.group 1
    let returns := Text.trim (m.group 3) != "void".toList
    let names := (splitParams (m.group 5)).filterMap paramName?
    let separator : List Text := if !names.isEmpty || returns then [margin ++ " *"] else []
    let result : List Text := if returns then [margin ++ " * @return the result"] else []
    let params := names.map
      (fun n => margin ++ " * @param " ++ n ++ " the " ++ Text.lower (humanize n))
    let comment : List Text :=
      [margin ++ "/**", margin ++ " * " ++ humanize (m.group 4) ++ "."] ++ separator ++ params ++
        result ++ [margin ++ " */"]
    Text.unlines comment ++ "\n" ++ m.text

/-- The rules for Java. -/
def rules : RuleTable :=
  loopRules ++ declarationRules ++ [
    .replacing "override_annotation" overridingMethod withOverride,
    .replacing "javadoc_header" publicMethod withDoc]

end CodeTidy.Java
