import CodeTidy.Json.Writer
import CodeTidy.Text.Blank
import CodeTidy.Text.Case

/-!
# `CodeTidy.Language`: languages and the families they belong to

A caller names a language by an id or an alias, or by the name of a file. Each
name belongs to one of six families, which share rules and metrics; a name that
is not known belongs to the generic family.
-/

set_option autoImplicit false

namespace CodeTidy

/-- The languages that share rules and metrics. -/
inductive Family where
  | javascript
  | python
  | cpp
  | java
  | sql
  | generic
  deriving DecidableEq, Repr

namespace Family

/-- All families, in the order in which they are listed. -/
def all : List Family := [.javascript, .python, .cpp, .java, .sql, .generic]

/-- The name of the family. -/
def name : Family → Text
  | .javascript => "javascript"
  | .python => "python"
  | .cpp => "cpp"
  | .java => "java"
  | .sql => "sql"
  | .generic => "generic"

/-- The family of that name. -/
def ofName? (t : Text) : Option Family := all.find? (fun f => f.name == t)

/-- The ids and aliases of the languages of the family. -/
def aliases : Family → List Text
  | .javascript => ["js", "jsx", "ts", "tsx", "mjs", "cjs", "javascript", "typescript"]
  | .python => ["py", "python", "ipynb", "jupyter"]
  | .cpp => ["c", "h", "cpp", "cc", "cxx", "hpp", "c++"]
  | .java => ["java"]
  | .sql => ["sql", "mysql", "postgresql", "postgres", "sqlite"]
  | .generic => []

/-- The family that an alias belongs to. -/
def ofAlias (t : Text) : Family := (all.find? (fun f => f.aliases.elem t)).getD .generic

end Family

/-- What a caller names a language by: a text, or any other value, which names none. -/
abbrev LanguageId := Json

namespace LanguageId

/-- The id of a text whose language is not known. -/
def plain : LanguageId := .string "plaintext"

/-- The id in small letters, without white space around it and dots before it. -/
def normalized : LanguageId → Text
  | .string t => (Text.lower (Text.trim t)).dropWhile (· == '.')
  | _ => []

/-- The family of the language. -/
def family (id : LanguageId) : Family := Family.ofAlias (normalized id)

end LanguageId

/-- Languages and the extensions of their files. -/
def fileExtensions : List (Text × List Text) := [
  ("python", [".py", ".pyw", ".ipynb"]),
  ("javascript", [".js", ".jsx", ".mjs", ".cjs"]),
  ("typescript", [".ts", ".tsx"]),
  ("java", [".java"]),
  ("c", [".c", ".h"]),
  ("cpp", [".cpp", ".cc", ".cxx", ".hpp", ".hh", ".hxx"]),
  ("csharp", [".cs"]),
  ("go", [".go"]),
  ("ruby", [".rb"]),
  ("rust", [".rs"]),
  ("php", [".php"]),
  ("shell", [".sh", ".bash", ".zsh"]),
  ("sql", [".sql"]),
  ("html", [".html", ".htm"]),
  ("css", [".css", ".scss"]),
  ("json", [".json"]),
  ("markdown", [".md", ".markdown"]),
  ("xml", [".xml"]),
  ("yaml", [".yaml", ".yml"])]

/-- The language of the files with an extension. -/
def languageOfExtension? (extension : Text) : Option Text :=
  (fileExtensions.find? (fun entry => entry.2.elem extension)).map Prod.fst

/-- The last component of a path; empty components and single dots do not count. -/
def fileName (path : Text) : Text :=
  ((Text.splitAtEach (· == '/') path).filter (fun p => !p.isEmpty && p != ['.'])).getLastD []

/-- The extension of a file name: from its last dot on, unless that is the first or last
character. -/
def extensionOf (name : Text) : Text :=
  let stem := name.reverse.dropWhile (· != '.')
  let extension := name.drop (stem.length - 1)
  if stem.length ≤ 1 || extension.length ≤ 1 then [] else extension

/-- The language that the name of a file tells. -/
def languageForFile (path : Text) : LanguageId :=
  match languageOfExtension? (Text.lower (extensionOf (fileName path))) with
  | some id => .string id
  | none => LanguageId.plain

/-- A piece of source and the language it is in. A source that is not a text is read as the empty
text. -/
structure SourceUnit where
  source : Json
  language : LanguageId

namespace SourceUnit

/-- The text of the source. -/
def text (u : SourceUnit) : Text :=
  match u.source with
  | .string t => t
  | _ => []

/-- The family of the language. -/
def family (u : SourceUnit) : Family := u.language.family

end SourceUnit

end CodeTidy
