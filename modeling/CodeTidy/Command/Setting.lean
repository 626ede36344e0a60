import CodeTidy.Text.Basic

/-!
# `CodeTidy.Command.Setting`: commands and their options

The program has five commands. Each has options, of which some take a value, and
some commands take the name of a file. The texts that explain them stand here
too.
-/

set_option autoImplicit false

namespace CodeTidy.Command

/-- The name of the program. -/
def programName : Text := "codelens"

/-- The version of the program. -/
def versionText : Text := "0.3.0"

/-- An option of the program or of a command. -/
inductive Setting where
  | language
  | jsonOnly
  | refactored
  | output
  | aggressive
  | noRestructure
  | instructions
  | diff
  | useModel
  | model
  | host
  | verbose
  | version
  | help
  deriving DecidableEq, Repr

namespace Setting

/-- The long name of the option. -/
def longName : Setting → Text
  | .language => "--language"
  | .jsonOnly => "--json-only"
  | .refactored => "--refactored"
  | .output => "--output"
  | .aggressive => "--aggressive"
  | .noRestructure => "--no-restructure"
  | .instructions => "--instructions"
  | .diff => "--diff"
  | .useModel => "--use-model"
  | .model => "--model"
  | .host => "--host"
  | .verbose => "--verbose"
  | .version => "--version"
  | .help => "--help"

/-- The letter of the option, if it has one. -/
def letter? : Setting → Option Char
  | .language => some 'l'
  | .output => some 'o'
  | .instructions => some 'i'
  | .model => some 'm'
  | .verbose => some 'v'
  | _ => none

/-- Whether the option takes a value. -/
def takesValue : Setting → Bool
  | .language | .output | .instructions | .model | .host => true
  | _ => false

/-- What the option does. -/
def description : Setting → Text
  | .language => "Language id (default: inferred from the file extension)"
  | .jsonOnly => "Output raw JSON to stdout (for piping)"
  | .refactored => "Include the refactored code in the report"
  | .output => "Write the refactored code to this file"
  | .aggressive => "Enable aggressive rules (SQL subqueries and comments)"
  | .noRestructure => "Do not split notebook cells or add helper cells"
  | .instructions => "Free-text instructions, e.g. \"remove comments\""
  | .diff => "Show a unified diff instead of the full code"
  | .useModel => "Ask a local Ollama model, falling back to heuristics"
  | .model => "Ollama model name (default: $CODELENS_MODEL)"
  | .host => "Ollama base URL (default: $OLLAMA_HOST or localhost)"
  | .verbose => "Show debug logging on stderr"
  | .version => "Show the version and exit."
  | .help => "Show this message and exit."

end Setting

/-- What the program can be told to do. -/
inductive Action where
  | analyze
  | languages
  | refactor
  | status
  | version
  deriving DecidableEq, Repr

namespace Action

/-- All actions, in the order in which they are listed. -/
def all : List Action := [.analyze, .languages, .refactor, .status, .version]

/-- The name of the action. -/
def name : Action → Text
  | .analyze => "analyze"
  | .languages => "languages"
  | .refactor => "refactor"
  | .status => "status"
  | .version => "version"

/-- The action of that name. -/
def ofName? (t : Text) : Option Action := all.find? (fun a => a.name == t)

/-- The options of the action, in the order in which they are listed. -/
def settings : Action → List Setting
  | .analyze => [.language, .jsonOnly, .refactored, .useModel, .model, .host, .verbose, .help]
  | .refactor =>
    [.language, .output, .aggressive, .noRestructure, .instructions, .diff, .jsonOnly, .useModel,
      .model, .host, .verbose, .help]
  | .status => [.model, .host, .help]
  | .languages | .version => [.help]

/-- Whether the action works on a file. -/
def takesFile : Action → Bool
  | .analyze | .refactor => true
  | _ => false

/-- What the action does, in one sentence. -/
def summary : Action → Text
  | .analyze => "Score a source file and list its issues."
  | .languages => "List supported languages and their rule tables."
  | .refactor => "Rewrite a source file with its language's refactoring rules."
  | .status => "Check whether the configured Ollama model is reachable."
  | .version => "Show version information."

/-- Calls that show how the action is used. -/
def examples : Action → List Text
  | .analyze => ["codelens analyze app.js", "codelens analyze notebook.ipynb --json-only",
    "cat query.sql | codelens analyze - -l sql"]
  | .refactor => ["codelens refactor legacy.js --diff",
    "codelens refactor report.sql --aggressive -o report.formatted.sql",
    "codelens refactor utils.py -i \"remove comments\""]
  | _ => []

end Action

/-- The options of the program itself. -/
def programSettings : List Setting := [.version, .help]

/-- The options of an action, or of the program if no action is given. -/
def settingsOf : Option Action → List Setting
  | some a => a.settings
  | none => programSettings

/-- What is said about the program: paragraphs of its own. -/
def programDescription : List Text :=
  ["codelens - deterministic code quality analysis and refactoring.",
    "Scores source files on readability, maintainability, performance, security and code " ++
      "smells, and rewrites them with per-language rules. No network access unless " ++
      "--use-model is given."]

end CodeTidy.Command
