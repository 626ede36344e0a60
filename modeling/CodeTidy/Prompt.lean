import CodeTidy.Language

/-!
# `CodeTidy.Prompt`: what a model is asked

A prompt holds the instructions, the source in a fenced block, and the form of
the answer. A long source is cut.
-/

set_option autoImplicit false

namespace CodeTidy.Prompt

/-- The number of characters after which a source is cut. -/
def maxSourceChars : Nat := 12000

/-- What the model is told about its part. -/
def system : Text :=
  "You are a senior software engineer reviewing code quality.\n" ++
  "Judge readability, maintainability, performance, security and code smells.\n" ++
  "Be specific: cite lines and constructs from the provided code.\n" ++
  "Never invent code that is not in the input."

/-- The source, cut if it is long. -/
def cutSource (code : Text) : Text :=
  if maxSourceChars < code.length then code.take maxSourceChars ++ "\n... (truncated)" else code

/-- The source in a fenced block, under the name of its language. -/
def sourceBlock (language : LanguageId) (code : Text) : Text :=
  let name := language.shown
  "LANGUAGE: " ++ name ++ "\n\nCODE:\n```" ++ name ++ "\n" ++ cutSource code ++ "\n```"

/-- The question for scores, issues and advice. -/
def analysis (language : LanguageId) (code : Text) : Text :=
  "Review the following code and rate its quality.\n\n" ++ sourceBlock language code ++
  "\n\nRespond with a single JSON object with EXACTLY these keys:\n\n\x7b\n" ++
  "  \"readability_score\": <integer 0-100>,\n" ++
  "  \"maintainability_score\": <integer 0-100>,\n" ++
  "  \"performance_score\": <integer 0-100>,\n" ++
  "  \"security_score\": <integer 0-100>,\n" ++
  "  \"code_smell_score\": <integer 0-100>,\n" ++
  "  \"issues\": [<short strings, \"Line N: problem\" where a line is known>],\n" ++
  "  \"recommendations\": [<up to 3 short, actionable strings>],\n" ++
  "  \"summary\": \"<one sentence>\"\n\x7d\n\n" ++
  "Higher scores are better. Do not include any text outside the JSON."

/-- The part of a prompt that holds the wishes of the caller, if there are any. -/
def wishesBlock (wishes : Text) : Text :=
  if Text.allBlank wishes then [] else "\nADDITIONAL INSTRUCTIONS:\n" ++ Text.trim wishes ++ "\n"

/-- The request for the refactored code. -/
def refactoring (language : LanguageId) (code wishes : Text) : Text :=
  "Refactor the following code to modern, idiomatic " ++ language.shown ++ ".\n\n" ++
  sourceBlock language code ++ "\n" ++ wishesBlock wishes ++ "\nRules:\n" ++
  "- Preserve behavior exactly; do not add features.\n" ++
  "- Keep public names and signatures unchanged.\n" ++
  "- Prefer clear names, small functions and the language's standard idioms.\n\n" ++
  "Return ONLY the complete refactored code in a single fenced code block."

end CodeTidy.Prompt
