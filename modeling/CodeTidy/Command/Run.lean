import CodeTidy.Assistant
import CodeTidy.Command.Arguments
import CodeTidy.Command.Help
import CodeTidy.Command.Layout
import CodeTidy.FileTree

/-!
# `CodeTidy.Command.Run`: carrying out a call

`run` takes the arguments of a call and the world around it, and gives the exit
code, what is printed, and the world after it. A failure that the program
expects is printed; any other one is a crash.
-/

set_option autoImplicit false

namespace CodeTidy.Command

/-- What a call sees and changes. -/
structure World where
  tree : FileTree
  input : Text
  environment : Environment
  connection : Connection
  printed : Text

/-- A failure that nobody expects. -/
inductive Crash where
  | model (failure : ModelFailure)
  | markup (error : MarkupError)

/-- What is said about a crash. -/
def Crash.message : Crash → Text
  | .model failure => failure.message
  | .markup error => error.message

/-- Why a call stops before its end. -/
inductive Stop where
  | failed (message : Text)
  | crashed (crash : Crash)

/-- A part of a call. -/
abbrev Task (α : Type) := ExceptT Stop (StateM World) α

namespace Task

/-- The failure with a message. -/
def fail {α : Type} (message : Text) : Task α := throw (.failed message)

/-- Print a text and a line feed. -/
def print (t : Text) : Task Unit :=
  modify (fun world => { world with printed := world.printed ++ t ++ "\n" })

/-- Print lines. -/
def printLines (ls : List Text) : Task Unit := ls.forM print

/-- Print lines, if their tags can be read. -/
def printMarked (ls : Except MarkupError (List Text)) : Task Unit :=
  match ls with
  | .ok ls => printLines ls
  | .error e => throw (.crashed (.markup e))

/-- The result of an exchange with a model. -/
def exchange {α : Type} (x : Exchange α) : Task α := do
  let world ← get
  let (result, connection) := x.runOn world.connection
  set { world with connection }
  match result with
  | .ok a => return a
  | .error failure => throw (.crashed (.model failure))

/-- The value of an option that is not empty. -/
def nonEmpty? (arguments : Arguments) (s : Setting) : Option Text :=
  (arguments.value? s).filter (fun t => !t.isEmpty)

/-- The unit that a target names; a dash names the input. -/
def unit (target : Text) (language? : Option Text) : Task SourceUnit := do
  let world ← get
  let given : Option LanguageId := language?.map Json.string
  if target = "-".toList then
    return ⟨.string (Text.unifyLineEnds world.input), given.getD LanguageId.plain⟩
  else
    match world.tree.read? (Path.ofText target) with
    | none => fail ("Not a file: " ++ target)
    | some bytes =>
      return ⟨.string (Text.unifyLineEnds (Text.decodeUtf8 bytes)),
        given.getD (languageForFile target)⟩

/-- The configuration of the model that the environment and the options give. -/
def modelConfig (arguments : Arguments) : Task ModelConfig := do
  return (ModelConfig.ofEnvironment (← get).environment).override
    (arguments.value? .model) (arguments.value? .host)

/-- Whoever does the work. -/
def assistant (arguments : Arguments) : Task Assistant := do
  if arguments.has .useModel then return ⟨some (← modelConfig arguments)⟩ else return ⟨none⟩

/-- Write a text to a file. -/
def write (target text : Text) : Task Unit := do
  let world ← get
  match world.tree.write (Path.ofText target) (Text.encodeUtf8 text) with
  | .ok tree => set { world with tree }
  | .error e => fail ("Cannot write " ++ target ++ ": " ++ e.message)

/-- Score a file. -/
def analyze (target : Text) (arguments : Arguments) : Task Unit := do
  let u ← unit target (nonEmpty? arguments .language)
  let a ← assistant arguments
  let report ← exchange (a.analyze u (arguments.has .refactored))
  if arguments.has .jsonOnly then print (report.toJson.write JsonStyle.report)
  else printMarked (reportLines target report)

/-- The options of a refactoring. -/
def refactorOptions (arguments : Arguments) : RefactorOptions :=
  { aggressive := arguments.has .aggressive
    restructureNotebooks := !arguments.has .noRestructure
    instructions := (arguments.value? .instructions).getD [] }

/-- The code of a refactoring, in the form that is asked for. -/
def printCode (target : Text) (u : SourceUnit) (r : Refactoring) (arguments : Arguments)
    (output? : Option Text) : Task Unit :=
  if arguments.has .diff then printLines (diffLines target u.text r.code)
  else
    match output? with
    | some output =>
      printMarked (markedLines ("\n[green]Refactored code written to " ++ output ++ "[/]"))
    | none => printLines ([] :: Screen.Listing.numbered r.code)

/-- Refactor a file. -/
def refactor (target : Text) (arguments : Arguments) : Task Unit := do
  let u ← unit target (nonEmpty? arguments .language)
  let a ← assistant arguments
  let r ← exchange (a.refactor u (refactorOptions arguments))
  if arguments.has .jsonOnly then print (r.toJson.write JsonStyle.report)
  let output? := nonEmpty? arguments .output
  if let some output := output? then write output r.code
  if !arguments.has .jsonOnly then
    printMarked (refactoringLines target r)
    printCode target u r arguments output?

/-- Ask the server about itself. -/
def status (arguments : Arguments) : Task Unit := do
  let config ← modelConfig arguments
  if !(← exchange (ModelClient.isRunning config)) then
    fail ("Ollama is not running at " ++ config.address ++ ". Start with: ollama serve")
  printMarked (markedLines ("[green]Ollama is running at " ++ config.address ++ "[/]"))
  if ← exchange (ModelClient.isModelAvailable config) then
    printMarked (markedLines ("[green]Model available: " ++ config.model ++ "[/]"))
  else
    printMarked (markedLines
      ("[yellow]Model not installed. Run: ollama pull " ++ config.model ++ "[/]"))

/-- Carry out an action. -/
def perform (a : Action) (target : Text) (arguments : Arguments) : Task Unit :=
  match a with
  | .analyze => analyze target arguments
  | .refactor => refactor target arguments
  | .status => status arguments
  | .languages => printLines languageLines
  | .version => printLines ["codelens-cli v" ++ versionText,
      "Deterministic code quality analysis and rule-based refactoring"]

/-- Do what a call asks for. -/
def ofCall : Call → Task Unit
  | .help a => printLines (helpLines a)
  | .version => print (programName ++ ", version " ++ versionText)
  | .perform a target arguments => perform a target arguments

end Task

/-- The end of a call. -/
structure Outcome where
  exitCode : Nat
  output : Text
  errors : Text
  world : World

/-- Lines, each with a line feed. -/
def closedLines (ls : List Text) : Text := ls.flatMap (fun l => l ++ "\n")

/-- What is printed when the arguments cannot be read. -/
def callErrorText : CallError → Text
  | .noArguments => closedLines (helpLines none)
  | .usage a e => closedLines [usageLine a, "Try '" ++ callName a ++ " --help' for help.", [],
      "Error: " ++ e.message]

/-- The outcome of a call with some arguments. -/
def run (args : List Text) (world : World) : Except Crash Outcome :=
  match callOf args with
  | .error e => .ok ⟨2, world.printed, callErrorText e, world⟩
  | .ok call =>
    match Id.run ((ExceptT.run (Task.ofCall call)).run world) with
    | (.ok _, world) => .ok ⟨0, world.printed, [], world⟩
    | (.error (.failed message), world) =>
      .ok ⟨1, world.printed, closedLines ["Error: " ++ message], world⟩
    | (.error (.crashed crash), _) => .error crash

end CodeTidy.Command
