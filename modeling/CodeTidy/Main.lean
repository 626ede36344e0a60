import CodeTidy.Command.Run

/-!
# `CodeTidy.Main`: the program

The program reads the files that its arguments name, carries out the call, and
writes what has changed. It opens no connection of its own, so a model server
is never reached.
-/

set_option autoImplicit false

namespace CodeTidy.Main

/-- The bytes of a file, if it can be read. -/
def readBytes? (name : String) : IO (Option Bytes) := do
  try
    return some (← IO.FS.readBinFile name).toList
  catch _ => return none

/-- Whether a folder is there under a name. -/
def isFolder (name : String) : IO Bool := do
  try
    let _ ← IO.FS.realPath name
    return (← readBytes? name).isNone
  catch _ => return false

/-- The name of a path. -/
def pathName (path : Path) : String :=
  match path with
  | ['/'] :: rest => "/" ++ (Text.joinWith "/" rest).toStr
  | parts => (Text.joinWith "/" parts).toStr

/-- The files and folders that the arguments name, and the folders before them. -/
def treeOf (args : List String) : IO FileTree := do
  let mut files : List (Path × Bytes) := []
  let mut folders : List Path := []
  for name in args do
    let path := Path.ofText name.toList
    if let some bytes ← readBytes? name then
      files := (path, bytes) :: files
    for n in List.range (path.length + 1) do
      if ← isFolder (pathName (path.take n)) then
        folders := path.take n :: folders
  return ⟨files, folders⟩

/-- All that can be read from the input. -/
def inputText : IO Text := do
  let bytes ← (← IO.getStdin).readToEnd
  return Text.decodeUtf8 bytes.toUTF8.toList

/-- The variables that the program knows. -/
def environment : IO Environment := do
  let mut env : Environment := []
  for name in ["CODELENS_MODEL", "OLLAMA_HOST"] do
    if let some value ← IO.getEnv name then
      env := (name.toList, value.toList) :: env
  return env

/-- Write the files that have changed. -/
def writeChanges (before after : FileTree) : IO Unit := do
  for (path, bytes) in after.files do
    if before.read? path != some bytes then
      IO.FS.writeBinFile (pathName path) ⟨bytes.toArray⟩

end CodeTidy.Main

/-- Carry out the call with these arguments. -/
def main (args : List String) : IO UInt32 := do
  let tree ← CodeTidy.Main.treeOf args
  let input ← if args.contains "-" then CodeTidy.Main.inputText else pure []
  let world : CodeTidy.Command.World :=
    ⟨tree, input, ← CodeTidy.Main.environment, CodeTidy.Connection.fresh [], []⟩
  match CodeTidy.Command.run (args.map String.toList) world with
  | .ok outcome =>
    CodeTidy.Main.writeChanges tree outcome.world.tree
    IO.print outcome.output.toStr
    IO.eprint outcome.errors.toStr
    return UInt32.ofNat outcome.exitCode
  | .error crash =>
    IO.eprintln crash.message.toStr
    return 1
