import CodeTidy.Text.Utf8

/-!
# `CodeTidy.FileTree`: files and folders

A `FileTree` holds the files that a run can see, under their paths, and the
folders it knows of besides the current one. A file can be written only into a
folder that is there.
-/

set_option autoImplicit false

namespace CodeTidy

/-- A path as the list of its components; the current folder is the empty path. -/
abbrev Path := List Text

namespace Path

/-- The path that a text names. Empty components and single dots do not count; a slash at the start
stands for the uppermost folder. -/
def ofText (t : Text) : Path :=
  let parts := (Text.splitAtEach (· == '/') t).filter (fun p => !p.isEmpty && p != ['.'])
  if Text.startsWith t "/" then ['/'] :: parts else parts

end Path

/-- The bytes of a file. -/
abbrev Bytes := List UInt8

/-- Files under their paths, and folders. -/
structure FileTree where
  files : List (Path × Bytes)
  folders : List Path

/-- Why a file cannot be written. -/
inductive WriteError where
  | isFolder
  | noSuchFile
  | notAFolder
  deriving DecidableEq, Repr

/-- What is said about the failure. -/
def WriteError.message : WriteError → Text
  | .isFolder => "Is a directory"
  | .noSuchFile => "No such file or directory"
  | .notAFolder => "Not a directory"

namespace FileTree

/-- Whether a path is a folder. The current folder, the one above any folder and the uppermost one
always are. -/
def isFolder (tree : FileTree) (path : Path) : Bool :=
  path.all (fun p => p == "..".toList) || path == [['/']] || tree.folders.elem path

/-- The bytes of a file, if it is there. -/
def read? (tree : FileTree) (path : Path) : Option Bytes := tree.files.lookup path

/-- Why nothing can be written under a path with some folders before it. -/
def folderError? (tree : FileTree) (path : Path) : Option WriteError :=
  let parents := (List.range path.length).map path.take
  (parents.find? (fun p => !tree.isFolder p)).map (fun p =>
    if (tree.read? p).isSome then .notAFolder else .noSuchFile)

/-- The tree after a file is written. -/
def write (tree : FileTree) (path : Path) (bytes : Bytes) : Except WriteError FileTree :=
  if tree.isFolder path then .error .isFolder
  else
    match tree.folderError? path with
    | some e => .error e
    | none => .ok { tree with files := (path, bytes) :: tree.files.filter (fun f => f.1 != path) }

end FileTree

end CodeTidy
