import BundlePlan.Dictionary
import BundlePlan.FilePath

/-! A tree of directories and files without links, as one map from locations to what is there,
and the exact failures of walking, reading, writing and creating in it. -/
namespace BundlePlan

/-- Why an access to a file did not succeed. `reported` is a failure known by its text only. -/
inductive FileFailure
  | notFound
  | alreadyExists
  | notDirectory
  | isDirectory
  | nameTooLong
  | notUtf8
  | nulInPath
  | reported (text : String)
deriving DecidableEq

def FileFailure.message : FileFailure → String
  | notFound => "No such file or directory (os error 2)"
  | alreadyExists => "File exists (os error 17)"
  | notDirectory => "Not a directory (os error 20)"
  | isDirectory => "Is a directory (os error 21)"
  | nameTooLong => "File name too long (os error 36)"
  | notUtf8 => "stream did not contain valid UTF-8"
  | nulInPath => "file name contained an unexpected NUL byte"
  | reported text => text

abbrev Location := List String

inductive Entry
  | directory
  | file (content : ByteArray)

instance : DecidableEq Entry
  | .directory, .directory => isTrue rfl
  | .directory, .file _ => isFalse nofun
  | .file _, .directory => isFalse nofun
  | .file first, .file second =>
    decidable_of_iff (first.data = second.data) (by rw [Entry.file.injEq, ByteArray.ext_iff])

/-- Everything below the root, which is a directory and has no entry of its own. -/
structure FileTree where
  entries : Dictionary Location Entry

namespace FileTree

instance : EmptyCollection FileTree := ⟨⟨∅⟩⟩

def entry? (tree : FileTree) (location : Location) : Option Entry :=
  if location = [] then some .directory else tree.entries.find? location

def put (tree : FileTree) (location : Location) (entry : Entry) : FileTree :=
  ⟨tree.entries.insert location entry⟩

def longestName : Nat := 255

def longestPath : Nat := 4095

/-- One step of a walk from a directory through `name`, which has to be a directory too. -/
def enter (tree : FileTree) (here : Location) (name : String) : Except FileFailure Location :=
  if name = "." then .ok here
  else if name = ".." then .ok here.dropLast
  else if name.utf8ByteSize > longestName then .error .nameTooLong
  else match tree.entry? (here ++ [name]) with
    | some .directory => .ok (here ++ [name])
    | some (.file _) => .error .notDirectory
    | none => .error .notFound

/-- Where the walk along a path ends: at a directory that is certainly there, or at a name inside
one, which may or may not be there; `slash` tells that the path goes on with a slash. -/
inductive Target
  | standing (directory : Location)
  | named (directory : Location) (name : String) (slash : Bool)
deriving DecidableEq

def locate (tree : FileTree) (cwd : Location) (path : FilePath) : Except FileFailure Target := do
  let text := path.text.toList
  if text.contains '\x00' then throw .nulInPath
  if text = [] then throw .notFound
  if path.text.utf8ByteSize > longestPath then throw .nameTooLong
  let names := ((text.splitOn '/').filter (· ≠ [])).map String.ofList
  let origin := if text.head? = some '/' then [] else cwd
  let directory ← names.dropLast.foldlM tree.enter origin
  match names.getLast? with
  | none => return .standing directory
  | some "." => return .standing directory
  | some ".." => return .standing directory.dropLast
  | some name => return .named directory name (text.getLast? = some '/')

/-- What is at the end of the path. A slash after a file is a failure. -/
def reach (tree : FileTree) (cwd : Location) (path : FilePath) : Except FileFailure Entry := do
  match ← tree.locate cwd path with
  | .standing _ => return .directory
  | .named directory name slash =>
    if name.utf8ByteSize > longestName then throw .nameTooLong
    match tree.entry? (directory ++ [name]) with
    | none => throw .notFound
    | some .directory => return .directory
    | some (.file content) => if slash then throw .notDirectory else return .file content

def pathExists (tree : FileTree) (cwd : Location) (path : FilePath) : Bool :=
  (tree.reach cwd path).isOk

def isDirectory (tree : FileTree) (cwd : Location) (path : FilePath) : Bool :=
  match tree.reach cwd path with
  | .ok .directory => true
  | _ => false

def readText (tree : FileTree) (cwd : Location) (path : FilePath) : Except FileFailure String := do
  match ← tree.reach cwd path with
  | .directory => throw .isDirectory
  | .file content =>
    match String.fromUTF8? content with
    | some text => return text
    | none => throw .notUtf8

def createDirectory (tree : FileTree) (cwd : Location) (path : FilePath) :
    Except FileFailure FileTree := do
  match ← tree.locate cwd path with
  | .standing _ => throw .alreadyExists
  | .named directory name _ =>
    if name.utf8ByteSize > longestName then throw .nameTooLong
    match tree.entry? (directory ++ [name]) with
    | some _ => throw .alreadyExists
    | none => return tree.put (directory ++ [name]) .directory

/-- Adds the first of the directories when it is missing; the others are those around it, the
innermost first, and are added as well when they are missing. Directories made before a failure
stay. -/
def ensureDirectories (tree : FileTree) (cwd : Location) (directories : List FilePath) :
    FileTree × Except FileFailure Unit :=
  match directories with
  | [] => (tree, .ok ())
  | path :: outer =>
    let settle (tree : FileTree) (failure : FileFailure) : FileTree × Except FileFailure Unit :=
      (tree, if tree.isDirectory cwd path then .ok () else .error failure)
    match tree.createDirectory cwd path with
    | .ok created => (created, .ok ())
    | .error .notFound =>
      match ensureDirectories tree cwd outer with
      | (above, .error failure) => (above, .error failure)
      | (above, .ok ()) =>
        match above.createDirectory cwd path with
        | .ok created => (created, .ok ())
        | .error failure => settle above failure
    | .error failure => settle tree failure

def writeText (tree : FileTree) (cwd : Location) (path : FilePath) (content : String) :
    Except FileFailure FileTree := do
  match ← tree.locate cwd path with
  | .standing _ => throw .isDirectory
  | .named directory name slash =>
    if slash then throw .isDirectory
    if name.utf8ByteSize > longestName then throw .nameTooLong
    match tree.entry? (directory ++ [name]) with
    | some .directory => throw .isDirectory
    | _ => return tree.put (directory ++ [name]) (.file content.toUTF8)

end FileTree
end BundlePlan
