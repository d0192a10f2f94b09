import Formula.Session.Source

/-!
# Folders

A path is looked up in a working folder that holds files and nothing else. What lies above the
working folder is known to be a folder, and nothing more.

## Main definitions

* `Folder` — the files of a working folder
* `FileError` — why a path cannot be opened or read
* `Opened` — what opening a path gives
* `Folder.openPath` — looking up a path
* `Folder.openSource` — the source that a path leads to
-/

namespace Formula

/-- The files of a folder with their contents. -/
structure Folder where
  files : List (String × List UInt8) := []
deriving DecidableEq, Repr

/-- Why a path cannot be opened or read. -/
inductive FileError where
  | notFound
  | notFolder
  | isFolder
  | nameTooLong
deriving DecidableEq, Repr

/-- The system's report of a file error. -/
def FileError.message : FileError → String
  | notFound => "No such file or directory (os error 2)"
  | notFolder => "Not a directory (os error 20)"
  | isFolder => "Is a directory (os error 21)"
  | nameTooLong => "File name too long (os error 36)"

/-- What a path leads to. -/
inductive Opened where
  | file (contents : List UInt8)
  /-- The working folder. -/
  | workingFolder
  /-- Some folder above the working folder. -/
  | outerFolder
deriving DecidableEq, Repr

namespace Folder

/-- The longest name of a file, in bytes. -/
def nameLimit : Nat := 255

/-- The longest path, in bytes. -/
def pathLimit : Nat := 4095

/-- One step of a path. An empty name, as between two slashes, and a dot stay in a folder. -/
def enter (folder : Folder) (place : Opened) (name : String) : Except FileError Opened :=
  match place with
  | .file _ => .error .notFolder
  | .workingFolder =>
    if name = "" ∨ name = "." then .ok .workingFolder
    else if name = ".." then .ok .outerFolder
    else if nameLimit < name.utf8ByteSize then .error .nameTooLong
    else
      match folder.files.find? (·.1 == name) with
      | some (_, contents) => .ok (.file contents)
      | none => .error .notFound
  | .outerFolder =>
    if name = "" ∨ name = "." ∨ name = ".." then .ok .outerFolder
    else if nameLimit < name.utf8ByteSize then .error .nameTooLong
    else .error .notFound

/-- What a path leads to. A path that begins with a slash starts outside the working folder. -/
def openPath (folder : Folder) (path : String) : Except FileError Opened :=
  if path = "" then .error .notFound
  else if pathLimit < path.utf8ByteSize then .error .nameTooLong
  else
    let names := (path.toList.splitOn '/').map String.ofList
    let start := if path.toList.head? = some '/' then .outerFolder else .workingFolder
    names.foldlM folder.enter start

/-- The source that a path leads to. A folder can be opened, but reading it fails. -/
def openSource (folder : Folder) (path : String) : Except String Source :=
  match folder.openPath path with
  | .ok (.file contents) => .ok ⟨contents, none⟩
  | .ok .workingFolder | .ok .outerFolder => .ok ⟨[], some FileError.isFolder.message⟩
  | .error error => .error error.message

end Folder

end Formula
