import SearchRelay.Failure

/-!
# Files

A tree of directories and files, as far as opening a file to append to it needs
one. A path is walked name by name, and the first name that leads nowhere is
what is wrong with it. A file that is not there is made.
-/

namespace SearchRelay

/-- The names of a file or a directory from the root down. -/
abbrev FilePath := List (List UInt8)

/-- The directories and the files that are there, and the directory in which paths without a slash at the
start begin. -/
structure Disk where
  directories : List FilePath
  files : List FilePath
  working : FilePath
deriving DecidableEq, Repr

namespace Disk

def nameLimit : Nat := 255

def pathLimit : Nat := 4095

/-- Whether a name stands for a directory or for the one that holds it. -/
def isDots (name : List UInt8) : Bool := name = [46] || name = [46, 46]

def isDirectory (disk : Disk) (path : FilePath) : Bool := path = [] || disk.directories.contains path

/-- The directory to which a name leads. The root holds itself. -/
def enter (disk : Disk) (directory : FilePath) (name : List UInt8) : Except IoFault FilePath :=
  if name = [46] then .ok directory
  else if name = [46, 46] then .ok directory.dropLast
  else if nameLimit < name.length then .error .nameTooLong
  else if disk.isDirectory (directory ++ [name]) then .ok (directory ++ [name])
  else .error (if disk.files.contains (directory ++ [name]) then .notDirectory else .notFound)

/-- Opens the file of some name; `slash` says that a slash follows it. -/
def openIn (disk : Disk) (directory : FilePath) (name : List UInt8) (slash : Bool) : Except IoFault Unit :=
  if isDots name || slash then .error .isDirectory
  else if nameLimit < name.length then .error .nameTooLong
  else if disk.isDirectory (directory ++ [name]) then .error .isDirectory
  else .ok ()

def openAppend (disk : Disk) (path : List UInt8) : Except IoFault Unit :=
  if path.contains 0 then .error .zeroByte
  else if path.isEmpty then .error .notFound
  else if pathLimit < path.length then .error .nameTooLong
  else
    let names := (path.splitOn 47).filter (· != [])
    let base := if path.head? = some 47 then [] else disk.working
    match names.getLast? with
    | none => .error .isDirectory
    | some name =>
      (names.dropLast.foldlM disk.enter base).bind fun directory =>
        disk.openIn directory name (path.getLast? = some 47)

end Disk

end SearchRelay
