import Bracketdown.Text.Parts

/-!
# Disks

A disk is a tree of directories and files. A path is walked on it part by part (`Disk.walk`), from
the root or from the directory that the program works in, and every part but the last has to be a
directory. So a file in the middle of a path and a part that is missing are different faults, and
two dots go up from the working directory as from any other; only the root has nothing above it.
-/

namespace Bracketdown.CommandLine

/-- Why a file cannot be read or written. -/
inductive FileFault where
  | missing | notDirectory | isDirectory
  /-- Any other reason, in the words of the system. -/
  | other (message : String)
  deriving Repr, DecidableEq

/-- The wording of a fault. -/
def FileFault.message : FileFault → String
  | .missing => "No such file or directory (os error 2)"
  | .notDirectory => "Not a directory (os error 20)"
  | .isDirectory => "Is a directory (os error 21)"
  | .other message => message

/-- What is asked of a file, by its path. -/
inductive Access where
  | read (path : String)
  | write (path : String)
  deriving Repr, DecidableEq

/-- The parts of a path as it is written. A path from the root starts with an empty part, and one
that asks for a directory ends with one. -/
def pathParts (path : String) : List String :=
  (Text.parts (· = '/') path.toList).map String.ofList

/-- The names on the way to a place, from a directory on. -/
abbrev Path := List String

/-- What stands at a place. -/
inductive Entry where
  | file | directory
  deriving Repr, DecidableEq

/-- A tree of directories and files, from its root on. -/
structure Disk where
  files : List (Path × List UInt8)
  /-- Directories that are there even with nothing in them. -/
  directories : List Path := []
  /-- The directory that the program works in. -/
  workplace : Path := []
  deriving Repr, DecidableEq

/-- Files of which one is given a content. It need not be there before. -/
def putFile {Place : Type} [DecidableEq Place] (files : List (Place × List UInt8)) (place : Place)
    (content : List UInt8) : List (Place × List UInt8) :=
  (place, content) :: files.filter fun file => file.1 ≠ place

namespace Disk

/-- The places of all files and of the directories that are listed. -/
def names (disk : Disk) : List Path := disk.files.map Prod.fst ++ disk.directories

/-- What stands at a place. A directory is there if anything is in it. -/
def entry? (disk : Disk) (place : Path) : Option Entry :=
  if (disk.files.lookup place).isSome then some .file
  else if place.isEmpty || disk.names.any place.isPrefixOf then some .directory
  else none

/-- The place that one more part leads to. -/
def next (place : Path) (part : String) : Path :=
  if part = "" ∨ part = "." then place
  else if part = ".." then place.dropLast
  else place ++ [part]

/-- Walks along the parts of a path; all but the last have to be directories. -/
def walk (disk : Disk) (place : Path) : List String → Except FileFault Path
  | [] => .ok place
  | part :: rest =>
    match disk.entry? place with
    | some .directory => disk.walk (next place part) rest
    | some .file => .error .notDirectory
    | none => .error .missing

/-- Where the parts of a path are walked from. -/
def start (disk : Disk) (parts : List String) : Path :=
  if parts.head? = some "" then [] else disk.workplace

/-- The place of a file, which is no directory. -/
def fileAt (disk : Disk) (place : Path) : Except FileFault Path :=
  if disk.entry? place = some .directory then .error .isDirectory else .ok place

/-- Where some of the parts of a path lead. Without any text it is no path. -/
def locate (disk : Disk) (parts walked : List String) : Except FileFault Path :=
  if parts = [""] then .error .missing else disk.walk (disk.start parts) walked

/-- Parts of a path without the empty ones at the end. -/
def withoutSlashes (parts : List String) : List String :=
  (parts.reverse.dropWhile (· = "")).reverse

/-- Where a path leads. There need not be a file yet; but what ends with a slash is never written,
be there a directory or not. -/
def resolve (disk : Disk) : Access → Except FileFault Path
  | .read path => do
    disk.fileAt (← disk.locate (pathParts path) (pathParts path))
  | .write path => do
    let place ← disk.locate (pathParts path) (withoutSlashes (pathParts path))
    if (pathParts path).getLast? = some "" then throw .isDirectory else disk.fileAt place

end Disk

end Bracketdown.CommandLine
