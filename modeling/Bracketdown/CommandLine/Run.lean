import Bracketdown.CommandLine.World
import Bracketdown.Text.Utf8

/-!
# Running the program in a folder

`execute` runs the program with the files of a folder as all that there is on a disk, and says what
is left behind of it.
-/

namespace Bracketdown.CommandLine

/-- Files with their contents, by their paths from a folder on. -/
structure Folder where
  files : List (Path × List UInt8)
  deriving Repr, DecidableEq

namespace Folder

/-- Where the folder is. -/
def place : Path := ["folder"]

/-- A disk with the folder, in which the program works. -/
def disk (folder : Folder) : Disk where
  files := folder.files.map fun file => (place ++ file.1, file.2)
  directories := [place]
  workplace := place

/-- The folder that is found on a disk. -/
def ofFiles (files : List (Path × List UInt8)) : Folder where
  files := (files.filter fun file => place.isPrefixOf file.1).map fun file =>
    (file.1.drop place.length, file.2)

end Folder

/-- What a run of the program leaves behind. -/
inductive Outcome where
  /-- It went well: what was printed, and the files as they are now. -/
  | done (printed : String) (folder : Folder)
  /-- It failed. -/
  | failed (failure : Failure)
  /-- Help was asked for, and printed. -/
  | helped
  /-- The arguments were wrong. -/
  | misused

/-- The exit code of the program. -/
def Outcome.code : Outcome → Nat
  | .done _ _ => 0
  | .failed _ => 1
  | .helped => 0
  | .misused => 2

/-- The text that some bytes spell. -/
def textOf (bytes : List UInt8) : String :=
  match Utf8.decode bytes with
  | .ok text => String.ofList text
  | .error _ => ""

/-- Runs the program in a folder. -/
def execute (args : List String) (folder : Folder) (stdin : List UInt8) : Outcome :=
  match Request.ofArguments args with
  | .version => .done versionLine folder
  | .help => .helped
  | .wrongUsage => .misused
  | .run command =>
    match (World.system.perform Format.read command).run.run (folder.disk.world stdin) with
    | (.ok (), after) => .done (textOf after.printed) (.ofFiles after.files)
    | (.error failure, _) => .failed failure

end Bracketdown.CommandLine
