import Bracketdown.CommandLine.Program

/-!
# A model of a system

A `World` is what a run of the program sees and changes: the files, and the standard input, output
and error. Where a path leads is not said here; there may be links, rights and faults of any sort.
The program makes no directories and no links, so that paths lead to the same places all the time.
One world in which it is said is that of a `Disk`.
-/

namespace Bracketdown.CommandLine

/-- What a run of the program sees and changes, with files at places of some sort. -/
structure World (Place : Type) where
  /-- The place that a path leads to, or the fault of what is asked there. -/
  resolve : Access → Except FileFault Place
  files : List (Place × List UInt8)
  /-- What reading the standard input gives. -/
  stdin : Except FileFault (List UInt8)
  /-- How many bytes the standard output takes in all, and the fault that the next one meets; none
  if it takes them all. -/
  limit? : Option (Nat × FileFault) := none
  printed : List UInt8 := []
  reported : String := ""

namespace World

variable {Place : Type} [DecidableEq Place]

/-- The content of the file at a place, if there is one. -/
def content? (world : World Place) (place : Place) : Option (List UInt8) :=
  world.files.lookup place

/-- The content of a file. -/
def readFile (world : World Place) (path : String) : Except FileFault (List UInt8) := do
  match world.content? (← world.resolve (.read path)) with
  | some content => return content
  | none => throw .missing

/-- Gives a file a content. -/
def put (world : World Place) (place : Place) (content : List UInt8) : World Place :=
  { world with files := putFile world.files place content }

/-- Adds to what is printed. -/
def add (world : World Place) (bytes : List UInt8) : World Place :=
  { world with printed := world.printed ++ bytes }

/-- How many of the next bytes the standard output takes, and the fault behind them, if it does not
take them all. -/
def overflow? (world : World Place) (bytes : List UInt8) : Option (Nat × FileFault) :=
  match world.limit? with
  | some (limit, fault) =>
    if limit < world.printed.length + bytes.length then some (limit - world.printed.length, fault)
    else none
  | none => none

/-- Writes a file, or finds that it cannot be written. -/
def writeFile (world : World Place) (path : String) (content : List UInt8) :
    Except FileFault Unit × World Place :=
  match world.resolve (.write path) with
  | .ok place => (.ok (), world.put place content)
  | .error fault => (.error fault, world)

/-- Prints as much as the standard output takes. -/
def print (world : World Place) (bytes : List UInt8) : Except FileFault Unit × World Place :=
  match world.overflow? bytes with
  | none => (.ok (), world.add bytes)
  | some (room, fault) => (.error fault, world.add (bytes.take room))

/-- A world as a system. -/
def system : System (StateM (World Place)) where
  readStandard := modifyGet fun world => (world.stdin, { world with stdin := .ok [] })
  readFile path := return (← get).readFile path
  writeFile path content := modifyGet fun world => world.writeFile path content
  print bytes := modifyGet fun world => world.print bytes
  report text := modify fun world => { world with reported := world.reported ++ text }

/-- Runs the program in a world: its exit code, and the world after that. -/
def run (reader : Reader) (args : List String) (world : World Place) : Nat × World Place :=
  (program system reader args).run world

end World

/-- The world of a disk, with a standard input. -/
def Disk.world (disk : Disk) (stdin : List UInt8) : World Path where
  resolve := disk.resolve
  files := disk.files
  stdin := .ok stdin

end Bracketdown.CommandLine
