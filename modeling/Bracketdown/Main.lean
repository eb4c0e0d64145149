import Bracketdown.CommandLine.Program

/-!
# The program

Runs the program on the system that there is.
-/

namespace Bracketdown.CommandLine

/-- Everything that can be read from a stream. -/
partial def readAll (stream : IO.FS.Stream) (read : ByteArray) : IO ByteArray := do
  let chunk ← stream.read 65536
  if chunk.isEmpty then return read else readAll stream (read ++ chunk)

/-- The fault that the system reports. -/
def faultOf : IO.Error → FileFault
  | .noFileOrDirectory _ _ _ => .missing
  | .inappropriateType file number details =>
    -- Some calls give the number of a fault with its sign turned.
    if number = 20 ∨ number = 0 - 20 then .notDirectory
    else if number = 21 ∨ number = 0 - 21 then .isDirectory
    else .other (toString (IO.Error.inappropriateType file number details))
  | error => .other (toString error)

/-- What comes of an action, or the fault that stopped it. -/
def faultOr {α : Type} (action : IO α) : IO (Except FileFault α) := do
  try return .ok (← action) catch error => return .error (faultOf error)

/-- The system that the program runs on. -/
def realSystem : System IO where
  readStandard := faultOr do return (← readAll (← IO.getStdin) .empty).toList
  readFile path := faultOr do return (← IO.FS.readBinFile path).toList
  writeFile path content := faultOr (IO.FS.writeBinFile path ⟨content.toArray⟩)
  print bytes := faultOr do
    let stdout ← IO.getStdout
    stdout.write ⟨bytes.toArray⟩
    -- Lines go out at once. A fault behind the last of them comes too late to be reported.
    if bytes.contains 10 then stdout.flush
  report text := IO.eprint text

end Bracketdown.CommandLine

open Bracketdown CommandLine in
/-- Runs the program. -/
def main (args : List String) : IO UInt32 :=
  return (← program realSystem Format.read args).toUInt32
