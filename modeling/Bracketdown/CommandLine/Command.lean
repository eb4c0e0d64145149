import Bracketdown.CommandLine.Arguments
import Bracketdown.CommandLine.Disk
import Bracketdown.Convert
import Bracketdown.Node.Decode
import Bracketdown.Node.Json

/-!
# Commands

What a command makes of its input. The format of the input is the one that was asked for, or else
the one that the name of the input speaks for.
-/

namespace Bracketdown.CommandLine

/-- Why a command fails. -/
inductive Failure where
  | file (fault : FileFault)
  | encoding (error : Markdown.EncodingError)
  | tree (error : DecodeError)
  /-- A tree cannot be printed. The wording makes no difference between that and a tree that cannot
  be read. -/
  | unprinted (fault : FileFault)
  deriving Repr

/-- The line that a failure is reported with. -/
def Failure.message : Failure → String
  | .file fault => "error: io error: " ++ fault.message
  | .encoding error => "error: " ++ error.message
  | .tree error => "error: invalid mdast JSON: " ++ error.message
  | .unprinted fault => "error: invalid mdast JSON: " ++ fault.message

/-- The name of the standard input and output. -/
def standard : String := "-"

/-- The name of the file that a path leads to. -/
def fileName? (path : String) : Option String :=
  ((pathParts path).filter fun part => part ≠ "" ∧ part ≠ ".").getLast?

/-- What follows the last dot of a file's name, unless the name starts with that dot. -/
def extension? (path : String) : Option (List Char) := do
  let name ← fileName? path
  guard (name ≠ "..")
  let parts := Text.parts (· = '.') name.toList
  -- A name that only starts with a dot has no extension.
  guard (2 ≤ parts.length ∧ (2 < parts.length ∨ parts.head? ≠ some []))
  parts.getLast?

/-- The format of an input, by its name. -/
def Format.ofPath (path : String) : Format :=
  if path = standard then .markdown
  else
    match extension? path with
    | some name => if name.map Char.toLower = "json".toList then .tree else .markdown
    | none => .markdown

namespace Command

/-- The input of a command. -/
def input : Command → String
  | .convert input _ _ _ => input
  | .tree input _ => input

/-- The file that the result goes to; none for the standard output. -/
def output? : Command → Option String
  | .convert _ output _ _ => output.filter (· ≠ standard)
  | .tree _ _ => none

/-- The result of a command, from the bytes of its input. -/
def result (bytes : List UInt8) : Command → Except Failure String
  | .convert input _ format options =>
    match format.getD (.ofPath input) with
    | .markdown => ((Markdown.parseBytes options bytes).mapError .encoding).map Markup.render
    | .tree => ((Node.decodeBytes bytes).mapError .tree).map Markup.render
  | .tree _ options =>
    ((Markdown.parseBytes options bytes).mapError .encoding).map fun tree =>
      tree.encodePretty ++ "\n"

end Command

/-- The name and version of the program, as it prints them. -/
def versionLine : String := "steambb 0.1.0\n"

/-- The bytes of a text. -/
def bytesOf (text : String) : List UInt8 := text.toUTF8.toList

end Bracketdown.CommandLine
