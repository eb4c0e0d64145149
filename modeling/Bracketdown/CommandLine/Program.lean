import Bracketdown.CommandLine.Command

/-!
# The program on its system

What the program asks of the system that it runs on is a `System`: to read its input, to write a
file, to print and to report. `program` says what it asks for, and in which order, on whatever
system and with whatever reader of documents. It runs on the real system in `main`, and on a
`World`, which is a model of one.

Nothing holds back what has been done before a fault. So where a fault may stop the program, what is
left behind is a matter of the order.
-/

namespace Bracketdown.CommandLine

/-- How the program is used. -/
def usage : String :=
  "Convert Markdown to bracket markup

Usage: steambb [OPTIONS] <COMMAND>

Commands:
  convert [INPUT]  Convert a document (`-` is the standard input)
  tree [INPUT]     Print the parsed tree as JSON
  help             Print this help

Options:
  -v, --verbose         Say more
  -o, --output <FILE>   Where the result of `convert` goes
  -f, --from <FORMAT>   What the input of `convert` is: markdown, mdast-json
      --commonmark      Without the extensions
  -h, --help            Print this help
  -V, --version         Print the version
"

/-- What the program asks of its system. A file is read as a whole or not at all, and so it is
written; but of what is to be printed a part may be out when a fault comes. -/
structure System (m : Type → Type) where
  /-- All that is left of the standard input. -/
  readStandard : m (Except FileFault (List UInt8))
  /-- The content of a file. -/
  readFile : String → m (Except FileFault (List UInt8))
  /-- Replaces the content of a file, which need not be there before. -/
  writeFile : String → List UInt8 → m (Except FileFault Unit)
  /-- Adds to the standard output. -/
  print : List UInt8 → m (Except FileFault Unit)
  /-- Adds to the standard error. -/
  report : String → m Unit

/-- What finds the tree in some bytes of a format. -/
abbrev Reader := Markdown.Options → List UInt8 → Format → Except Failure Node

/-- The reader of the program. -/
def Format.read : Reader
  | options, bytes, .markdown => (Markdown.parseBytes options bytes).mapError .encoding
  | _, bytes, .tree => (Node.decodeBytes bytes).mapError .tree

variable {m : Type → Type} [Monad m]

namespace System

/-- What is done with a file, with its fault as a failure of the program. -/
def attempt {α : Type} (failure : FileFault → Failure) (action : m (Except FileFault α)) :
    ExceptT Failure m α :=
  ExceptT.mk do return (← action).mapError failure

/-- Reads the input. -/
def readInput (system : System m) (input : String) : ExceptT Failure m (List UInt8) :=
  if input = standard then attempt .file system.readStandard
  else attempt .file (system.readFile input)

/-- Converts a document. -/
def convert (system : System m) (reader : Reader) (input : String) (output : Option String)
    (format : Option Format) (options : Markdown.Options) : ExceptT Failure m Unit := do
  let format := format.getD (.ofPath input)
  let bytes ← system.readInput input
  let tree ← reader options bytes format
  let result := bytesOf (Markup.render tree)
  match output with
  | some path =>
    if path ≠ standard then attempt .file (system.writeFile path result)
    else attempt .file (system.print result)
  | none => attempt .file (system.print result)

/-- Prints the tree of a document. -/
def tree (system : System m) (reader : Reader) (input : String) (options : Markdown.Options) :
    ExceptT Failure m Unit := do
  let bytes ← system.readInput input
  let tree ← reader options bytes .markdown
  attempt .unprinted (system.print (bytesOf tree.encodePretty))
  attempt .file (system.print (bytesOf "\n"))

/-- Runs a command. -/
def perform (system : System m) (reader : Reader) : Command → ExceptT Failure m Unit
  | .convert input output format options => system.convert reader input output format options
  | .tree input options => system.tree reader input options

end System

/-- Runs the program; what is left in the end is its exit code. -/
def program (system : System m) (reader : Reader) (args : List String) : m Nat := do
  match Request.ofArguments args with
  | .version =>
    let _ ← system.print (bytesOf versionLine)
    return 0
  | .help =>
    let _ ← system.print (bytesOf usage)
    return 0
  | .wrongUsage =>
    system.report usage
    return 2
  | .run command =>
    match ← (system.perform reader command).run with
    | .ok () => return 0
    | .error failure =>
      system.report (failure.message ++ "\n")
      return 1

end Bracketdown.CommandLine
