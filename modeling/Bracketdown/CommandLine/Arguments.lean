import Bracketdown.Markdown.Options

/-!
# Arguments

What may be written behind the program's name: a command with an input, and options before or behind
it. Arguments are read from left to right, and the first one that is wrong, or that asks for the
version or for help, decides. An option takes its value from the argument it stands in or from the
next one, which may not look like an option itself; it may be given once. Behind `--` everything is
an input.
-/

namespace Bracketdown.CommandLine

/-- What a file holds: a document to read, or a tree in its stored form. -/
inductive Format where
  | markdown | tree
  deriving Repr, DecidableEq

/-- The name of a format among the arguments. -/
def Format.name : Format → String
  | .markdown => "markdown"
  | .tree => "mdast-json"

/-- The format with a name. -/
def Format.ofName? (name : String) : Option Format :=
  [Format.markdown, .tree].find? fun format => format.name = name

/-- What the program is asked to do. An input or output `-` is the standard one. -/
inductive Command where
  /-- Convert a document to bracket markup. -/
  | convert (input : String) (output : Option String) (format : Option Format)
      (options : Markdown.Options)
  /-- Print the tree of a document. -/
  | tree (input : String) (options : Markdown.Options)
  deriving Repr, DecidableEq

/-- What a list of arguments asks for. -/
inductive Request where
  | version
  | help
  | run (command : Command)
  /-- The arguments are wrong. -/
  | wrongUsage
  deriving Repr, DecidableEq

/-- The names of options; a switch has no value. -/
inductive Name where
  | verbose | version | help | commonMark | output | format
  deriving Repr, DecidableEq

/-- The commands. -/
inductive Verb where
  | convert | tree
  deriving Repr, DecidableEq

namespace Name

/-- The long spelling. -/
def long : Name → List Char
  | .verbose => "verbose".toList
  | .version => "version".toList
  | .help => "help".toList
  | .commonMark => "commonmark".toList
  | .output => "output".toList
  | .format => "from".toList

/-- The short spelling, if there is one. -/
def short? : Name → Option Char
  | .verbose => some 'v'
  | .version => some 'V'
  | .help => some 'h'
  | .commonMark => none
  | .output => some 'o'
  | .format => some 'f'

/-- Whether an option has a value. -/
def hasValue : Name → Bool
  | .output => true
  | .format => true
  | _ => false

end Name

/-- The options in front of a command. -/
def commonNames : List Name := [.verbose, .version, .help]

/-- The options behind a command. -/
def Verb.names : Verb → List Name
  | .convert => [.verbose, .help, .commonMark, .output, .format]
  | .tree => [.verbose, .help, .commonMark]

/-- One argument, or a part of it. -/
inductive Item where
  /-- An option without a value. -/
  | switch (name : Name)
  /-- An option with the value it has in its own argument, if any. -/
  | setting (name : Name) (value : Option (List Char))
  | input (text : List Char)
  /-- From here on everything is an input. -/
  | endOfOptions
  | unknown
  deriving Repr, DecidableEq

/-- The items of a cluster of short options. What follows an option with a value is its value. -/
def shortItems (names : List Name) : List Char → List Item
  | [] => []
  | c :: s =>
    match names.find? fun name => name.short? = some c with
    | none => [.unknown]
    | some name =>
      if name.hasValue then
        match s with
        | [] => [.setting name none]
        | '=' :: value => [.setting name (some value)]
        | value => [.setting name (some value)]
      else .switch name :: shortItems names s

/-- The item of a long option. -/
def longItem (names : List Name) (s : List Char) : Item :=
  let word := s.takeWhile (· ≠ '=')
  let value? := match s.drop word.length with
    | _ :: value => some value
    | [] => none
  match names.find? fun name => name.long = word with
  | none => .unknown
  | some name =>
    if name.hasValue then .setting name value?
    else if value?.isNone then .switch name else .unknown

/-- The items of an argument. -/
def items (names : List Name) : List Char → List Item
  | ['-', '-'] => [.endOfOptions]
  | '-' :: '-' :: s => [longItem names s]
  | '-' :: c :: s => shortItems names (c :: s)
  | s => [.input s]

/-- Whether an argument looks like an option. -/
def isOptionLike : List Char → Bool
  | '-' :: _ :: _ => true
  | _ => false

/-- What has been said behind a command. -/
structure Settings where
  verbose : Bool := false
  commonMark : Bool := false
  input : Option String := none
  output : Option String := none
  format : Option Format := none

/-- An answer that does not wait for the arguments behind, or the settings so far. -/
abbrev Step := Except Request Settings

namespace Settings

/-- Adds the input; there is one at most, and it is not empty. -/
def addInput (text : List Char) (settings : Settings) : Step :=
  if settings.input.isSome || text.isEmpty then .error .wrongUsage
  else .ok { settings with input := some (String.ofList text) }

/-- Adds an option without a value. -/
def addSwitch (name : Name) (settings : Settings) : Step :=
  match name with
  | .version => .error .version
  | .help => .error .help
  | .verbose =>
    if settings.verbose then .error .wrongUsage else .ok { settings with verbose := true }
  | .commonMark =>
    if settings.commonMark then .error .wrongUsage else .ok { settings with commonMark := true }
  | _ => .error .wrongUsage

/-- Adds an option with its value. -/
def addSetting (name : Name) (value : List Char) (settings : Settings) : Step :=
  match name with
  | .output =>
    if settings.output.isSome || value.isEmpty then .error .wrongUsage
    else .ok { settings with output := some (String.ofList value) }
  | .format =>
    match Format.ofName? (String.ofList value) with
    | some format =>
      if settings.format.isSome then .error .wrongUsage
      else .ok { settings with format := some format }
    | none => .error .wrongUsage
  | _ => .error .wrongUsage

/-- Adds an item. An option whose value has to come from the next argument is left over. -/
def addItem (settings : Settings) : Item → Except Request (Settings × Option Name)
  | .switch name => (settings.addSwitch name).map (·, none)
  | .setting name (some value) => (settings.addSetting name value).map (·, none)
  | .setting name none => .ok (settings, some name)
  | .input text => (settings.addInput text).map (·, none)
  | .endOfOptions => .ok (settings, none)
  | .unknown => .error .wrongUsage

/-- Adds the items of an argument. The option that is left over can only be the last one. -/
def addItems (settings : Settings) : List Item → Except Request (Settings × Option Name)
  | [] => .ok (settings, none)
  | [item] => settings.addItem item
  | item :: rest => do
    let (settings, _) ← settings.addItem item
    settings.addItems rest

/-- Adds arguments that are all inputs. -/
def addInputs (settings : Settings) (args : List (List Char)) : Step :=
  args.foldlM (fun settings text => settings.addInput text) settings

end Settings

/-- Reads the arguments behind a command. -/
def readSettings (names : List Name) : Settings → List (List Char) → Step
  | settings, [] => .ok settings
  | settings, arg :: rest => do
    let found := items names arg
    -- Behind two dashes nothing is an option.
    if found.contains .endOfOptions then settings.addInputs rest
    else
      match ← settings.addItems found, rest with
      | (settings, none), rest => readSettings names settings rest
      | (settings, some name), value :: rest =>
        if isOptionLike value then .error .wrongUsage
        else do
          let settings ← settings.addSetting name value
          readSettings names settings rest
      | (_, some _), [] => .error .wrongUsage

/-- The command that a verb and its settings make. -/
def Verb.command (verb : Verb) (settings : Settings) : Command :=
  let input := settings.input.getD "-"
  let options := if settings.commonMark then Markdown.Options.commonMark else {}
  match verb with
  | .convert => .convert input settings.output settings.format options
  | .tree => .tree input options

/-- The command with a name. -/
def Verb.ofName? (name : List Char) : Option Verb :=
  if name = "convert".toList then some .convert
  else if name = "tree".toList then some .tree
  else none

/-- What arguments behind a command ask for. -/
def readCommand (verb : Verb) (args : List (List Char)) : Request :=
  match readSettings verb.names {} args with
  | .ok settings => .run (verb.command settings)
  | .error request => request

/-- What arguments behind the word `help` ask for: a command may be named. -/
def readHelp : List (List Char) → Request
  | [] => .help
  | [name] => if (Verb.ofName? name).isSome || name = "help".toList then .help else .wrongUsage
  | _ => .wrongUsage

/-- Reads all arguments. -/
def readArguments (settings : Settings) : List (List Char) → Request
  | [] => .wrongUsage
  | arg :: rest =>
    match items commonNames arg with
    | [.input name] =>
      match Verb.ofName? name with
      | some verb => readCommand verb rest
      | none => if name = "help".toList then readHelp rest else .wrongUsage
    | found =>
      if found.contains .endOfOptions then .wrongUsage
      else
        match settings.addItems found with
        | .ok (settings, _) => readArguments settings rest
        | .error request => request

/-- What a list of arguments asks for. -/
def Request.ofArguments (args : List String) : Request :=
  readArguments {} (args.map String.toList)

end Bracketdown.CommandLine
