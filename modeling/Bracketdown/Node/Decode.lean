import Bracketdown.Json.Skip
import Bracketdown.Node.Record
import Bracketdown.Text.Quoted
import Bracketdown.Text.Utf8

/-!
# Reading documents from JSON

A text is read once, from the left, and nodes are built on the way; the first thing that is wrong
is the answer. A node is an object, or an array that holds its fields in their fixed order with the
last ones left out at will. The fields of a node are gathered in a `Draft`; when the bracket of the
node closes, the draft becomes a record and the record a node, so a node inside is refused before
the node around it. Members with unknown keys are skipped.

At most `levelLimit` objects and arrays may be open at once; skipped values do not count.
-/

namespace Bracketdown

open Json (Fault Input Unfinished Numeral skipBlanks)

/-- What a field or a node accepts. -/
inductive Expected where
  | string | byte | word | boolean | sequence | node
  deriving Repr, DecidableEq

/-- The wording of what was expected. -/
def Expected.message : Expected → String
  | .string => "a string"
  | .byte => "u8"
  | .word => "u64"
  | .boolean => "a boolean"
  | .sequence => "a sequence"
  | .node => "struct RawNode"

/-- What was found in place of something else. -/
inductive Found where
  | null
  | boolean (b : Bool)
  | integer (n : Int)
  | fraction (negative : Bool) (magnitude : Binary64)
  | string (s : String)
  | sequence
  | map
  deriving Repr, DecidableEq

/-- The wording of what was found. -/
def Found.message : Found → String
  | .null => "null"
  | .boolean b => "boolean `" ++ (if b then "true" else "false") ++ "`"
  | .integer n => "integer `" ++ toString n ++ "`"
  | .fraction negative x => "floating point `" ++ (if negative then "-" else "") ++ x.text ++ "`"
  | .string s => "string " ++ Text.quoted s
  | .sequence => "sequence"
  | .map => "map"

/-- What was found when it is a number. -/
def Found.ofNumeral : Numeral → Found
  | .natural n => .integer n.toNat
  | .negative n => .integer (-n)
  | .fraction negative x => .fraction negative x

/-- Why a text is no document. -/
inductive DecodeError where
  | fault (fault : Fault)
  /-- A field is given twice. -/
  | duplicate (field : Node.Field)
  /-- A node has no kind. -/
  | noKind
  /-- A node is an empty array. -/
  | noFields
  | mismatch (found : Found) (expected : Expected)
  /-- An integer does not fit its field. -/
  | outOfRange (n : Int) (expected : Expected)
  | defect (defect : Node.Defect)
  deriving Repr, DecidableEq

/-- The wording of an error. -/
def DecodeError.message : DecodeError → String
  | .fault f => f.message
  | .duplicate field => "duplicate field `" ++ field.name ++ "`"
  | .noKind => "missing field `" ++ Node.Field.kind.name ++ "`"
  | .noFields => "invalid length 0, expected struct RawNode with 10 elements"
  | .mismatch found expected =>
    "invalid type: " ++ found.message ++ ", expected " ++ expected.message
  | .outOfRange n expected =>
    "invalid value: integer `" ++ toString n ++ "`, expected " ++ expected.message
  | .defect d => d.message

/-- The sort of an error: the text ended, its spelling is wrong, or its content is. -/
inductive DecodeError.Sort where
  | ended | spelling | content
  deriving Repr, DecidableEq

/-- The sort an error belongs to. -/
def DecodeError.sort : DecodeError → DecodeError.Sort
  | .fault (.ended _) => .ended
  | .fault _ => .spelling
  | _ => .content

namespace Decode

/-- A reader gives the thing it read and the input behind it. -/
abbrev Reader (α : Type) := Input → Except DecodeError (α × Input)

/-- A fault as an error. -/
def lift {α : Type} : Except Fault α → Except DecodeError α
  | .ok a => .ok a
  | .error f => .error (.fault f)

/-- The error for an input that starts with something else than expected. The thing found is read
as far as its message needs, so it may be faulty itself. -/
def mismatch (expected : Expected) (input : Input) : DecodeError :=
  let found (what : Except Fault Found) : DecodeError :=
    match what with
    | .ok f => .mismatch f expected
    | .error f => .fault f
  match input with
  | [] => .fault (.ended .value)
  | some 'n' :: rest => found do return (fun _ => .null) (← Json.readWord ['u', 'l', 'l'] rest)
  | some 't' :: rest =>
    found do return (fun _ => .boolean true) (← Json.readWord ['r', 'u', 'e'] rest)
  | some 'f' :: rest =>
    found do return (fun _ => .boolean false) (← Json.readWord ['a', 'l', 's', 'e'] rest)
  | some '-' :: rest => found do return .ofNumeral (← Json.readNumeral true rest).1
  | some '"' :: rest => found do return .string (← Json.readString [] rest).1
  | some '[' :: _ => found (.ok .sequence)
  | some '\x7b' :: _ => found (.ok .map)
  | c :: rest =>
    if (Json.digit? c).isSome then
      found do return .ofNumeral (← Json.readNumeral false (c :: rest)).1
    else .fault .expectedValue

/-- A string. -/
def string (input : Input) : Except DecodeError (String × Input) :=
  match skipBlanks input with
  | some '"' :: rest => lift (Json.readString [] rest)
  | input => .error (mismatch .string input)

/-- A truth value. -/
def boolean (input : Input) : Except DecodeError (Bool × Input) :=
  match skipBlanks input with
  | some 't' :: rest => do return (true, ← lift (Json.readWord ['r', 'u', 'e'] rest))
  | some 'f' :: rest => do return (false, ← lift (Json.readWord ['a', 'l', 's', 'e'] rest))
  | input => .error (mismatch .boolean input)

/-- An integer up to `bound`. -/
def natural (expected : Expected) (bound : Nat) (input : Input) :
    Except DecodeError (UInt64 × Input) := do
  let fit : Numeral × Input → Except DecodeError (UInt64 × Input)
    | (.natural n, rest) =>
      if n.toNat ≤ bound then .ok (n, rest) else .error (.outOfRange n.toNat expected)
    | (.negative n, _) => .error (.outOfRange (-n) expected)
    | (.fraction negative x, _) => .error (.mismatch (.fraction negative x) expected)
  match skipBlanks input with
  | some '-' :: rest => fit (← lift (Json.readNumeral true rest))
  | c :: rest =>
    if (Json.digit? c).isSome then fit (← lift (Json.readNumeral false (c :: rest)))
    else throw (mismatch expected (c :: rest))
  | [] => throw (mismatch expected [])

/-- An integer that fits eight bits. -/
def byte (input : Input) : Except DecodeError (UInt8 × Input) := do
  let (n, rest) ← natural .byte 255 input
  return (n.toUInt8, rest)

/-- An integer that fits sixty-four bits. -/
def word (input : Input) : Except DecodeError (UInt64 × Input) :=
  natural .word (UInt64.size - 1) input

/-- A value that may be absent, which is written `null`. -/
def optional {α : Type} (read : Reader α) (input : Input) :
    Except DecodeError (Option α × Input) :=
  match skipBlanks input with
  | some 'n' :: rest => do return (none, ← lift (Json.readWord ['u', 'l', 'l'] rest))
  | input => do
    let (a, rest) ← read input
    return (some a, rest)

/-- The fields of a node read so far. The outer option of a field says whether it was given, the
inner one whether with a value. -/
structure Draft where
  kind : Option String := none
  value : Option (Option String) := none
  depth : Option (Option UInt8) := none
  ordered : Option (Option Bool) := none
  start : Option (Option UInt64) := none
  checked : Option (Option Bool) := none
  url : Option (Option String) := none
  alt : Option (Option String) := none
  lang : Option (Option String) := none
  children : Option (Option (List Node)) := none

namespace Draft

/-- Whether a field was given. -/
def has (draft : Draft) : Node.Field → Bool
  | .kind => draft.kind.isSome
  | .value => draft.value.isSome
  | .depth => draft.depth.isSome
  | .ordered => draft.ordered.isSome
  | .start => draft.start.isSome
  | .checked => draft.checked.isSome
  | .url => draft.url.isSome
  | .alt => draft.alt.isSome
  | .lang => draft.lang.isSome
  | .children => draft.children.isSome

/-- The draft with one more field, read from the input by the reader for its type. -/
def readField (children : Reader (List Node)) (draft : Draft) (field : Node.Field)
    (input : Input) : Except DecodeError (Draft × Input) :=
  let set {α : Type} (put : α → Draft) (read : Reader α) :
      Except DecodeError (Draft × Input) := do
    let (a, rest) ← read input
    return (put a, rest)
  match field with
  | .kind => set (fun a => { draft with kind := some a }) string
  | .value => set (fun a => { draft with value := some a }) (optional string)
  | .depth => set (fun a => { draft with depth := some a }) (optional byte)
  | .ordered => set (fun a => { draft with ordered := some a }) (optional boolean)
  | .start => set (fun a => { draft with start := some a }) (optional word)
  | .checked => set (fun a => { draft with checked := some a }) (optional boolean)
  | .url => set (fun a => { draft with url := some a }) (optional string)
  | .alt => set (fun a => { draft with alt := some a }) (optional string)
  | .lang => set (fun a => { draft with lang := some a }) (optional string)
  | .children => set (fun a => { draft with children := some a }) (optional children)

/-- The node of a complete draft. -/
def finish (draft : Draft) : Except DecodeError Node :=
  match draft.kind with
  | none => .error .noKind
  | some kind =>
    let made := Node.ofRecord
      { kind
        value := draft.value.join
        depth := draft.depth.join
        ordered := draft.ordered.join
        start := draft.start.join
        checked := draft.checked.join
        url := draft.url.join
        alt := draft.alt.join
        lang := draft.lang.join
        children := draft.children.join }
    match made with
    | .ok node => .ok node
    | .error d => .error (.defect d)

end Draft

/-- The input behind a colon. -/
def colon (input : Input) : Except Fault Input :=
  match skipBlanks input with
  | some ':' :: rest => .ok rest
  | _ :: _ => .error .expectedColon
  | [] => .error (.ended .object)

/-- The draft with one more member, from behind the quote of its key on. A field given twice is
refused at its second key; an unknown key is skipped with its value. -/
def member (children : Reader (List Node)) (draft : Draft) (input : Input) :
    Except DecodeError (Draft × Input) := do
  let (key, rest) ← lift (Json.readString [] input)
  match Node.Field.ofName? key with
  | some field =>
    -- Given as `null` a field counts as given.
    if draft.has field then throw (.duplicate field)
    draft.readField children field (← lift (colon rest))
  | none => return (draft, ← lift (do Json.skipValue (← colon rest)))

/-- The draft with all further members, from the quote of a key on, and the input behind the closing
brace. -/
def membersWith (children : Reader (List Node)) :
    Nat → Draft → Input → Except DecodeError (Draft × Input)
  | 0, _, _ => .error (.fault (.ended .object))
  | fuel + 1, draft, input =>
    match input with
    | some '"' :: rest => do
      let (draft, rest) ← member children draft rest
      match skipBlanks rest with
      | [] => throw (.fault (.ended .object))
      | some '\x7d' :: rest => return (draft, rest)
      | some ',' :: rest =>
        match skipBlanks rest with
        | [] => throw (.fault (.ended .value))
        | some '\x7d' :: _ => throw (.fault .trailingComma)
        | rest => membersWith children fuel draft rest
      | _ => throw (.fault .expectedCommaOrBrace)
    | _ => .error (.fault .keyNotString)

/-- The members of an object, from behind its opening brace on. -/
def members (children : Reader (List Node)) (fuel : Nat) (input : Input) :
    Except DecodeError (Draft × Input) :=
  match skipBlanks input with
  | [] => .error (.fault (.ended .object))
  | some '\x7d' :: rest => .ok ({}, rest)
  | input => membersWith children fuel {} input

/-- Whether another element of an array follows. -/
inductive Follow where
  | element (input : Input)
  | closed (input : Input)

/-- What follows an element of an array. -/
def afterElement (input : Input) : Except Fault Follow :=
  match skipBlanks input with
  | [] => .error (.ended .list)
  | some ']' :: rest => .ok (.closed rest)
  | some ',' :: rest =>
    match skipBlanks rest with
    | [] => .error (.ended .value)
    | some ']' :: _ => .error .trailingComma
    | rest => .ok (.element rest)
  | _ => .error .expectedCommaOrBracket

/-- What follows the opening bracket of an array. -/
def afterBracket (input : Input) : Except Fault Follow :=
  match skipBlanks input with
  | [] => .error (.ended .list)
  | some ']' :: rest => .ok (.closed rest)
  | rest => .ok (.element rest)

/-- The input behind the closing bracket of an array that must not go on. -/
def closeArray (input : Input) : Except Fault Input :=
  match skipBlanks input with
  | [] => .error (.ended .list)
  | some ']' :: rest => .ok rest
  | some ',' :: rest =>
    match skipBlanks rest with
    | some ']' :: _ => .error .trailingComma
    | _ => .error .trailingCharacters
  | _ => .error .trailingCharacters

/-- The draft of a node written as an array: the given fields in order, as far as there are
elements. -/
def positional (children : Reader (List Node)) (draft : Draft) :
    List Node.Field → Follow → Except DecodeError (Draft × Input)
  | _, .closed rest => .ok (draft, rest)
  | [], .element _ => .error (.fault .trailingCharacters)
  -- Behind the last field the array has to end.
  | [field], .element input => do
    let (draft, rest) ← draft.readField children field input
    return (draft, ← lift (closeArray rest))
  | field :: fields, .element input => do
    let (draft, rest) ← draft.readField children field input
    positional children draft fields (← lift (afterElement rest))

/-- The nodes of an array from one of them on, with those before it in `read` (last first). -/
def nodesWith (node : Reader Node) :
    Nat → List Node → Follow → Except DecodeError (List Node × Input)
  | _, read, .closed rest => .ok (read.reverse, rest)
  | 0, _, .element _ => .error (.fault (.ended .list))
  | fuel + 1, read, .element input => do
    let (n, rest) ← node input
    nodesWith node fuel (n :: read) (← lift (afterElement rest))

/-- An array of nodes. Without a reader for the nodes the array is nested too deep. -/
def nodes (fuel : Nat) (node : Option (Reader Node)) (input : Input) :
    Except DecodeError (List Node × Input) :=
  match skipBlanks input with
  | some '[' :: rest =>
    match node with
    | none => .error (.fault .tooDeep)
    | some node => do nodesWith node fuel [] (← lift (afterBracket rest))
  | input => .error (mismatch .sequence input)

/-- A node, given the reader for its children. Without one the node is nested too deep. -/
def nodeAbove (fuel : Nat) (children : Option (Reader (List Node))) (input : Input) :
    Except DecodeError (Node × Input) :=
  match skipBlanks input with
  | some '\x7b' :: rest =>
    match children with
    | none => .error (.fault .tooDeep)
    | some children => do
      let (draft, rest) ← members children fuel rest
      return (← draft.finish, rest)
  -- The fields of a node may also stand in an array, without their names.
  | some '[' :: rest =>
    match children with
    | none => .error (.fault .tooDeep)
    | some children => do
      match ← lift (afterBracket rest) with
      | .closed _ => throw .noFields
      | follow =>
        let (draft, rest) ← positional children {} Node.Field.all follow
        return (← draft.finish, rest)
  | input => .error (mismatch .node input)

/-- A node inside which `levels` objects and arrays may be open at once, itself included. -/
def node (fuel : Nat) : Nat → Reader Node
  | 0 => nodeAbove fuel none
  | 1 => nodeAbove fuel (some (nodes fuel none))
  | levels + 2 => nodeAbove fuel (some (nodes fuel (some (node fuel levels))))

/-- The number of objects and arrays that may be open at once. -/
def levelLimit : Nat := 127

/-- The document that an input spells; only blanks may follow it. -/
def document (input : Input) : Except DecodeError Node := do
  let (n, rest) ← node (input.length + 1) levelLimit input
  match skipBlanks rest with
  | [] => return n
  | _ => throw (.fault .trailingCharacters)

end Decode

namespace Node

/-- The document that a text spells. -/
def decode (text : String) : Except DecodeError Node := Decode.document (text.toList.map some)

/-- The document that a sequence of bytes spells. -/
def decodeBytes (bytes : List UInt8) : Except DecodeError Node :=
  Decode.document (Utf8.glyphs bytes)

end Node

end Bracketdown
