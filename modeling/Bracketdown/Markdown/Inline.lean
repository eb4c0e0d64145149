import Bracketdown.Markdown.Block
import Bracketdown.Markdown.Entity
import Bracketdown.Markdown.Options
import Bracketdown.Markdown.Span
import Bracketdown.Markdown.Target

/-!
# Running text

`Scan` reads the text of a paragraph, heading or cell from left to right. What binds closest is read
where it starts: escapes, code, addresses between angle brackets, HTML, character references. A
bracket only opens a level of its own; what it was is decided at the bracket that closes it: a link
or an image, if a target follows or the text between is the label of a definition, a reference to a
footnote, or two characters of text. Emphasis is settled last, within each link and in what is left
(`Emphasis.resolve`).
-/

namespace Bracketdown.Markdown

open Text (isAsciiPunctuation isLineBlank)

/-- What running text may refer to. -/
structure Notes where
  options : Options
  definitions : Definitions
  /-- What the labels of footnotes are compared by. -/
  footnotes : List (List Char)

/-- Whether a footnote is defined. -/
def Notes.hasFootnote (notes : Notes) (label : List Char) : Bool :=
  notes.footnotes.contains (Label.key label)

/-- A bracket that is open. -/
structure Bracket where
  isImage : Bool
  /-- Whether a link may start here; inside a link none does. -/
  isActive : Bool := true
  /-- The tokens before the bracket on its own level, the last one first. -/
  before : List Token
  /-- The text behind the bracket. -/
  source : List Char

/-- A text that has been read in part. -/
structure Scan where
  /-- The tokens of the innermost level, the last one first. -/
  tokens : List Token := []
  /-- The plain text behind the last token, the last character first. -/
  pending : List Char := []
  /-- The open brackets, the innermost first. -/
  brackets : List Bracket := []
  /-- What places the lines that are not yet reached in their containers. -/
  margins : List (List Char) := []
  /-- The character that was read last. -/
  last : Char := '\n'

namespace Scan

/-! ## Keeping what was read -/

/-- Plain text as a token. -/
def textToken (text : List Char) : Token := .settled [.text (String.ofList text)]

/-- Turns the plain text into a token. -/
def flush (scan : Scan) : Scan :=
  if scan.pending.isEmpty then scan
  else { scan with tokens := textToken scan.pending.reverse :: scan.tokens, pending := [] }

/-- Adds a character of plain text. -/
def addChar (c : Char) (scan : Scan) : Scan :=
  { scan with pending := c :: scan.pending, last := c }

/-- Adds a piece of plain text. -/
def addText (text : List Char) (scan : Scan) : Scan :=
  { scan with pending := text.reverse ++ scan.pending, last := text.getLast?.getD scan.last }

/-- Adds a token; `last` is the character it ends with. -/
def addToken (token : Token) (last : Char) (scan : Scan) : Scan :=
  let scan := scan.flush
  { scan with tokens := token :: scan.tokens, last := last }

/-- Adds an event. -/
def addEvent (event : Event) (last : Char) (scan : Scan) : Scan :=
  scan.addToken (.settled [event]) last

/-- Passes over the line ends of a piece of the source. -/
def pass (piece : List Char) (scan : Scan) : Scan :=
  { scan with margins := scan.margins.drop (piece.countP Label.isLineEnd) }

/-- A piece of the source as it stands in the document, with what places its lines in containers. -/
def withMargins : List (List Char) → List Char → List Char
  | margins, c :: s =>
    if Label.isLineEnd c then c :: (margins.headD [] ++ withMargins margins.tail s)
    else c :: withMargins margins s
  | _, [] => []

/-! ## Brackets -/

/-- The text of an opening bracket. -/
def Bracket.sign (bracket : Bracket) : List Char := if bracket.isImage then ['!', '['] else ['[']

/-- Opens a bracket. -/
def openBracket (isImage : Bool) (source : List Char) (scan : Scan) : Scan :=
  let scan := scan.flush
  { scan with
    tokens := [], last := '['
    brackets := { isImage, before := scan.tokens, source } :: scan.brackets }

/-- Takes an open bracket as text. -/
def asText (scan : Scan) (bracket : Bracket) : Scan :=
  { scan with tokens := scan.tokens ++ textToken (Bracket.sign bracket) :: bracket.before }

/-- Takes all open brackets as text. -/
def allAsText (scan : Scan) : Scan :=
  let scan := scan.flush
  { scan.brackets.foldl asText scan with brackets := [] }

/-- Closes a bracket as a link or an image. -/
def closeLink (bracket : Bracket) (outer : List Bracket) (url : List Char) (last : Char)
    (scan : Scan) : Scan :=
  let scan := scan.flush
  let url := String.ofList url
  let tag : Tag := if bracket.isImage then .image url else .link url
  let content := Emphasis.resolve scan.tokens.reverse
  -- No link holds another one, so the brackets around this one can be images only.
  let outer :=
    if bracket.isImage then outer
    else outer.map fun bracket => { bracket with isActive := bracket.isActive && bracket.isImage }
  { scan with
    tokens := .settled (.start tag :: content ++ [.stop tag.kind]) :: bracket.before
    brackets := outer, last := last }

/-- Closes a bracket as a reference to a footnote. Brackets around it are text. -/
def closeFootnote (bracket : Bracket) (outer : List Bracket) (label : List Char)
    (scan : Scan) : Scan :=
  let scan : Scan := { scan with tokens := bracket.before, pending := [], brackets := outer }
  let scan := if bracket.isImage then scan.addChar '!' else scan
  scan.allAsText.addEvent (.footnoteReference (String.ofList label)) ']'

/-- What a bracket turned out to be, with the source behind it. -/
inductive Closing where
  | link (url : List Char) (last : Char) (rest : List Char)
  | footnote (label : List Char)
  | text

/-- The label between a bracket and the source behind its closing bracket, if the text between is
one. -/
def ownLabel? (read : List Char → Option (List Char × List Char)) (bracket : Bracket)
    (rest : List Char) : Option (List Char) :=
  match read bracket.source with
  | some (label, behind) => if behind.length = rest.length then some label else none
  | none => none

/-- What a text between brackets is by its own label. `rest` is the source behind the closing
bracket, and `behind` the source behind the link that this may be. -/
def byOwnLabel (notes : Notes) (bracket : Bracket) (rest behind : List Char) : Closing :=
  match if notes.options.footnotes then ownLabel? Label.footnote? bracket rest else none with
  | some label => if notes.hasFootnote label then .footnote label else .text
  | none =>
    match (ownLabel? (Label.read? true) bracket rest).bind notes.definitions.url? with
    | some url => .link url ']' behind
    | none => .text

/-- What a text between brackets is by the label that follows on it, in brackets of its own; a
backslash in front of these is passed over. -/
def byLabel (notes : Notes) (bracket : Bracket) (rest : List Char) : Closing :=
  let follows := match rest with
    | '\\' :: '[' :: s => some s
    | '[' :: s => some s
    | _ => none
  match follows with
  | none => byOwnLabel notes bracket rest rest
  -- Empty brackets refer to the text in front of them.
  | some (']' :: behind) => byOwnLabel notes bracket rest behind
  | some s =>
    if notes.options.footnotes && (Label.footnote? s).isSome then byOwnLabel notes bracket rest rest
    else
      match Label.read? true s with
      | none => byOwnLabel notes bracket rest rest
      | some (label, behind) =>
        match notes.definitions.url? label with
        | some url => .link url ']' behind
        | none => .text

/-- What a text between brackets is. -/
def closing (notes : Notes) (bracket : Bracket) (rest : List Char) : Closing :=
  if !bracket.isActive then .text
  else
    match rest with
    | '(' :: s =>
      match Target.inline? s with
      | some (url, behind) => .link url ')' behind
      | none => byLabel notes bracket rest
    | _ => byLabel notes bracket rest

/-- Reads the source behind a closing bracket. -/
def readClosing (notes : Notes) (scan : Scan) (rest : List Char) : Scan × List Char :=
  match scan.brackets with
  | [] => (scan.addChar ']', rest)
  | bracket :: outer =>
    match closing notes bracket rest with
    | .link url last behind =>
      ((scan.closeLink bracket outer url last).pass
        (rest.take (rest.length - behind.length)), behind)
    | .footnote label => (scan.closeFootnote bracket outer label, rest)
    | .text => ((asText { scan.flush with brackets := outer } bracket).addChar ']', rest)

/-! ## Pieces that are read in one go -/

/-- Reads the source behind a backtick. Of an escaped run (`isEscaped`) the first backtick is text,
and the others may open a span of code. -/
def readCode (isEscaped : Bool) (scan : Scan) (s : List Char) : Scan × List Char :=
  let run := '\x60' :: s.takeWhile (· = '\x60')
  let rest := s.dropWhile (· = '\x60')
  let plain := if isEscaped then ['\x60'] else []
  let length := run.length - plain.length
  match if length = 0 then none else CodeSpan.read? length rest with
  | some (text, behind) =>
    let event := Event.code (String.ofList (CodeSpan.content text))
    (((scan.addText plain).addEvent event '\x60').pass text, behind)
  | none => (scan.addText run, rest)

/-- Reads the source behind an opening angle bracket. A backslash right behind it does not keep
HTML from being read. -/
def readAngle (scan : Scan) (s : List Char) : Scan × List Char :=
  let (skipped, inside) := match s with
    | '\\' :: c :: rest => if isAsciiPunctuation c then (['\\'], c :: rest) else ([], s)
    | _ => ([], s)
  match Autolink.read? inside with
  | some (url, behind) =>
    let tag := Tag.link (String.ofList url)
    let text := Event.text (String.ofList (skipped ++ url))
    (scan.addToken (.settled [.start tag, text, .stop tag.kind]) '>', behind)
  | none =>
    match Html.inline? inside with
    | some behind =>
      let piece := '<' :: s.take (s.length - behind.length)
      -- A tag gives its lines without what places them in containers, all else as it stands.
      let isTag := !(inside.head? = some '!' || inside.head? = some '?')
      let html := if isTag then piece else withMargins scan.margins piece
      ((scan.addEvent (.inlineHtml (String.ofList html)) '>').pass piece, behind)
    | none => (scan.addChar '<', s)

/-- Reads the source behind an ampersand. -/
def readReference (scan : Scan) (s : List Char) : Scan × List Char :=
  match Entity.reference? s with
  | some (text, behind) => (scan.addToken (textToken text) ';', behind)
  | none => (scan.addChar '&', s)

/-- Reads the source behind a sign of emphasis. -/
def readRun (scan : Scan) (sign : Char) (s : List Char) : Scan × List Char :=
  let run := Run.read sign scan.last s
  let rest := s.dropWhile (· = sign)
  if run.opens || run.closes then (scan.addToken (.run run) sign, rest)
  else (scan.addText (List.replicate run.length sign), rest)

/-- Takes a line break: the blanks around it go away. -/
def breakLine (token : Token) (ending : Char) (s : List Char) (scan : Scan) : Scan × List Char :=
  ((scan.addToken token '\n').pass [ending], s.dropWhile isLineBlank)

/-- Reads the source behind a line end. Two blanks in front of it break the line. -/
def readLineEnd (scan : Scan) (ending : Char) (s : List Char) : Scan × List Char :=
  let blanks := scan.pending.takeWhile isLineBlank
  let event := if 2 ≤ blanks.length then Event.hardBreak else .softBreak
  breakLine (.settled [event]) ending s
    { scan with pending := scan.pending.drop blanks.length }

/-- Reads the source behind a backslash. -/
def readBackslash (scan : Scan) : List Char → Scan × List Char
  | [] => (scan.addChar '\\', [])
  | c :: s =>
    if c = '\x60' then scan.readCode true s
    else if isAsciiPunctuation c then (scan.addChar c, s)
    else if Label.isLineEnd c then breakLine .lineBreak c s scan
    else (scan.addChar '\\', c :: s)

/-- Whether a character is a sign of emphasis. -/
def isSign (options : Options) (c : Char) : Bool :=
  c = '*' || c = '_' || (c = '~' && options.strikethrough)

/-- Reads the source behind its first character. -/
def read (notes : Notes) (scan : Scan) (c : Char) (s : List Char) : Scan × List Char :=
  match c with
  | '\\' => scan.readBackslash s
  | '\x60' => scan.readCode false s
  | '<' => scan.readAngle s
  | '&' => scan.readReference s
  | '[' => (scan.openBracket false s, s)
  | ']' => scan.readClosing notes s
  | '!' =>
    match s with
    | '[' :: rest => (scan.openBracket true rest, rest)
    | _ => (scan.addChar '!', s)
  | _ =>
    if Label.isLineEnd c then scan.readLineEnd c s
    else if isSign notes.options c then scan.readRun c s
    else (scan.addChar c, s)

/-- Reads a source. Each step takes a character at least, so their number is fuel enough. -/
def readAll (notes : Notes) : Nat → Scan → List Char → Scan
  | fuel + 1, scan, c :: s =>
    let (scan, rest) := scan.read notes c s
    readAll notes fuel scan rest
  | _, scan, _ => scan

/-- Takes the blanks at the end away. Where they count, those without any text in front still go. -/
def trimEnd (keepsBlanks : Bool) (scan : Scan) : Scan :=
  let text := scan.pending.dropWhile isLineBlank
  if keepsBlanks && !text.isEmpty then scan else { scan with pending := text }

end Scan

/-- The events of a passage. -/
def Passage.events (notes : Notes) (passage : Passage) : List Event :=
  let start : Scan := { margins := passage.margins }
  let scan := Scan.readAll notes passage.text.length start passage.text
  Emphasis.resolve (scan.trimEnd passage.keepsBlanks).allAsText.tokens.reverse

end Bracketdown.Markdown
