import Bracketdown.Text.Blank

/-!
# Raw HTML

Where HTML stands in a document, it is passed on as it is written. Two questions are answered here:

* how far one piece of HTML reaches that stands in running text (`inline?`): a tag, a comment, a
  processing instruction, a declaration or a CDATA section;
* whether a line starts a block of HTML (`block?`), and how such a block ends: at a line that
  holds a given text, or at the next blank line.

Nothing is checked beyond the outer form: tags need not match, nor names be known.
-/

namespace Bracketdown.Markdown.Html

open Text (isAsciiBlank isLineBlank)

/-- The text behind another one at its start, none if it does not start so. -/
def behind? : List Char → List Char → Option (List Char)
  | [], s => some s
  | c :: cs, d :: s => if c = d then behind? cs s else none
  | _ :: _, [] => none

/-- The text behind the first place where another one stands. -/
def behindFirst? (mark : List Char) : List Char → Option (List Char)
  | [] => behind? mark []
  | c :: s =>
    match behind? mark (c :: s) with
    | some rest => some rest
    | none => behindFirst? mark s

/-- The text behind a run of blanks and line ends. -/
def skipBlanks (s : List Char) : List Char := s.dropWhile isAsciiBlank

/-- Whether a character may stand in the name of a tag. -/
def isTagChar (c : Char) : Bool := c.isAlphanum || c = '-'

/-- Whether a character may start the name of an attribute. -/
def startsAttribute (c : Char) : Bool := c.isAlpha || c = '_' || c = ':'

/-- Whether a character may stand in the name of an attribute. -/
def isAttributeChar (c : Char) : Bool :=
  c.isAlphanum || c = '_' || c = '.' || c = ':' || c = '-'

/-- Whether a character may stand in the value of an attribute that is not quoted. -/
def isValueChar (c : Char) : Bool :=
  !(c = '\'' || c = '"' || c = ' ' || c = '=' || c = '>' || c = '<' || c = '\x60'
    || c = '\n' || c = '\r')

/-- The text behind the value of an attribute. -/
def value? : List Char → Option (List Char)
  | [] => none
  | c :: s =>
    if c = '"' ∨ c = '\'' then
      match s.dropWhile (· ≠ c) with
      | _ :: rest => some rest
      | [] => none
    else if isValueChar c then some (s.dropWhile isValueChar)
    else none

/-- The text behind an attribute: its name, and perhaps a value. -/
def attribute? : List Char → Option (List Char)
  | [] => none
  | c :: s =>
    if startsAttribute c then
      let rest := s.dropWhile isAttributeChar
      match skipBlanks rest with
      | '=' :: written => value? (skipBlanks written)
      | _ => some rest
    else none

/-- The text behind the attributes of a tag and the bracket that closes it. Each attribute takes a
character, so the number of characters is fuel enough. -/
def attributes? : Nat → List Char → Option (List Char)
  | 0, _ => none
  | fuel + 1, s =>
    match s, skipBlanks s with
    | _, '>' :: rest => some rest
    | _, '/' :: '>' :: rest => some rest
    | c :: _, rest => if isAsciiBlank c then (attribute? rest).bind (attributes? fuel) else none
    | [], _ => none

/-- The text behind a tag, from behind its opening bracket on. -/
def tag? : List Char → Option (List Char)
  | '/' :: c :: s =>
    if c.isAlpha then
      match (s.dropWhile isTagChar).dropWhile isLineBlank with
      | '>' :: rest => some rest
      | _ => none
    else none
  | c :: s =>
    if c.isAlpha then
      let rest := s.dropWhile isTagChar
      attributes? (rest.length + 1) rest
    else none
  | [] => none

/-- The text behind a comment, from behind its first hyphen on. -/
def comment? (s : List Char) : Option (List Char) :=
  match s, s.dropWhile (· = '-') with
  | '-' :: _, '>' :: rest => some rest
  | '-' :: _, rest => behindFirst? ['-', '-', '>'] rest
  | _, _ => none

/-- The text behind a CDATA section, from behind its opening on: the first run of closing brackets
has to end it. -/
def cdata? (s : List Char) : Option (List Char) :=
  match (s.dropWhile (· ≠ ']')).dropWhile (· = ']') with
  | '>' :: rest => some rest
  | _ => none

/-- The opening of a CDATA section, behind its `<!`. -/
def cdataMark : List Char := "[CDATA[".toList

/-- The text behind the piece of HTML that a text starts with, less its opening bracket. -/
def inline? : List Char → Option (List Char)
  | '?' :: s => behindFirst? ['?', '>'] s
  | '!' :: '-' :: s => comment? s
  | '!' :: c :: s =>
    if c.isAlpha then behindFirst? ['>'] s else (behind? cdataMark (c :: s)).bind cdata?
  | s => tag? s

/-- How a block of HTML ends. -/
inductive BlockEnd where
  /-- With the first line that holds this text. -/
  | mark (text : List Char)
  /-- Before the next blank line. -/
  | blank
  deriving Repr, DecidableEq

/-- Elements whose content is not markup. A block that opens one ends where it is closed. -/
def rawNames : List String := ["pre", "style", "script", "textarea"]

/-- Elements that always start a block. -/
def blockNames : List String :=
  ["address", "article", "aside", "base", "basefont", "blockquote", "body", "caption", "center",
   "col", "colgroup", "dd", "details", "dialog", "dir", "div", "dl", "dt", "fieldset",
   "figcaption", "figure", "footer", "form", "frame", "frameset", "h1", "h2", "h3", "h4", "h5",
   "h6", "head", "header", "hr", "html", "iframe", "legend", "li", "link", "main", "menu",
   "menuitem", "nav", "noframes", "ol", "optgroup", "option", "p", "param", "search", "section",
   "summary", "table", "tbody", "td", "tfoot", "th", "thead", "title", "tr", "track", "ul"]

/-- A name in lower case. -/
def lower (name : List Char) : String := String.ofList (name.map Char.toLower)

/-- The mark that ends the block of a raw element. -/
def rawEnd? (s : List Char) : Option (List Char) :=
  let name := s.takeWhile Char.isAlpha
  let follows := match s.drop name.length with
    | [] => true
    | c :: _ => isAsciiBlank c || c = '>'
  if follows && rawNames.contains (lower name) then
    some ('<' :: '/' :: (lower name).toList ++ ['>'])
  else none

/-- The mark that ends the block of a comment, an instruction, a CDATA section or a declaration. -/
def specialEnd? : List Char → Option (List Char)
  | '?' :: _ => some ['?', '>']
  | '!' :: s =>
    match s with
    | '-' :: '-' :: _ => some ['-', '-', '>']
    | c :: _ =>
      if c.isAlpha then some ['>']
      else (behind? cdataMark s).map fun _ => [']', ']', '>']
    | [] => none
  | _ => none

/-- Whether the tag of an element that starts a block stands here. -/
def startsBlockElement (s : List Char) : Bool :=
  let s := match s with
    | '/' :: rest => rest
    | _ => s
  let name := s.takeWhile Char.isAlphanum
  let follows := match s.drop name.length with
    | [] => true
    | '/' :: '>' :: _ => true
    | c :: _ => c = ' ' || c = '\t' || c = '>'
  follows && blockNames.contains (lower name)

/-- The end of the block of HTML that a line starts, less its opening bracket, if it starts one that
may stand behind a paragraph without a blank line. -/
def interrupting? (s : List Char) : Option BlockEnd :=
  match (rawEnd? s).or (specialEnd? s) with
  | some mark => some (.mark mark)
  | none => if startsBlockElement s then some .blank else none

/-- The end of the block of HTML that a line starts, less its opening bracket. One tag alone on a
line starts a block too. -/
def block? (s : List Char) : Option BlockEnd :=
  match interrupting? s with
  | some stop => some stop
  | none =>
    match tag? s with
    | some rest => if rest.all isLineBlank then some .blank else none
    | none => none

end Bracketdown.Markdown.Html
