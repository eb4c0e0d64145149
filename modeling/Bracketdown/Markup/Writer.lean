import Bracketdown.Node.Basic

/-!
# Writing bracket markup

The writer renders a document as text with tags in brackets. Every kind with a constructor has a
fixed rendering. A node of another kind falls back to its value or, lacking one, to its children,
and is reported by a `Warning`, one for each such node that is rendered, in document order.

Two rules look at more than one node. The children of a root are parted by an empty line. A block
quote is rendered into a page of its own first: if that text starts with the spoiler mark, an
exclamation mark and a blank, the quote is a spoiler and the mark is dropped.

Text and warnings are gathered in a `Page` that is handed from node to node.
-/

namespace Bracketdown

/-- A report about something that the markup cannot express. -/
inductive Warning where
  /-- The markup has no rendering for nodes of this kind. -/
  | unsupported (kind : String)
  deriving Repr, DecidableEq

namespace Warning

/-- The kind of node that a warning is about. -/
def kind : Warning → String
  | .unsupported kind => kind

/-- The wording of a warning. -/
def message : Warning → String
  | .unsupported kind => "Unhandled node type: " ++ kind

end Warning

namespace Markup

/-- What has been written so far. -/
structure Page where
  text : String := ""
  warnings : List Warning := []
  deriving Repr, DecidableEq

namespace Page

/-- The page with more text. -/
def write (page : Page) (text : String) : Page := { page with text := page.text ++ text }

/-- The page with one more warning. -/
def warn (page : Page) (warning : Warning) : Page :=
  { page with warnings := page.warnings ++ [warning] }

end Page

/-- An opening tag. -/
def openTag (name : String) : String := "[" ++ name ++ "]"

/-- A closing tag. -/
def closeTag (name : String) : String := "[/" ++ name ++ "]"

/-- The tag of a heading. -/
def headingTag (depth : UInt8) : String := "h" ++ toString depth.toNat

/-- The tag of a list. -/
def listTag (ordered : Bool) : String := if ordered then "olist" else "list"

/-- The mark before a list item, which has no closing tag. -/
def itemMark : String := "[*]"

/-- What parts the blocks of a document. -/
def blockSeparator : String := "\n\n"

/-- The text of a quote without the spoiler mark, if it starts with one. -/
def hidden? (inner : String) : Option String :=
  match inner.toList with
  | '!' :: ' ' :: rest => some (String.ofList rest)
  | _ => none

/-- A block quote around text that is already rendered. -/
def quoted (inner : String) : String :=
  match hidden? inner with
  | some hidden => openTag "spoiler" ++ hidden ++ closeTag "spoiler"
  | none => openTag "quote" ++ inner ++ closeTag "quote"

mutual

/-- The page with a node written at its end. -/
def Page.node (page : Page) : Node → Page
  | .root [] => page
  | .root (first :: rest) => (page.node first).blocks rest
  | .paragraph cs => page.nodes cs
  | .heading depth cs =>
    ((page.write (openTag (headingTag depth))).nodes cs).write (closeTag (headingTag depth))
  | .text value => page.write value
  | .list ordered _ cs =>
    ((page.write (openTag (listTag ordered))).nodes cs).write (closeTag (listTag ordered))
  | .listItem _ cs => (page.write itemMark).nodes cs
  | .link url cs => ((page.write (openTag ("url=" ++ url))).nodes cs).write (closeTag "url")
  | .image url _ => page.write (openTag "img" ++ url ++ closeTag "img")
  | .strong cs => ((page.write (openTag "b")).nodes cs).write (closeTag "b")
  | .emphasis cs => ((page.write (openTag "i")).nodes cs).write (closeTag "i")
  | .blockquote cs =>
    let inner := ({ warnings := page.warnings } : Page).nodes cs
    { text := page.text ++ quoted inner.text, warnings := inner.warnings }
  | .delete cs => ((page.write (openTag "strike")).nodes cs).write (closeTag "strike")
  | .inlineCode value => page.write (openTag "b" ++ value ++ closeTag "b")
  | .code value _ => page.write (openTag "code" ++ value ++ closeTag "code")
  | .other kind (some value) _ => (page.warn (.unsupported kind)).write value
  | .other kind none (some cs) => (page.warn (.unsupported kind)).nodes cs
  | .other kind none none => page.warn (.unsupported kind)

/-- The page with nodes written at its end one after the other. -/
def Page.nodes (page : Page) : List Node → Page
  | [] => page
  | node :: rest => (page.node node).nodes rest

/-- The page with further blocks of a document, each behind a separator. -/
def Page.blocks (page : Page) : List Node → Page
  | [] => page
  | node :: rest => ((page.write blockSeparator).node node).blocks rest

end

/-- The rendering of a document and the warnings about it. -/
def emit (node : Node) : Page := ({} : Page).node node

/-- The rendering of a document. -/
def render (node : Node) : String := (emit node).text

end Markup

end Bracketdown
