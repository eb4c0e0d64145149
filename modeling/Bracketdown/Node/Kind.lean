/-!
# The kind names of document nodes

Every node of a document has a kind, written as one word: the kinds of the mdast vocabulary that
the tree models with a constructor of their own (`Kind.dedicated`), and any other word for a node
that only carries its kind, a value and children. A node of the second sort must not borrow a
dedicated name, since its written form would then be read as the first sort.
-/

namespace Bracketdown.Kind

/-- The kinds that have a constructor of their own. -/
def dedicated : List String :=
  ["root", "paragraph", "heading", "text", "list", "listItem", "link", "image", "strong",
    "emphasis", "blockquote", "delete", "inlineCode", "code"]

/-- Whether `name` is a kind with a constructor of its own. -/
def isDedicated (name : String) : Bool := dedicated.contains name

/-! ## Kinds that the reader produces without a constructor of their own -/

/-- A line break inside a paragraph. -/
def hardBreak : String := "break"

/-- A rule between blocks. -/
def thematicBreak : String := "thematicBreak"

/-- HTML kept as it was written, a block or a single tag. -/
def html : String := "html"

/-- A table, holding rows. -/
def table : String := "table"

/-- A row of a table, holding cells; the header is the first row. -/
def tableRow : String := "tableRow"

/-- A cell of a table row. -/
def tableCell : String := "tableCell"

/-- A mark that points to a footnote. -/
def footnoteReference : String := "footnoteReference"

/-- The text of a footnote. -/
def footnoteDefinition : String := "footnoteDefinition"

/-- A formula inside a paragraph. -/
def inlineMath : String := "inlineMath"

/-- A displayed formula. -/
def math : String := "math"

/-- Front matter in YAML. -/
def yaml : String := "yaml"

/-- Front matter in TOML. -/
def toml : String := "toml"

/-- A list of terms with descriptions. -/
def definitionList : String := "definitionList"

/-- A term of a definition list. -/
def definitionTerm : String := "definitionTerm"

/-- A description in a definition list. -/
def definitionDescription : String := "definitionDescription"

end Bracketdown.Kind
