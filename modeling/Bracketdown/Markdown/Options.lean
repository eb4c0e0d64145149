/-!
# What the Markdown reader understands

CommonMark is always understood. `Options` says which extensions are read as well; the default is
the set that GitHub reads, and front matter has to be asked for.
-/

namespace Bracketdown.Markdown

/-- The extensions of the reader. -/
structure Options where
  /-- Tables written with pipes. -/
  tables : Bool := true
  /-- Text struck through between tildes. -/
  strikethrough : Bool := true
  /-- Boxes at the start of list items. -/
  taskLists : Bool := true
  /-- References to footnotes, and their definitions. -/
  footnotes : Bool := true
  /-- Addresses that link without any markup. -/
  autolinks : Bool := true
  /-- Front matter in YAML or TOML between marker lines. -/
  frontMatter : Bool := false
  deriving Repr, DecidableEq

/-- CommonMark alone. -/
def Options.commonMark : Options := ⟨false, false, false, false, false, false⟩

end Bracketdown.Markdown
