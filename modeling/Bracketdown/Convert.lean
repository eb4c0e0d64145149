import Bracketdown.Markdown.Document
import Bracketdown.Markup.Writer

/-!
# From Markdown to bracket markup
-/

namespace Bracketdown

/-- A Markdown document as bracket markup. -/
def convert (options : Markdown.Options) (source : String) : String :=
  Markup.render (Markdown.parse options source)

end Bracketdown
