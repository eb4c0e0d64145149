import Bracketdown.Main
import Bracketdown.CommandLine.Run
import Bracketdown.Node.Compose
import Bracketdown.Proofs.Json.Depth
import Bracketdown.Proofs.Json.ReadBack
import Bracketdown.Proofs.Node.Members
import Bracketdown.Proofs.Node.Storable
import Bracketdown.Proofs.Node.ReadBack
import Bracketdown.Proofs.Json.Wanted
import Bracketdown.Proofs.Json.ReadPast
import Bracketdown.Proofs.Node.Accepted
import Bracketdown.Proofs.Node.RoundTrip
import Bracketdown.Proofs.Event.Nesting
import Bracketdown.Proofs.Node.Joining
import Bracketdown.Proofs.Event.Builder
import Bracketdown.Proofs.Markup.Forest
import Bracketdown.Proofs.Event.Shape
import Bracketdown.Proofs.Text.Utf8
import Bracketdown.Proofs.CommandLine.Pipeline
import Bracketdown.Proofs.Markup.Warnings
import Bracketdown.Proofs.Event.Fragments
import Bracketdown.Proofs.Link.Scan
import Bracketdown.Proofs.Node.LeafText
import Bracketdown.Proofs.Event.Source
import Bracketdown.Proofs.Markup.Linking
import Bracketdown.Proofs.Markup.Context
import Bracketdown.Proofs.Link.Tail
import Bracketdown.Proofs.Link.Domain
import Bracketdown.Proofs.Link.Legal
import Bracketdown.Proofs.Link.Recognition
import Bracketdown.Proofs.Node.AcceptedDepth
import Bracketdown.Proofs.Event.Tightness
import Bracketdown.Proofs.Link.Partition
import Bracketdown.Proofs.Json.ReadSyntax
import Bracketdown.Proofs.Node.Meaning
import Bracketdown.Proofs.Node.ReadMeaning
import Bracketdown.Proofs.Node.Respelling
import Bracketdown.Proofs.Node.Complete
import Bracketdown.Proofs.Json.ReadOver
import Bracketdown.Proofs.Node.Linked
import Bracketdown.Proofs.Event.Caption
import Bracketdown.Proofs.Link.Cursor
import Bracketdown.Proofs.Link.Words
import Bracketdown.Proofs.Markup.Dispatch
import Bracketdown.Proofs.Event.Wrapping
import Bracketdown.Proofs.Markup.Lead
import Bracketdown.Proofs.Event.Html
import Bracketdown.Proofs.Event.Merging
import Bracketdown.Proofs.Event.Slicing
import Bracketdown.Proofs.Node.ContentModel
import Bracketdown.Proofs.Event.Matching
import Bracketdown.Proofs.CommandLine.AllOrNothing
