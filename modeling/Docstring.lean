import Docstring.Text.Layout
import Docstring.Text.Word
import Docstring.Text.Quoted
import Docstring.OrderedMap
import Docstring.Dialect
import Docstring.Document
import Docstring.Outline
import Docstring.Merge
import Docstring.Registry
import Docstring.Hierarchy.Inherit
import Docstring.Json.Parser
import Docstring.Json.Printer
import Docstring.Hierarchy.Descriptor
import Docstring.Log.Filter
import Docstring.Files.Glob
import Docstring.Command.Run
import Docstring.Main
import Docstring.Proofs.Survival
import Docstring.Proofs.Canonical
import Docstring.Proofs.Overlaid
import Docstring.Proofs.Lookup
import Docstring.Proofs.Lineage
import Docstring.Proofs.Registration
import Docstring.Proofs.Presence
import Docstring.Proofs.Indentation
import Docstring.Proofs.Signature
import Docstring.Proofs.Untouched
import Docstring.Proofs.ReadBack
import Docstring.Proofs.Descriptors
import Docstring.Proofs.Printed
import Docstring.Proofs.Locations
import Docstring.Proofs.Delivered
import Docstring.Proofs.Scanned
import Docstring.Proofs.FrontMatter
import Docstring.Proofs.Spans
import Docstring.Proofs.Spacing
import Docstring.Proofs.Resolution
import Docstring.Proofs.Slots
import Docstring.Proofs.Encoded
import Docstring.Proofs.Collected
import Docstring.Proofs.Layered
import Docstring.Proofs.Margins
