import FlowDiagram.CommandLine
import FlowDiagram.CommandLine.Arguments
import FlowDiagram.Compilation
import FlowDiagram.Compilation.Run
import FlowDiagram.Connection
import FlowDiagram.Decimal.Shortest
import FlowDiagram.Diagnostic
import FlowDiagram.Digest
import FlowDiagram.Dot
import FlowDiagram.Dot.Quoted
import FlowDiagram.Expansion
import FlowDiagram.FileFault
import FlowDiagram.Json
import FlowDiagram.Json.Fault
import FlowDiagram.Json.Forms
import FlowDiagram.Json.Lexeme
import FlowDiagram.Json.Numeral
import FlowDiagram.Json.Passing
import FlowDiagram.Json.Reading
import FlowDiagram.Json.Record
import FlowDiagram.Main
import FlowDiagram.Pass
import FlowDiagram.PortGraph
import FlowDiagram.PortGraph.Print
import FlowDiagram.Primitive
import FlowDiagram.Program
import FlowDiagram.Program.Diagnostics
import FlowDiagram.Program.Print
import FlowDiagram.Program.Read
import FlowDiagram.Proofs.Compilation.Fingerprint
import FlowDiagram.Proofs.Compilation.Outcome
import FlowDiagram.Proofs.Compilation.Spans
import FlowDiagram.Proofs.Compilation.Typing
import FlowDiagram.Proofs.Compilation.Unused
import FlowDiagram.Proofs.Dot.Balance
import FlowDiagram.Proofs.Dot.Blocks
import FlowDiagram.Proofs.Dot.Boxes
import FlowDiagram.Proofs.Dot.Clusters
import FlowDiagram.Proofs.Dot.Contents
import FlowDiagram.Proofs.Dot.Lines
import FlowDiagram.Proofs.Dot.Quoting
import FlowDiagram.Proofs.Dot.Reading
import FlowDiagram.Proofs.Dot.RoundTrip
import FlowDiagram.Proofs.Dot.Scanning
import FlowDiagram.Proofs.Expansion.Acyclic
import FlowDiagram.Proofs.Expansion.Branching
import FlowDiagram.Proofs.Expansion.Budget
import FlowDiagram.Proofs.Expansion.Calls
import FlowDiagram.Proofs.Expansion.Connected
import FlowDiagram.Proofs.Expansion.Deepening
import FlowDiagram.Proofs.Expansion.Edges
import FlowDiagram.Proofs.Expansion.Ending
import FlowDiagram.Proofs.Expansion.Feeding
import FlowDiagram.Proofs.Expansion.Incoming
import FlowDiagram.Proofs.Expansion.Introducing
import FlowDiagram.Proofs.Expansion.Limits
import FlowDiagram.Proofs.Expansion.Listing
import FlowDiagram.Proofs.Expansion.Naming
import FlowDiagram.Proofs.Expansion.Nested
import FlowDiagram.Proofs.Expansion.Parametric
import FlowDiagram.Proofs.Expansion.Paths
import FlowDiagram.Proofs.Expansion.Reachable
import FlowDiagram.Proofs.Expansion.Reaching
import FlowDiagram.Proofs.Expansion.Renaming
import FlowDiagram.Proofs.Expansion.Safety
import FlowDiagram.Proofs.Expansion.Symbols
import FlowDiagram.Proofs.Expansion.Truncation
import FlowDiagram.Proofs.Expansion.Unfolded
import FlowDiagram.Proofs.PortGraph.Building
import FlowDiagram.Proofs.PortGraph.Construction
import FlowDiagram.Proofs.PortGraph.Relabelling
import FlowDiagram.Proofs.PortGraph.Renumbering
import FlowDiagram.Proofs.PortGraph.Spans
import FlowDiagram.Proofs.Program.Expecting
import FlowDiagram.Proofs.Program.Grammar
import FlowDiagram.Proofs.Program.Layout
import FlowDiagram.Proofs.Program.Named
import FlowDiagram.Proofs.Program.Parts
import FlowDiagram.Proofs.Program.Places
import FlowDiagram.Proofs.Program.Prefixes
import FlowDiagram.Proofs.Program.Printing
import FlowDiagram.Proofs.Program.Reading
import FlowDiagram.Proofs.Program.RoundTrip
import FlowDiagram.Proofs.Program.Scanning
import FlowDiagram.Proofs.Program.Shifting
import FlowDiagram.Proofs.Program.Stages
import FlowDiagram.Proofs.Program.Written
import FlowDiagram.Proofs.Registry.Registering
import FlowDiagram.Proofs.Resolution.Placing
import FlowDiagram.Proofs.Resolution.Shapes
import FlowDiagram.Proofs.Resolution.Soundness
import FlowDiagram.Proofs.Resolution.Spans
import FlowDiagram.Proofs.Resolution.WellFormed
import FlowDiagram.Proofs.Service.Effects
import FlowDiagram.Proofs.Service.Headers
import FlowDiagram.Proofs.Service.History
import FlowDiagram.Proofs.Service.Identifiers
import FlowDiagram.Proofs.Service.Recency
import FlowDiagram.Proofs.Service.Retention
import FlowDiagram.Proofs.Service.Typing
import FlowDiagram.Proofs.Signature.Agenda
import FlowDiagram.Proofs.Signature.Closed
import FlowDiagram.Proofs.Signature.Confluence
import FlowDiagram.Proofs.Signature.Deepening
import FlowDiagram.Proofs.Signature.Exclusion
import FlowDiagram.Proofs.Signature.Fixpoint
import FlowDiagram.Proofs.Signature.Flow
import FlowDiagram.Proofs.Signature.Following
import FlowDiagram.Proofs.Signature.Inclusion
import FlowDiagram.Proofs.Signature.Inference
import FlowDiagram.Proofs.Signature.Lacking
import FlowDiagram.Proofs.Signature.Laws
import FlowDiagram.Proofs.Signature.Locality
import FlowDiagram.Proofs.Signature.Order
import FlowDiagram.Proofs.Signature.Renaming
import FlowDiagram.Proofs.Signature.Rules
import FlowDiagram.Proofs.Signature.Site
import FlowDiagram.Proofs.Signature.Spans
import FlowDiagram.Proofs.Signature.Wires
import FlowDiagram.Proofs.Symbol.Renumbering
import FlowDiagram.Proofs.Symbol.Replacing
import FlowDiagram.Proofs.Text.Joining
import FlowDiagram.Proofs.Text.Lines
import FlowDiagram.Proofs.Text.Order
import FlowDiagram.Proofs.Token.Division
import FlowDiagram.Proofs.Token.Windows
import FlowDiagram.Proofs.Unfolding.Altering
import FlowDiagram.Proofs.Unfolding.Deepening
import FlowDiagram.Proofs.Unfolding.Following
import FlowDiagram.Proofs.Unfolding.Limits
import FlowDiagram.Proofs.Unfolding.Listing
import FlowDiagram.Proofs.Unfolding.Moving
import FlowDiagram.Proofs.Unfolding.Nesting
import FlowDiagram.Proofs.Unfolding.Origins
import FlowDiagram.Proofs.Unfolding.Paths
import FlowDiagram.Proofs.Unfolding.Recurring
import FlowDiagram.Proofs.Unfolding.Renaming
import FlowDiagram.Proofs.Unfolding.Renewing
import FlowDiagram.Proofs.Unfolding.Run
import FlowDiagram.Proofs.Unfolding.Safety
import FlowDiagram.Proofs.Unfolding.Settling
import FlowDiagram.Proofs.Unfolding.Spans
import FlowDiagram.Proofs.Unfolding.Step
import FlowDiagram.RecentStore
import FlowDiagram.Registry
import FlowDiagram.Rendering
import FlowDiagram.Resolution
import FlowDiagram.Resolution.Body
import FlowDiagram.Resolution.Error
import FlowDiagram.Service
import FlowDiagram.Service.Error
import FlowDiagram.Service.Form
import FlowDiagram.Service.Message
import FlowDiagram.Settings
import FlowDiagram.Signature
import FlowDiagram.Signature.Inference
import FlowDiagram.Signature.Rules
import FlowDiagram.SocketAddress
import FlowDiagram.Symbol
import FlowDiagram.SymbolSet
import FlowDiagram.Text.Blank
import FlowDiagram.Text.Escaped
import FlowDiagram.Text.Joined
import FlowDiagram.Text.LineIndex
import FlowDiagram.Text.Numeral
import FlowDiagram.Text.Order
import FlowDiagram.Text.Span
import FlowDiagram.Text.Unprintable
import FlowDiagram.Text.Utf8
import FlowDiagram.Token
import FlowDiagram.Token.Scan
import FlowDiagram.Toml
import FlowDiagram.Toml.Table
import FlowDiagram.Toml.Text
import FlowDiagram.Unfolding
import FlowDiagram.Unfolding.Edges
import FlowDiagram.Uuid
import FlowDiagram.Web.Cookie
import FlowDiagram.Web.Percent
import FlowDiagram.Web.Target
