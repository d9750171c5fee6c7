import Stencil.Cache
import Stencil.Cli.Failure
import Stencil.Cli.Files
import Stencil.Cli.Invocation
import Stencil.Cli.Rendering
import Stencil.Cli.Report
import Stencil.Cli.Run
import Stencil.Component.Basic
import Stencil.Component.Store
import Stencil.Config
import Stencil.Config.Reader
import Stencil.Decimal.Double
import Stencil.Decimal.Shortest
import Stencil.Digest.Sha256
import Stencil.Engine
import Stencil.Error
import Stencil.Json.Basic
import Stencil.Json.Reader
import Stencil.Json.Token
import Stencil.Json.Writer
import Stencil.KeyMap
import Stencil.KeySet
import Stencil.Lru
import Stencil.Main
import Stencil.Node.Basic
import Stencil.Node.Directive
import Stencil.Node.Document
import Stencil.Node.Parser
import Stencil.Node.Place
import Stencil.Node.Token
import Stencil.Program
import Stencil.Render
import Stencil.Text.Blank
import Stencil.Text.Entity
import Stencil.Text.Position
import Stencil.Toml.Reader
import Stencil.Toml.Table
import Stencil.Value
import Stencil.Proofs.Visible
import Stencil.Proofs.Copying
import Stencil.Proofs.ClosedWorld
import Stencil.Proofs.Cut
import Stencil.Proofs.Grammar
import Stencil.Proofs.Reading
import Stencil.Proofs.Fingerprint
import Stencil.Proofs.Creating
import Stencil.Proofs.World
import Stencil.Proofs.Transparency
import Stencil.Proofs.Strictness
import Stencil.Proofs.Dependence
import Stencil.Proofs.Extraction
import Stencil.Proofs.Escaping
import Stencil.Proofs.Printing
import Stencil.Proofs.Balance
import Stencil.Proofs.OpenBlocks
import Stencil.Proofs.FirstFault
import Stencil.Proofs.History
import Stencil.Proofs.Lifecycle
import Stencil.Proofs.Freshness
import Stencil.Proofs.Ceiling
import Stencil.Proofs.Embedding
import Stencil.Proofs.Recency
import Stencil.Proofs.Spelling
import Stencil.Proofs.Documents
import Stencil.Proofs.TreeRoundTrip
import Stencil.Proofs.UnknownKinds
import Stencil.Proofs.CompactText
import Stencil.Proofs.DataRoundTrip
import Stencil.Proofs.Overlay
import Stencil.Proofs.WithoutData
import Stencil.Proofs.SourceLines
import Stencil.Proofs.ErrorPlace
import Stencil.Proofs.Caret
import Stencil.Proofs.Failures
import Stencil.Proofs.FreeKeys
import Stencil.Proofs.Leftmost
import Stencil.Proofs.Requests
import Stencil.Proofs.Interchange
import Stencil.Proofs.CompiledFiles
import Stencil.Proofs.Partials
import Stencil.Proofs.Commands
import Stencil.Proofs.Passes
