import TraitCatalog.Text.Basic
import TraitCatalog.Text.Blank
import TraitCatalog.Text.Lines
import TraitCatalog.Text.Codec
import TraitCatalog.Text.RangeTable
import TraitCatalog.Text.Digit
import TraitCatalog.Text.Letter
import TraitCatalog.Text.Hidden
import TraitCatalog.Text.LowerCase
import TraitCatalog.Text.Display
import TraitCatalog.Rounding
import TraitCatalog.OrderedMap
import TraitCatalog.Json.Quoted
import TraitCatalog.Json.ItemList
import TraitCatalog.Fault
import TraitCatalog.TraitPath
import TraitCatalog.DataFile.Basic
import TraitCatalog.DataFile.Writer
import TraitCatalog.DataFile.Reader
import TraitCatalog.Files.PathName
import TraitCatalog.Files.Tree
import TraitCatalog.Files.Pattern
import TraitCatalog.Files.Store
import TraitCatalog.Log.Event
import TraitCatalog.Log.Directive
import TraitCatalog.Log.Format
import TraitCatalog.Failure
import TraitCatalog.Registry.Plan
import TraitCatalog.Registry.Basic
import TraitCatalog.TraitIndex
import TraitCatalog.Loader
import TraitCatalog.Workshop
import TraitCatalog.Yaml.Cursor
import TraitCatalog.Yaml.Fault
import TraitCatalog.Yaml.Token
import TraitCatalog.Yaml.Lexeme
import TraitCatalog.Yaml.TokenStream
import TraitCatalog.Yaml.Moment
import TraitCatalog.Yaml.RealNumber
import TraitCatalog.Yaml.Number
import TraitCatalog.Yaml.Tag
import TraitCatalog.Yaml.Graph
import TraitCatalog.Yaml.Base64
import TraitCatalog.Yaml.Value
import TraitCatalog.Rules.Fence
import TraitCatalog.Rules.Basic
import TraitCatalog.Rules.Schema
import TraitCatalog.Rules.Load
import TraitCatalog.Json.Document
import TraitCatalog.Log.Settings
import TraitCatalog.Catalog
import TraitCatalog.Command.Arguments
import TraitCatalog.Command.Run
import TraitCatalog.Log.Stamp
import TraitCatalog.Main
import TraitCatalog.Proofs.Text.Cuts
import TraitCatalog.Proofs.Text.Order
import TraitCatalog.Proofs.Json.Literal
import TraitCatalog.Proofs.Json.StringList
import TraitCatalog.Proofs.Json.Overflow
import TraitCatalog.Proofs.DataFile.Grammar
import TraitCatalog.Proofs.DataFile.Verdict
import TraitCatalog.Proofs.DataFile.RoundTrip
import TraitCatalog.Proofs.Registry.Exec
import TraitCatalog.Proofs.Registry.Watch
import TraitCatalog.Proofs.Registry.Conservation
import TraitCatalog.Proofs.Registry.InstallTime
import TraitCatalog.Proofs.Registry.Routing
import TraitCatalog.Proofs.Text.Codec
import TraitCatalog.Proofs.TraitPath
import TraitCatalog.Proofs.Files.Tree
import TraitCatalog.Proofs.Files.Change
import TraitCatalog.Proofs.Files.Shelf
import TraitCatalog.Proofs.Files.Listing
import TraitCatalog.Proofs.Files.Resolve
import TraitCatalog.Proofs.Files.Containment
import TraitCatalog.Proofs.Files.WriteFrame
import TraitCatalog.Proofs.LoadOutcome
import TraitCatalog.Proofs.Loader
import TraitCatalog.Proofs.LoadAccount
import TraitCatalog.Proofs.StrictLoad
import TraitCatalog.Proofs.Catalog
import TraitCatalog.Proofs.TraitIndex
import TraitCatalog.Proofs.CatalogRun
import TraitCatalog.Proofs.TraitPlace
import TraitCatalog.Proofs.DataFile.FaultReport
import TraitCatalog.Proofs.Registry.Timeline
import TraitCatalog.Proofs.Registry.Transparency
import TraitCatalog.Proofs.DataFile.LineBreaks
import TraitCatalog.Proofs.LoadOrder
import TraitCatalog.Proofs.Files.Discovery
import TraitCatalog.Proofs.Registry.Reports
import TraitCatalog.Proofs.Files.FailedWrite
import TraitCatalog.Proofs.Files.Readable
import TraitCatalog.Proofs.Files.WriteRead
import TraitCatalog.Proofs.Text.Lines
import TraitCatalog.Proofs.Yaml.Cursor
import TraitCatalog.Proofs.Yaml.Lexeme
import TraitCatalog.Proofs.Yaml.TokenStream
import TraitCatalog.Proofs.Rules.Fence
import TraitCatalog.Proofs.Rules.Wrapped
import TraitCatalog.Proofs.Rules.Schema
import TraitCatalog.Proofs.Rules.Validation
import TraitCatalog.Proofs.Json.Document
import TraitCatalog.Proofs.Command.Answers
import TraitCatalog.Proofs.Yaml.Outcome.Basic
import TraitCatalog.Proofs.Yaml.Outcome.Lexeme
import TraitCatalog.Proofs.Yaml.Outcome.TokenStream
import TraitCatalog.Proofs.Yaml.Outcome.Scalar
import TraitCatalog.Proofs.Yaml.Outcome.Graph
import TraitCatalog.Proofs.Yaml.Outcome.Merging
import TraitCatalog.Proofs.Yaml.Outcome.Value
import TraitCatalog.Proofs.Yaml.Outcome.Exact
import TraitCatalog.Proofs.Rules.Outcome
