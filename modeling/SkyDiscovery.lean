import SkyDiscovery.Calendar.Day
import SkyDiscovery.Calendar.Instant
import SkyDiscovery.Calendar.Reader
import SkyDiscovery.Catalog.Reply
import SkyDiscovery.Catalog.Statement
import SkyDiscovery.Context
import SkyDiscovery.Cutout.Editor
import SkyDiscovery.Cutout.Keywords
import SkyDiscovery.Cutout.Program
import SkyDiscovery.Cutout.Request
import SkyDiscovery.Dictionary
import SkyDiscovery.Engine.Event
import SkyDiscovery.Engine.Expansion
import SkyDiscovery.Engine.Response
import SkyDiscovery.Engine.Run
import SkyDiscovery.Engine.Sink
import SkyDiscovery.Failure
import SkyDiscovery.Field.Descriptor
import SkyDiscovery.Field.Directory
import SkyDiscovery.Field.Standard
import SkyDiscovery.Json.Basic
import SkyDiscovery.Json.Reader
import SkyDiscovery.Json.Writer
import SkyDiscovery.Main
import SkyDiscovery.Number.Binary64
import SkyDiscovery.Number.Decimal
import SkyDiscovery.Number.Scalar
import SkyDiscovery.Number.Shortest
import SkyDiscovery.Number.Tolerance
import SkyDiscovery.Parameter.Declaration
import SkyDiscovery.Parameter.ParameterSet
import SkyDiscovery.Protocol
import SkyDiscovery.Query.CatalogQuery
import SkyDiscovery.Query.Condition
import SkyDiscovery.Query.Interval
import SkyDiscovery.Query.Refinement
import SkyDiscovery.Query.Region
import SkyDiscovery.Range.Basic
import SkyDiscovery.Range.Endpoint
import SkyDiscovery.Range.RangeList
import SkyDiscovery.Record.DatasetUrl
import SkyDiscovery.Record.Record
import SkyDiscovery.Record.Row
import SkyDiscovery.Record.Synthesis
import SkyDiscovery.Record.Variant
import SkyDiscovery.Sample.Collaborators
import SkyDiscovery.Sample.Contexts
import SkyDiscovery.Sample.Rows
import SkyDiscovery.Service.CommandLine
import SkyDiscovery.Service.Config
import SkyDiscovery.Service.ConfigNode
import SkyDiscovery.Service.ConfigReader
import SkyDiscovery.Service.ConfigText
import SkyDiscovery.Service.Document
import SkyDiscovery.Service.Request
import SkyDiscovery.Sky.Box
import SkyDiscovery.Sky.Frame
import SkyDiscovery.Sky.Longitude
import SkyDiscovery.Sky.Position
import SkyDiscovery.Table.Mapping
import SkyDiscovery.Text.Blank
import SkyDiscovery.Text.Case
import SkyDiscovery.Text.Digits
import SkyDiscovery.Text.FormEncoding
import SkyDiscovery.Text.Hexadecimal
import SkyDiscovery.Text.Split
import SkyDiscovery.Text.Utf8
import SkyDiscovery.Proofs.Engine.Limit
import SkyDiscovery.Proofs.Number.Numeral
import SkyDiscovery.Proofs.Sql.Expression
import SkyDiscovery.Proofs.Sql.Scan
import SkyDiscovery.Proofs.Text.Character
import SkyDiscovery.Proofs.Sql.Parser
import SkyDiscovery.Proofs.Query.Sound
import SkyDiscovery.Proofs.Query.Where
import SkyDiscovery.Proofs.Parameter.Agreement
import SkyDiscovery.Proofs.Query.Literals
import SkyDiscovery.Proofs.Number.Rounding
import SkyDiscovery.Proofs.Number.RoundTrip
import SkyDiscovery.Proofs.Calendar.Day
import SkyDiscovery.Proofs.Calendar.Reader
import SkyDiscovery.Proofs.Text.Split
import SkyDiscovery.Proofs.Text.Utf8
import SkyDiscovery.Proofs.Text.FormEncoding
import SkyDiscovery.Proofs.Calendar.RoundTrip
import SkyDiscovery.Proofs.Range.Order
import SkyDiscovery.Proofs.Range.Endpoint
import SkyDiscovery.Proofs.Range.Property
import SkyDiscovery.Proofs.Range.Readable
import SkyDiscovery.Proofs.Range.Echo
import SkyDiscovery.Proofs.Range.RoundTrip
import SkyDiscovery.Proofs.Number.Exact
import SkyDiscovery.Proofs.Sky.Longitude
import SkyDiscovery.Proofs.Sky.Separation
import SkyDiscovery.Proofs.Sky.Box
import SkyDiscovery.Proofs.Sky.Seam
import SkyDiscovery.Proofs.Query.Search
import SkyDiscovery.Proofs.Engine.Product
import SkyDiscovery.Proofs.Engine.Visit
import SkyDiscovery.Proofs.Engine.Ledger
import SkyDiscovery.Proofs.Engine.Isolation
import SkyDiscovery.Proofs.Engine.Origin
import SkyDiscovery.Proofs.Record.Variant
import SkyDiscovery.Proofs.Engine.Association
import SkyDiscovery.Proofs.Dictionary
import SkyDiscovery.Proofs.Field.Directory
import SkyDiscovery.Proofs.Field.Insertion
import SkyDiscovery.Proofs.Field.Verbosity
import SkyDiscovery.Proofs.Engine.Fields
import SkyDiscovery.Proofs.Engine.Overflow
import SkyDiscovery.Proofs.Engine.Mode
import SkyDiscovery.Proofs.Parameter.Outcome
import SkyDiscovery.Proofs.Range.Pieces
import SkyDiscovery.Proofs.Parameter.Keys
import SkyDiscovery.Proofs.Parameter.Rejection
import SkyDiscovery.Proofs.Parameter.Undeclared
import SkyDiscovery.Proofs.Engine.Undeclared
import SkyDiscovery.Proofs.Query.Identifier
import SkyDiscovery.Proofs.Engine.Identifier
import SkyDiscovery.Proofs.Engine.Session
import SkyDiscovery.Proofs.Engine.Refusal
import SkyDiscovery.Proofs.Service.Request
import SkyDiscovery.Proofs.Record.DatasetUrl
import SkyDiscovery.Proofs.Engine.Fault
import SkyDiscovery.Proofs.Range.Widening
import SkyDiscovery.Proofs.Query.Widening
import SkyDiscovery.Proofs.Range.Sort
import SkyDiscovery.Proofs.Range.Grammar
import SkyDiscovery.Proofs.Range.History
import SkyDiscovery.Proofs.Query.Overlap
import SkyDiscovery.Proofs.Range.Inference
import SkyDiscovery.Proofs.Number.Double
import SkyDiscovery.Proofs.Parameter.Kinds
import SkyDiscovery.Proofs.Query.Ordered
import SkyDiscovery.Proofs.Query.Limits
import SkyDiscovery.Proofs.Cutout.Editor
import SkyDiscovery.Proofs.Cutout.Keywords
import SkyDiscovery.Proofs.Record.Axes
import SkyDiscovery.Proofs.Sky.Circle
import SkyDiscovery.Proofs.Number.Nearest
import SkyDiscovery.Proofs.Number.Grammar
import SkyDiscovery.Proofs.Cutout.Values
