import ProductSegments.Number.Literal
import ProductSegments.Number.Layout
import ProductSegments.Number.Scaling
import ProductSegments.Json.Reader
import ProductSegments.Json.Skip
import ProductSegments.Json.Record
import ProductSegments.Json.Writer
import ProductSegments.Calendar.Date
import ProductSegments.Calendar.Instant
import ProductSegments.Calendar.Timestamp
import ProductSegments.Product.Basic
import ProductSegments.Product.Document
import ProductSegments.Rule.Basic
import ProductSegments.Rule.Condition
import ProductSegments.Segment
import ProductSegments.Catalog.Backoff
import ProductSegments.Catalog.Cache
import ProductSegments.Catalog.Worker
import ProductSegments.Catalog.ProductList
import ProductSegments.Service.Evaluation
import ProductSegments.Service.Route
import ProductSegments.Web.RequestId
import ProductSegments.Service.World
import ProductSegments.Service.Schedule
import ProductSegments.Text.Alphanumeric
import ProductSegments.Text.Scan
import ProductSegments.Settings.DotEnv
import ProductSegments.Settings.Value
import ProductSegments.Settings.Toml
import ProductSegments.Settings.Basic
import ProductSegments.Settings.Path
import ProductSegments.Settings.Document
import ProductSegments.Json.Value
import ProductSegments.Text.Comment
import ProductSegments.Settings.Ini
import ProductSegments.Settings.Json5
import ProductSegments.Settings.Ron
import ProductSegments.Settings.Yaml.Scalar
import ProductSegments.Settings.Yaml.Document
import ProductSegments.Settings.Load
import ProductSegments.Web.Percent
import ProductSegments.Web.Url
import ProductSegments.Catalog.Price
import ProductSegments.Catalog.Shop
import ProductSegments.Catalog.Source
import ProductSegments.Web.Cors
import ProductSegments.Web.Uri
import ProductSegments.Web.HostAddress
import ProductSegments.Number.Radix
import ProductSegments.Service.Launch
import ProductSegments.Proofs.Segment.Selection
import ProductSegments.Proofs.Service.Progress
import ProductSegments.Proofs.Service.Snapshot
import ProductSegments.Proofs.Service.Coalescing
import ProductSegments.Proofs.Service.ColdReads
import ProductSegments.Proofs.Service.Freshness
import ProductSegments.Proofs.Catalog.Attempts
import ProductSegments.Proofs.Service.ColdFailure
import ProductSegments.Proofs.Metrics
import ProductSegments.Proofs.Service.Request
import ProductSegments.Proofs.Service.Tracing
import ProductSegments.Proofs.Service.Evaluation
import ProductSegments.Proofs.Service.Transparency
import ProductSegments.Proofs.Catalog.Redaction
import ProductSegments.Proofs.Service.Secrecy
import ProductSegments.Proofs.Service.Sent
import ProductSegments.Proofs.Number.Grid
import ProductSegments.Proofs.Number.Nearest
import ProductSegments.Proofs.Number.Numeral
import ProductSegments.Proofs.Number.Rounding
import ProductSegments.Proofs.Text
import ProductSegments.Proofs.Number.Whole
import ProductSegments.Proofs.Number.Literal
import ProductSegments.Proofs.Number.Shortest
import ProductSegments.Proofs.Number.Spelling
import ProductSegments.Proofs.Number.Layout
import ProductSegments.Proofs.Number.RoundTrip
import ProductSegments.Proofs.Number.Fewest
import ProductSegments.Proofs.Number.Standard
import ProductSegments.Proofs.Segment.WrittenPrice
import ProductSegments.Proofs.Text.Spacing
import ProductSegments.Proofs.Rule.Reading
import ProductSegments.Proofs.Segment.Algebra
import ProductSegments.Proofs.Service.Muted
import ProductSegments.Proofs.Service.WorkerProgress
import ProductSegments.Proofs.Service.Timetable
import ProductSegments.Proofs.Service.Shutdown
import ProductSegments.Proofs.Segment.Trace
import ProductSegments.Proofs.Catalog.Exchange
import ProductSegments.Proofs.Text.Utf8
import ProductSegments.Proofs.Json.Reading
import ProductSegments.Proofs.Number.Scaling
import ProductSegments.Proofs.Json.Number
import ProductSegments.Proofs.Json.Yield
import ProductSegments.Proofs.Calendar.Timestamp
import ProductSegments.Proofs.Catalog.ProductList
import ProductSegments.Proofs.Settings.Value
import ProductSegments.Proofs.Settings.Overlay
import ProductSegments.Proofs.Settings.Leaf
import ProductSegments.Proofs.Settings.Variables
import ProductSegments.Proofs.Settings.Layers
import ProductSegments.Proofs.Settings.Precedence
import ProductSegments.Proofs.Service.Accounting
import ProductSegments.Proofs.Service.Labels
import ProductSegments.Proofs.Service.Origins
import ProductSegments.Proofs.Rule.Strictness
import ProductSegments.Proofs.Rule.Comparison
import ProductSegments.Proofs.Rule.Absence
import ProductSegments.Proofs.Number.Integer
import ProductSegments.Proofs.Rule.Stock
import ProductSegments.Proofs.Segment.Partition
import ProductSegments.Proofs.Number.Longest
import ProductSegments.Proofs.Rule.TextValue
import ProductSegments.Proofs.Catalog.Price
import ProductSegments.Proofs.Number.Power
import ProductSegments.Proofs.Catalog.Backoff
import ProductSegments.Proofs.Json.Grammar
import ProductSegments.Proofs.Json.Strings
import ProductSegments.Proofs.Json.Locality
import ProductSegments.Proofs.Json.Survival
import ProductSegments.Proofs.Json.Containers
import ProductSegments.Proofs.Json.Skipping
import ProductSegments.Proofs.Json.Members
import ProductSegments.Proofs.Product.Record
import ProductSegments.Proofs.Service.Acceptance
import ProductSegments.Proofs.Catalog.Refusal
import ProductSegments.Proofs.Catalog.ShopProducts
import ProductSegments.Proofs.Settings.Guessing
import ProductSegments.Proofs.Settings.Delivery
import ProductSegments.Proofs.Rule.Operands
import ProductSegments.Proofs.Service.Identity
