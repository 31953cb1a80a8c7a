import Sessions.Analysis
import Sessions.Check.Checker
import Sessions.Check.Diagnostic
import Sessions.Check.Exchange
import Sessions.Check.Report
import Sessions.Check.Walk
import Sessions.Command.Flag
import Sessions.Command.Names
import Sessions.Command.Run
import Sessions.Command.Subcommand
import Sessions.Correlation.Table
import Sessions.Datum
import Sessions.Decimal.Arithmetic
import Sessions.Decimal.Double
import Sessions.Decimal.Layout
import Sessions.Decimal.Shortest
import Sessions.Decimal.Word
import Sessions.Digest.Base64
import Sessions.Digest.Sha256
import Sessions.Document.Basic
import Sessions.Document.Constraint
import Sessions.Document.Fault
import Sessions.Document.Field
import Sessions.Document.Nodes
import Sessions.Document.Source
import Sessions.Document.Text
import Sessions.Document.Version
import Sessions.Expectation
import Sessions.Facts.Basic
import Sessions.Facts.Merge
import Sessions.Facts.PathSet
import Sessions.Files.Folder
import Sessions.Files.Name
import Sessions.Freshness.AllowList
import Sessions.Freshness.File
import Sessions.Freshness.Predicate
import Sessions.Graph.CallGraph
import Sessions.Graph.Dot
import Sessions.Graph.Mermaid
import Sessions.History.Archive
import Sessions.History.Record
import Sessions.History.Store
import Sessions.Json.Reader
import Sessions.Json.Writer
import Sessions.Main
import Sessions.Page.Outline
import Sessions.Page.Report
import Sessions.Page.Span
import Sessions.Page.Typography
import Sessions.Program.Activity
import Sessions.Program.Location
import Sessions.Program.Mode
import Sessions.Program.Node
import Sessions.Program.Path
import Sessions.Program.PathText
import Sessions.Schedule.Basic
import Sessions.Schedule.Field
import Sessions.Schedule.Next
import Sessions.Script.Builtin
import Sessions.Script.Grammar
import Sessions.Script.Pattern
import Sessions.Script.Run
import Sessions.Script.Syntax
import Sessions.Script.Token
import Sessions.Script.Value
import Sessions.Service.Basic
import Sessions.Service.Daemon
import Sessions.Service.Endpoint
import Sessions.Service.Handler
import Sessions.Service.Request
import Sessions.Service.Settings
import Sessions.Service.Start
import Sessions.Service.Watch
import Sessions.Text.Blank
import Sessions.Text.Bytes
import Sessions.Text.Entity
import Sessions.Text.Kind
import Sessions.Text.Lower
import Sessions.Text.Markup
import Sessions.Text.Printable
import Sessions.Text.Quoted
import Sessions.Text.Units
import Sessions.Time.Date
import Sessions.Time.Instant
import Sessions.Time.Timestamp
import Sessions.Web.Address
import Sessions.Web.Cookie
import Sessions.Web.MediaType
import Sessions.Web.Multipart
import Sessions.Yaml.Draft
import Sessions.Yaml.Node
import Sessions.Yaml.Reader
import Sessions.Yaml.Resolve
import Sessions.Yaml.Scanner
import Sessions.Yaml.Shape
import Sessions.Yaml.ToJson
import Sessions.Yaml.Token
import Sessions.Yaml.Writer
import Sessions.Proofs.Check.Accounted
import Sessions.Proofs.Check.Congruence
import Sessions.Proofs.Check.Define
import Sessions.Proofs.Check.Dispatch
import Sessions.Proofs.Check.Edit
import Sessions.Proofs.Check.Grouping
import Sessions.Proofs.Check.Growth
import Sessions.Proofs.Check.Initial
import Sessions.Proofs.Check.Neutral
import Sessions.Proofs.Check.Related
import Sessions.Proofs.Check.Replace
import Sessions.Proofs.Check.Soundness
import Sessions.Proofs.Check.Verdict
import Sessions.Proofs.Check.WellFormed
import Sessions.Proofs.Facts.Account
import Sessions.Proofs.Facts.Algebra
import Sessions.Proofs.Facts.Merge
import Sessions.Proofs.Facts.PathSet
import Sessions.Proofs.Program.Activity
import Sessions.Proofs.Program.Trace
import Sessions.Proofs.Check.Findings
import Sessions.Proofs.Check.Search
import Sessions.Proofs.Check.Ledger
import Sessions.Proofs.Check.Scan
import Sessions.Proofs.Check.Inline
import Sessions.Proofs.Check.Order
import Sessions.Proofs.Check.Grounds
import Sessions.Proofs.Check.Origin
import Sessions.Proofs.Check.Proper
import Sessions.Proofs.Check.Trust
import Sessions.Proofs.Check.Modes
import Sessions.Proofs.Facts.Sources
import Sessions.Proofs.Facts.Fresher
import Sessions.Proofs.Check.Needs
import Sessions.Proofs.Text.Order
import Sessions.Proofs.Text.Bytes
import Sessions.Proofs.Time.Order
import Sessions.Proofs.History.Shelf
import Sessions.Proofs.History.Runs
import Sessions.Proofs.Document.Reading
import Sessions.Proofs.Document.Grammar
import Sessions.Proofs.Document.Constants
import Sessions.Proofs.Document.Faithful
import Sessions.Proofs.Document.Acceptance
import Sessions.Proofs.Service.Answers
import Sessions.Proofs.Service.Requests
import Sessions.Proofs.Facts.Apart
import Sessions.Proofs.Facts.Handler
import Sessions.Proofs.Facts.Heap
import Sessions.Proofs.Facts.Parallel
import Sessions.Proofs.Check.Starter
import Sessions.Proofs.Check.Branching
import Sessions.Proofs.Program.PathGrammar
import Sessions.Proofs.Check.Unroll
import Sessions.Proofs.Program.Effect
import Sessions.Proofs.Check.Certain
import Sessions.Proofs.Facts.Stricter
import Sessions.Proofs.Check.Removal
import Sessions.Proofs.Program.PathKey
import Sessions.Proofs.Program.PathRoundTrip
import Sessions.Proofs.Correlation.Table
import Sessions.Proofs.Document.Reordering
import Sessions.Proofs.Text.Quoted
import Sessions.Proofs.Graph.CallGraph
import Sessions.Proofs.Graph.Renderers
import Sessions.Proofs.Graph.Labels
import Sessions.Proofs.Check.Uncorrelated
import Sessions.Proofs.Program.Inspection
import Sessions.Proofs.Program.Analysis
