import Kitchen.Bench.Queues
import Kitchen.Bench.Signals
import Kitchen.Bench.Stations
import Kitchen.Config.Datum
import Kitchen.Config.Environment
import Kitchen.Config.Folder
import Kitchen.Config.Format
import Kitchen.Config.Loading
import Kitchen.Config.Names
import Kitchen.Config.Path
import Kitchen.Config.Settings
import Kitchen.Config.Shape
import Kitchen.Config.Tree
import Kitchen.Encoding.Order
import Kitchen.Encoding.Record
import Kitchen.Encoding.Report
import Kitchen.Encoding.Settings
import Kitchen.Engine.Launch
import Kitchen.Engine.Rank
import Kitchen.Engine.State
import Kitchen.Engine.Step
import Kitchen.Error
import Kitchen.JobQueue
import Kitchen.Json.Basic
import Kitchen.Json.Datum
import Kitchen.Json.Reader
import Kitchen.Json.Real
import Kitchen.Log.Console
import Kitchen.Log.Event
import Kitchen.Log.Filter
import Kitchen.Number.Binary64
import Kitchen.Number.Numeral
import Kitchen.Number.Radix
import Kitchen.Number.Reading
import Kitchen.Number.Total
import Kitchen.Order
import Kitchen.Product
import Kitchen.Proofs.Awaiting
import Kitchen.Proofs.Backlog
import Kitchen.Proofs.Bracketing
import Kitchen.Proofs.Breakdowns
import Kitchen.Proofs.Buzzing
import Kitchen.Proofs.Bystanders
import Kitchen.Proofs.Closing
import Kitchen.Proofs.Collections
import Kitchen.Proofs.Collectors
import Kitchen.Proofs.Conservation
import Kitchen.Proofs.Counters
import Kitchen.Proofs.Custody
import Kitchen.Proofs.Deliveries
import Kitchen.Proofs.Descent
import Kitchen.Proofs.Drain
import Kitchen.Proofs.Forecast
import Kitchen.Proofs.Frames
import Kitchen.Proofs.Fulfilment
import Kitchen.Proofs.Gathering
import Kitchen.Proofs.Handover
import Kitchen.Proofs.Jobs
import Kitchen.Proofs.JsonText
import Kitchen.Proofs.Layers
import Kitchen.Proofs.Leaves
import Kitchen.Proofs.Ledger
import Kitchen.Proofs.Lines
import Kitchen.Proofs.Meals
import Kitchen.Proofs.Moves
import Kitchen.Proofs.Orders
import Kitchen.Proofs.Outcomes
import Kitchen.Proofs.Overtaking
import Kitchen.Proofs.Pagers
import Kitchen.Proofs.Pending
import Kitchen.Proofs.Popping
import Kitchen.Proofs.Products
import Kitchen.Proofs.Progress
import Kitchen.Proofs.Provenance
import Kitchen.Proofs.Queueing
import Kitchen.Proofs.Readings
import Kitchen.Proofs.Records
import Kitchen.Proofs.Refusals
import Kitchen.Proofs.Release
import Kitchen.Proofs.ReportsText
import Kitchen.Proofs.Resolutions
import Kitchen.Proofs.Serving
import Kitchen.Proofs.SettingsText
import Kitchen.Proofs.Shutting
import Kitchen.Proofs.Sleepers
import Kitchen.Proofs.Slots
import Kitchen.Proofs.Stock
import Kitchen.Proofs.Stranding
import Kitchen.Proofs.Strangers
import Kitchen.Proofs.Summaries
import Kitchen.Proofs.Tallies
import Kitchen.Proofs.Timeouts
import Kitchen.Proofs.Totals
import Kitchen.Proofs.Traces
import Kitchen.Proofs.Transitions
import Kitchen.Proofs.Trees
import Kitchen.Proofs.Turns
import Kitchen.Proofs.Verdicts
import Kitchen.Report
import Kitchen.Session.Script
import Kitchen.Session.Site
import Kitchen.Session.World
import Kitchen.Signal
import Kitchen.Station.Scripted
import Kitchen.Station.Simulated
import Kitchen.Table
import Kitchen.Text.Blank
import Kitchen.Text.Case
import Kitchen.Text.Quoted
import Kitchen.Text.Span
import Kitchen.Toml.Moment
import Kitchen.Toml.Node
import Kitchen.Toml.Number
import Kitchen.Toml.Reader
import Kitchen.Toml.Text
import Kitchen.Yaml.Block
import Kitchen.Yaml.Cursor
import Kitchen.Yaml.Document
import Kitchen.Yaml.Flow
import Kitchen.Yaml.Node
import Kitchen.Yaml.Scalar
