import LiveBook.App.Application
import LiveBook.App.CommandLine
import LiveBook.App.Config
import LiveBook.App.Error
import LiveBook.App.Launch
import LiveBook.App.Log
import LiveBook.App.Performance
import LiveBook.App.Report
import LiveBook.Book.Basic
import LiveBook.Book.Display
import LiveBook.Book.Keeper
import LiveBook.Book.Pending
import LiveBook.Book.Side
import LiveBook.Book.Update
import LiveBook.Book.View
import LiveBook.Connection.Basic
import LiveBook.Connection.Config
import LiveBook.Connection.Dialect
import LiveBook.Connection.Heartbeat
import LiveBook.Connection.JsonDialect
import LiveBook.Connection.Registry
import LiveBook.Connection.Unreachable
import LiveBook.Decimal.Arithmetic
import LiveBook.Decimal.Basic
import LiveBook.Decimal.Parse
import LiveBook.Event.Basic
import LiveBook.Event.Codec
import LiveBook.Event.PerStream
import LiveBook.Feed.Basic
import LiveBook.Feed.Replay
import LiveBook.Feed.Session
import LiveBook.Feed.Source
import LiveBook.Jobs
import LiveBook.Json.Basic
import LiveBook.Json.Decode
import LiveBook.Json.Document
import LiveBook.LogFilter
import LiveBook.LogFormat
import LiveBook.LogRecord
import LiveBook.Main
import LiveBook.Market
import LiveBook.Metrics.Basic
import LiveBook.Metrics.Digest
import LiveBook.Metrics.Error
import LiveBook.Metrics.Export
import LiveBook.Metrics.Exposition
import LiveBook.Metrics.Latency
import LiveBook.Metrics.Rates
import LiveBook.Metrics.Tally
import LiveBook.Number.Notation
import LiveBook.Number.Power
import LiveBook.Number.Shortest
import LiveBook.Proofs.App.Performance
import LiveBook.Proofs.App.Schedule
import LiveBook.Proofs.Book.Buffers
import LiveBook.Proofs.Book.History
import LiveBook.Proofs.Book.Keeper
import LiveBook.Proofs.Book.Merging
import LiveBook.Proofs.Book.Placement
import LiveBook.Proofs.Book.Replacing
import LiveBook.Proofs.Book.Restoring
import LiveBook.Proofs.Book.Safety
import LiveBook.Proofs.Book.Sequences
import LiveBook.Proofs.Book.Shape
import LiveBook.Proofs.Book.Staleness
import LiveBook.Proofs.Book.StrictOrder
import LiveBook.Proofs.Book.Values
import LiveBook.Proofs.Book.Watermark
import LiveBook.Proofs.Connection.Attempts
import LiveBook.Proofs.Connection.KeepAlive
import LiveBook.Proofs.Connection.Presence
import LiveBook.Proofs.Connection.Requests
import LiveBook.Proofs.Connection.Subscriptions
import LiveBook.Proofs.Connection.Unreachable
import LiveBook.Proofs.Decimal.Value
import LiveBook.Proofs.Desk.Acts
import LiveBook.Proofs.Desk.Operations
import LiveBook.Proofs.Desk.Order
import LiveBook.Proofs.Desk.Outlook
import LiveBook.Proofs.Desk.Safety
import LiveBook.Proofs.Desk.Service
import LiveBook.Proofs.Desk.Staff
import LiveBook.Proofs.Desk.Turns
import LiveBook.Proofs.Event.RoundTrip
import LiveBook.Proofs.Feed.InitialBooks
import LiveBook.Proofs.Feed.Loading
import LiveBook.Proofs.Feed.Playing
import LiveBook.Proofs.Metrics.Store
import LiveBook.Proofs.Replay.Precedence
import LiveBook.Proofs.Source.Streams
import LiveBook.Proofs.Tracker.Accounting
import LiveBook.Proofs.Tracker.Acts
import LiveBook.Proofs.Tracker.Adding
import LiveBook.Proofs.Tracker.Draining
import LiveBook.Proofs.Tracker.Gate
import LiveBook.Proofs.Tracker.Lifetime
import LiveBook.Proofs.Tracker.Markets
import LiveBook.Proofs.Tracker.Order
import LiveBook.Proofs.Tracker.Pacing
import LiveBook.Proofs.Tracker.Prices
import LiveBook.Proofs.Tracker.Queue
import LiveBook.Proofs.Tracker.Reachable
import LiveBook.Proofs.Tracker.Refreshing
import LiveBook.Proofs.Tracker.Removing
import LiveBook.Proofs.Tracker.Restarting
import LiveBook.Proofs.Tracker.Separation
import LiveBook.Proofs.Tracker.Startup
import LiveBook.Proofs.Tracker.Stopping
import LiveBook.Proofs.Tracker.Tasks
import LiveBook.Proofs.Tracker.Upkeep
import LiveBook.Proofs.Tracker.Workers
import LiveBook.Ready
import LiveBook.Recent
import LiveBook.Rehearsal.Basic
import LiveBook.Rehearsal.Script
import LiveBook.Rehearsal.Session
import LiveBook.Source.Audience
import LiveBook.Source.Error
import LiveBook.Source.Fanout
import LiveBook.Table
import LiveBook.Text.Blank
import LiveBook.Text.Digits
import LiveBook.Text.Quoted
import LiveBook.Text.Visible
import LiveBook.Time.Calendar
import LiveBook.Time.Timestamp
import LiveBook.Toml.Reader
import LiveBook.Toml.Scalar
import LiveBook.Toml.Table
import LiveBook.Tracker.Basic
import LiveBook.Tracker.Config
import LiveBook.Tracker.Desk
import LiveBook.Tracker.Error
import LiveBook.Tracker.Lifecycle
import LiveBook.Tracker.Request
import LiveBook.Tracker.Routing
import LiveBook.Tracker.Run
import LiveBook.Tracker.Slot
import LiveBook.Tracker.Step
import LiveBook.Tracker.Tasks
