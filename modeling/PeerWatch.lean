import PeerWatch.Cli.Arguments
import PeerWatch.Cli.Failure
import PeerWatch.Cli.Program
import PeerWatch.Cli.Rehearsal
import PeerWatch.Client.Address
import PeerWatch.Client.Error
import PeerWatch.Client.Fetch
import PeerWatch.Client.Message
import PeerWatch.Client.Script
import PeerWatch.Config.Check
import PeerWatch.Config.Environment
import PeerWatch.Config.Error
import PeerWatch.Config.File
import PeerWatch.Config.Settings
import PeerWatch.Cue.MailSound
import PeerWatch.Cue.Notification
import PeerWatch.Cue.UnreadTitle
import PeerWatch.Directory.Lister
import PeerWatch.Directory.Listing
import PeerWatch.Directory.Resource
import PeerWatch.Json.Decode
import PeerWatch.Json.Number
import PeerWatch.Json.Raw
import PeerWatch.Json.Value
import PeerWatch.Log.Event
import PeerWatch.Log.Filter
import PeerWatch.Log.Level
import PeerWatch.Log.Line
import PeerWatch.Log.Settings
import PeerWatch.Log.ValuePattern
import PeerWatch.Main
import PeerWatch.Markup.Escape
import PeerWatch.Markup.Linkify
import PeerWatch.Metric.Catalogue
import PeerWatch.Metric.Tally
import PeerWatch.Navigation.Navigator
import PeerWatch.Number.ByteSize
import PeerWatch.Number.Magnitude
import PeerWatch.Number.Shortest
import PeerWatch.Poll.Cycle
import PeerWatch.Poll.Reply
import PeerWatch.Poll.Run
import PeerWatch.Presence.Alert
import PeerWatch.Presence.Contact
import PeerWatch.Presence.Entry
import PeerWatch.Presence.Roster
import PeerWatch.Presence.Watcher
import PeerWatch.Session.Assignment
import PeerWatch.Session.CookieJar
import PeerWatch.Session.User
import PeerWatch.Shutdown.Coordinator
import PeerWatch.Shutdown.Token
import PeerWatch.Text.Alphanumeric
import PeerWatch.Text.AlphanumericTable
import PeerWatch.Text.Blank
import PeerWatch.Text.Capitalize
import PeerWatch.Text.CaseTable
import PeerWatch.Text.Casing
import PeerWatch.Text.Hexadecimal
import PeerWatch.Text.Lossy
import PeerWatch.Text.Pattern
import PeerWatch.Text.Shown
import PeerWatch.Text.Slice
import PeerWatch.Text.UnprintableTable
import PeerWatch.Time.Calendar
import PeerWatch.Time.Span
import PeerWatch.Time.Timeline
import PeerWatch.Toml.Document
import PeerWatch.Toml.Lexical
import PeerWatch.Toml.Quote
import PeerWatch.Toml.Scalar
import PeerWatch.Toml.Value
import PeerWatch.Uri.Component
import PeerWatch.Uri.Location
import PeerWatch.Uri.Path
import PeerWatch.Proofs.Poll.Turn
import PeerWatch.Proofs.Poll.Contract
import PeerWatch.Proofs.Poll.Clock
import PeerWatch.Proofs.Poll.Pace
import PeerWatch.Proofs.Poll.Cancelled
import PeerWatch.Proofs.Presence.History
import PeerWatch.Proofs.Presence.Freshness
import PeerWatch.Proofs.Presence.InStep
import PeerWatch.Proofs.Presence.Order
import PeerWatch.Proofs.Presence.Schedule
import PeerWatch.Proofs.Presence.Watching
import PeerWatch.Proofs.Presence.ChangeLog
import PeerWatch.Proofs.Presence.Upkeep
import PeerWatch.Proofs.Session.Header
import PeerWatch.Proofs.Session.Login
import PeerWatch.Proofs.Time.Written
import PeerWatch.Proofs.Toml.Quoted
import PeerWatch.Proofs.Toml.Sections
import PeerWatch.Proofs.Config.Saved
import PeerWatch.Proofs.Shutdown.Interleaving
import PeerWatch.Proofs.Markup.Parts
import PeerWatch.Proofs.Markup.Quotes
import PeerWatch.Proofs.Json.Tokens
import PeerWatch.Proofs.Json.Written
import PeerWatch.Proofs.Presence.Report
import PeerWatch.Proofs.Text.Matching
import PeerWatch.Proofs.Text.Rewriting
import PeerWatch.Proofs.Markup.Address
import PeerWatch.Proofs.Markup.Element
import PeerWatch.Proofs.Markup.Linked
import PeerWatch.Proofs.Poll.Metered
import PeerWatch.Proofs.Markup.Nesting
import PeerWatch.Proofs.Client.BaseAddress
import PeerWatch.Proofs.Config.Sound
import PeerWatch.Proofs.Presence.News
import PeerWatch.Proofs.Presence.Repetition
import PeerWatch.Proofs.Directory.Recovered
import PeerWatch.Proofs.Json.Grammar
import PeerWatch.Proofs.Json.Accepted
import PeerWatch.Proofs.Presence.Reordering
import PeerWatch.Proofs.Text.Scanning
import PeerWatch.Proofs.Markup.Untouched
import PeerWatch.Proofs.Markup.Anchored
import PeerWatch.Proofs.Markup.Alternating
import PeerWatch.Proofs.Markup.WordList
import PeerWatch.Proofs.Directory.Rows
import PeerWatch.Proofs.Json.Fields
import PeerWatch.Proofs.Presence.Leniency
import PeerWatch.Proofs.Session.Edits
import PeerWatch.Proofs.Presence.Admission
import PeerWatch.Proofs.Presence.Counts
import PeerWatch.Proofs.Uri.Query
import PeerWatch.Proofs.Uri.Directories
import PeerWatch.Proofs.Client.Targets
import PeerWatch.Proofs.Config.Overrides
import PeerWatch.Proofs.Cue.Deliveries
import PeerWatch.Proofs.Text.Words
import PeerWatch.Proofs.Text.SmallLetters
import PeerWatch.Proofs.Text.Capitalized
import PeerWatch.Proofs.Session.Expiry
import PeerWatch.Proofs.Number.Rounding
import PeerWatch.Proofs.Number.Powers
import PeerWatch.Proofs.Number.Units
import PeerWatch.Proofs.Number.Logarithm
import PeerWatch.Proofs.Number.Numeral
import PeerWatch.Proofs.Number.Checked
import PeerWatch.Proofs.Number.ThreeDigits
import PeerWatch.Proofs.Number.DigitLimits
import PeerWatch.Proofs.Number.UnitLoop
