import PushKeeper.Broadcast.Audience
import PushKeeper.Broadcast.Bus
import PushKeeper.Daemon.Arguments
import PushKeeper.Daemon.Run
import PushKeeper.Daemon.Services
import PushKeeper.Daemon.Session
import PushKeeper.Decimal.Binary64
import PushKeeper.Decimal.Places
import PushKeeper.Decimal.Shortest
import PushKeeper.Failure
import PushKeeper.Feed.Event
import PushKeeper.Feed.Request
import PushKeeper.Feed.Transport
import PushKeeper.Fetch.Delivery
import PushKeeper.Fetch.Job
import PushKeeper.Fetch.Policy
import PushKeeper.Fetch.Strategy
import PushKeeper.Files.Change
import PushKeeper.Files.Path
import PushKeeper.Files.Tree
import PushKeeper.Hook.Command
import PushKeeper.Hook.FetchService
import PushKeeper.Hook.Relay
import PushKeeper.Json.Fault
import PushKeeper.Json.Number
import PushKeeper.Json.Printer
import PushKeeper.Json.Reader
import PushKeeper.Json.Text
import PushKeeper.Json.Value
import PushKeeper.Main
import PushKeeper.Proofs.Broadcast.Reception
import PushKeeper.Proofs.Daemon.Input
import PushKeeper.Proofs.Daemon.Run
import PushKeeper.Proofs.Daemon.Shape
import PushKeeper.Proofs.Daemon.Shutdown
import PushKeeper.Proofs.Daemon.Told
import PushKeeper.Proofs.Feed.Lines
import PushKeeper.Proofs.Feed.Members
import PushKeeper.Proofs.Feed.Requests
import PushKeeper.Proofs.Fetch.Attempts
import PushKeeper.Proofs.Fetch.Cooldown
import PushKeeper.Proofs.Files.Beside
import PushKeeper.Proofs.Files.Parents
import PushKeeper.Proofs.Files.Places
import PushKeeper.Proofs.Files.Ways
import PushKeeper.Proofs.Json.Grammar
import PushKeeper.Proofs.Json.Numbers
import PushKeeper.Proofs.Json.Printed
import PushKeeper.Proofs.Json.Strings
import PushKeeper.Proofs.Receiver.AirGap
import PushKeeper.Proofs.Receiver.Alerts
import PushKeeper.Proofs.Receiver.Atomicity
import PushKeeper.Proofs.Receiver.Causes
import PushKeeper.Proofs.Receiver.Coalescing
import PushKeeper.Proofs.Receiver.Conduct
import PushKeeper.Proofs.Receiver.Discarded
import PushKeeper.Proofs.Receiver.Displacement
import PushKeeper.Proofs.Receiver.Faults
import PushKeeper.Proofs.Receiver.Fetches
import PushKeeper.Proofs.Receiver.Mode
import PushKeeper.Proofs.Receiver.Observers
import PushKeeper.Proofs.Receiver.Publications
import PushKeeper.Proofs.Receiver.Registered
import PushKeeper.Proofs.Receiver.Repetition
import PushKeeper.Proofs.Receiver.Settling
import PushKeeper.Proofs.Receiver.Silence
import PushKeeper.Proofs.Receiver.Table
import PushKeeper.Proofs.Receiver.Tasks
import PushKeeper.Proofs.Receiver.Writers
import PushKeeper.Proofs.Settings.Overlay
import PushKeeper.Proofs.Store.Corruption
import PushKeeper.Proofs.Store.Creation
import PushKeeper.Proofs.Store.Durability
import PushKeeper.Proofs.Store.Exclusion
import PushKeeper.Proofs.Store.Filing
import PushKeeper.Proofs.Store.Honest
import PushKeeper.Proofs.Store.Members
import PushKeeper.Proofs.Store.Numerals
import PushKeeper.Proofs.Store.Opening
import PushKeeper.Proofs.Store.Operations
import PushKeeper.Proofs.Store.Refinement
import PushKeeper.Proofs.Store.RoundTrip
import PushKeeper.Proofs.Toml.Documents
import PushKeeper.Proofs.Worker.Accounts
import PushKeeper.Proofs.Worker.Closing
import PushKeeper.Proofs.Worker.Endings
import PushKeeper.Proofs.Worker.Labels
import PushKeeper.Proofs.Worker.LatestWins
import PushKeeper.Receiver.Basic
import PushKeeper.Receiver.Diagnostics
import PushKeeper.Receiver.Intake
import PushKeeper.Receiver.Registration
import PushKeeper.Receiver.Work
import PushKeeper.Registration.Snapshot
import PushKeeper.Registration.Status
import PushKeeper.Rehearsal.Cast
import PushKeeper.Rehearsal.Script
import PushKeeper.Rehearsal.Stage
import PushKeeper.Settings.Basic
import PushKeeper.Settings.File
import PushKeeper.Settings.Reader
import PushKeeper.Shell.Arithmetic
import PushKeeper.Shell.Builtin.Basic
import PushKeeper.Shell.Builtin.Names
import PushKeeper.Shell.Builtin.Places
import PushKeeper.Shell.Builtin.Signals
import PushKeeper.Shell.Builtin.Switches
import PushKeeper.Shell.Builtin.Variables
import PushKeeper.Shell.Bytes
import PushKeeper.Shell.Call
import PushKeeper.Shell.Condition
import PushKeeper.Shell.Expansion
import PushKeeper.Shell.Field
import PushKeeper.Shell.Glob
import PushKeeper.Shell.Grammar
import PushKeeper.Shell.Image
import PushKeeper.Shell.Launch
import PushKeeper.Shell.Output
import PushKeeper.Shell.Pattern
import PushKeeper.Shell.Process
import PushKeeper.Shell.Reading
import PushKeeper.Shell.Redirection
import PushKeeper.Shell.Run
import PushKeeper.Shell.Session
import PushKeeper.Shell.Startup
import PushKeeper.Shell.Syntax
import PushKeeper.Shell.System
import PushKeeper.Shell.Tools
import PushKeeper.Shell.Tools.Basic
import PushKeeper.Shell.Tools.Calculation
import PushKeeper.Shell.Tools.Dump
import PushKeeper.Shell.Tools.Editing
import PushKeeper.Shell.Tools.Editing.Machine
import PushKeeper.Shell.Tools.Editing.Order
import PushKeeper.Shell.Tools.Editing.Reader
import PushKeeper.Shell.Tools.Files
import PushKeeper.Shell.Tools.Form
import PushKeeper.Shell.Tools.Lines
import PushKeeper.Shell.Tools.Quoted
import PushKeeper.Shell.Tools.Search
import PushKeeper.Shell.Tools.Sorting
import PushKeeper.Shell.Tools.Starters
import PushKeeper.Shell.Word
import PushKeeper.Store.Access
import PushKeeper.Store.Entries
import PushKeeper.Store.File
import PushKeeper.Store.Values
import PushKeeper.Text.Blank
import PushKeeper.Text.Numeral
import PushKeeper.Text.Printable
import PushKeeper.Text.Quoted
import PushKeeper.Text.Utf8
import PushKeeper.Toml.Document
import PushKeeper.Toml.Number
import PushKeeper.Toml.Table
import PushKeeper.Toml.Text
import PushKeeper.Toml.Value
import PushKeeper.Worker.Attendance
import PushKeeper.Worker.Basic
