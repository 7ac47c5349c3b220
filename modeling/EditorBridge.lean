import EditorBridge.Adapter.Client
import EditorBridge.Adapter.Message
import EditorBridge.Adapter.Timed
import EditorBridge.CommandLine
import EditorBridge.Config
import EditorBridge.Debug.Configuration
import EditorBridge.Debug.Endpoint
import EditorBridge.Debug.Registry
import EditorBridge.Debug.Startup
import EditorBridge.Decimal.Binary64
import EditorBridge.Decimal.Shortest
import EditorBridge.Drill.Adapter
import EditorBridge.Drill.Calls
import EditorBridge.Drill.Configuration
import EditorBridge.Drill.Connection
import EditorBridge.Drill.Debugger
import EditorBridge.Drill.Extension
import EditorBridge.Drill.Language
import EditorBridge.Drill.Process
import EditorBridge.Drill.Record
import EditorBridge.Drill.Registry
import EditorBridge.Drill.Session
import EditorBridge.Drill.Step
import EditorBridge.Duration
import EditorBridge.Extension
import EditorBridge.Frame.Connection
import EditorBridge.Frame.Header
import EditorBridge.Frame.Reader
import EditorBridge.Glob.Expression
import EditorBridge.Glob.Nesting
import EditorBridge.Glob.Parser
import EditorBridge.Glob.Pattern
import EditorBridge.Host.Arithmetic
import EditorBridge.Host.Chunk
import EditorBridge.Host.Filter
import EditorBridge.Host.Formatting
import EditorBridge.Host.Shell
import EditorBridge.Host.Shell.Calls
import EditorBridge.Host.Shell.Commands
import EditorBridge.Host.Shell.Invocation
import EditorBridge.Host.Shell.Steps
import EditorBridge.Host.Shell.Words
import EditorBridge.Host.Syntax
import EditorBridge.Host.System
import EditorBridge.Host.Tree
import EditorBridge.Host.Wildcard
import EditorBridge.Json.Decode
import EditorBridge.Json.Document
import EditorBridge.Json.Parser
import EditorBridge.Json.Printer
import EditorBridge.Json.Schema
import EditorBridge.Json.Value
import EditorBridge.Keyed
import EditorBridge.Locator
import EditorBridge.LogConfig
import EditorBridge.Lsp.Capabilities
import EditorBridge.Lsp.Client
import EditorBridge.Lsp.Options
import EditorBridge.Lsp.Output
import EditorBridge.Lsp.Params
import EditorBridge.Main
import EditorBridge.Net.Address
import EditorBridge.Path.Basic
import EditorBridge.Path.Relative
import EditorBridge.Process.ErrorLines
import EditorBridge.Process.Manager
import EditorBridge.Proofs.Adapter.Correlation
import EditorBridge.Proofs.Adapter.Delivery
import EditorBridge.Proofs.Adapter.Encoding
import EditorBridge.Proofs.Adapter.Events
import EditorBridge.Proofs.Adapter.Exchange
import EditorBridge.Proofs.Adapter.Hearing
import EditorBridge.Proofs.Adapter.Holding
import EditorBridge.Proofs.Adapter.Numbering
import EditorBridge.Proofs.Adapter.Promises
import EditorBridge.Proofs.Adapter.Run
import EditorBridge.Proofs.Adapter.Texts
import EditorBridge.Proofs.Adapter.Verdict
import EditorBridge.Proofs.Config.Building
import EditorBridge.Proofs.Config.Fields
import EditorBridge.Proofs.Debug.Awaiting
import EditorBridge.Proofs.Debug.Initialized
import EditorBridge.Proofs.Debug.Listing
import EditorBridge.Proofs.Debug.Resolution
import EditorBridge.Proofs.Debug.Run
import EditorBridge.Proofs.Debug.Sparing
import EditorBridge.Proofs.Debug.Startup
import EditorBridge.Proofs.Extension.Activation
import EditorBridge.Proofs.Frame.Connection
import EditorBridge.Proofs.Frame.Cuts
import EditorBridge.Proofs.Frame.Delivery
import EditorBridge.Proofs.Frame.Encoding
import EditorBridge.Proofs.Frame.Grammar
import EditorBridge.Proofs.Frame.Headers
import EditorBridge.Proofs.Frame.InvalidBytes
import EditorBridge.Proofs.Frame.Outlook
import EditorBridge.Proofs.Frame.Outward
import EditorBridge.Proofs.Frame.Standing
import EditorBridge.Proofs.Json.Canonical
import EditorBridge.Proofs.Json.Decidable
import EditorBridge.Proofs.Json.Items
import EditorBridge.Proofs.Json.Printing
import EditorBridge.Proofs.Json.Reading
import EditorBridge.Proofs.Json.Record
import EditorBridge.Proofs.Json.Tokens
import EditorBridge.Proofs.Keyed
import EditorBridge.Proofs.Locator
import EditorBridge.Proofs.Lsp.Awaited
import EditorBridge.Proofs.Lsp.Client
import EditorBridge.Proofs.Lsp.FileEvents
import EditorBridge.Proofs.Lsp.FileUri
import EditorBridge.Proofs.Lsp.Output
import EditorBridge.Proofs.Messages
import EditorBridge.Proofs.Path.Components
import EditorBridge.Proofs.Path.Joined
import EditorBridge.Proofs.Process.Custody
import EditorBridge.Proofs.Process.Effects
import EditorBridge.Proofs.Process.ErrorLines
import EditorBridge.Proofs.Process.Generations
import EditorBridge.Proofs.Process.Hearing
import EditorBridge.Proofs.Process.Outlets
import EditorBridge.Proofs.Process.Signals
import EditorBridge.Proofs.Rpc.Correlation
import EditorBridge.Proofs.Rpc.Course
import EditorBridge.Proofs.Rpc.Encoding
import EditorBridge.Proofs.Rpc.Exchange
import EditorBridge.Proofs.Rpc.Flushing
import EditorBridge.Proofs.Rpc.Noise
import EditorBridge.Proofs.Rpc.Outward
import EditorBridge.Proofs.Rpc.Passage
import EditorBridge.Proofs.Rpc.Pending
import EditorBridge.Proofs.Rpc.Run
import EditorBridge.Proofs.Rpc.Sending
import EditorBridge.Proofs.Rpc.Settling
import EditorBridge.Proofs.Rpc.Texts
import EditorBridge.Proofs.Rpc.Uninterrupted
import EditorBridge.Proofs.Session.Answering
import EditorBridge.Proofs.Session.Calls
import EditorBridge.Proofs.Session.Failures
import EditorBridge.Proofs.Session.Farewell
import EditorBridge.Proofs.Session.Forwarding
import EditorBridge.Proofs.Session.Forwards
import EditorBridge.Proofs.Session.Lifecycle
import EditorBridge.Proofs.Session.Naming
import EditorBridge.Proofs.Session.Parting
import EditorBridge.Proofs.Session.Readiness
import EditorBridge.Proofs.Session.Returning
import EditorBridge.Proofs.Session.Run
import EditorBridge.Proofs.Session.Shifts
import EditorBridge.Proofs.Session.Slot
import EditorBridge.Proofs.Session.Sound
import EditorBridge.Proofs.Session.StaleExits
import EditorBridge.Proofs.Session.StaleTasks
import EditorBridge.Proofs.Session.Stopping
import EditorBridge.Proofs.Session.Traffic
import EditorBridge.Proofs.Session.Turns
import EditorBridge.Proofs.Session.Verdicts
import EditorBridge.Proofs.Session.WatchedFiles
import EditorBridge.Proofs.Settings.Sections
import EditorBridge.Proofs.Stream.Happening
import EditorBridge.Proofs.Text.Chunks
import EditorBridge.Proofs.Text.Lossy
import EditorBridge.Proofs.Text.Numerals
import EditorBridge.Proofs.Text.Pieces
import EditorBridge.Proofs.Text.Sequences
import EditorBridge.Proofs.Text.Utf8
import EditorBridge.Proofs.Text.WellFormed
import EditorBridge.Proofs.Uri.File
import EditorBridge.Proofs.Uri.Segments
import EditorBridge.Rehearsal.Bridge
import EditorBridge.Rehearsal.Debugger
import EditorBridge.Rehearsal.Language
import EditorBridge.Rehearsal.Peer
import EditorBridge.Rehearsal.Processes
import EditorBridge.Rehearsal.Server
import EditorBridge.Rpc.Client
import EditorBridge.Rpc.Message
import EditorBridge.Rpc.Timed
import EditorBridge.Session.Attempt
import EditorBridge.Session.Call
import EditorBridge.Session.Manager
import EditorBridge.Session.Status
import EditorBridge.Session.Traffic
import EditorBridge.Settings
import EditorBridge.Stream.Transport
import EditorBridge.Text.Accumulator
import EditorBridge.Text.Blank
import EditorBridge.Text.Digits
import EditorBridge.Text.Quoted
import EditorBridge.Text.Unprintable
import EditorBridge.Text.Utf8
import EditorBridge.Timeline
import EditorBridge.Uri.File
import EditorBridge.Uri.Reference
