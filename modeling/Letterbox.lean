import Letterbox.Config.Basic
import Letterbox.Config.CommandLine
import Letterbox.Config.Launch
import Letterbox.Config.Reader
import Letterbox.Dispatch.Clockwork
import Letterbox.Dispatch.Dispatcher
import Letterbox.Dispatch.Errand
import Letterbox.Dispatch.Outcome
import Letterbox.Dispatch.Retention
import Letterbox.Dispatch.Retry
import Letterbox.Dispatch.Surroundings
import Letterbox.Event.Basic
import Letterbox.Event.Bus
import Letterbox.Event.Frame
import Letterbox.Event.Intake
import Letterbox.Event.Json
import Letterbox.Event.Link
import Letterbox.Failure
import Letterbox.Host.Ending
import Letterbox.Host.Program
import Letterbox.Host.Script
import Letterbox.Host.Shell
import Letterbox.Json.Fault
import Letterbox.Json.Node
import Letterbox.Json.Reader
import Letterbox.Json.Value
import Letterbox.Main
import Letterbox.Message.Body
import Letterbox.Message.Charset
import Letterbox.Message.Fields
import Letterbox.Message.Headers
import Letterbox.Message.Html
import Letterbox.Message.Part
import Letterbox.Message.QuotedPrintable
import Letterbox.Net.Address
import Letterbox.Net.Channel
import Letterbox.Net.Connection
import Letterbox.Net.Endpoint
import Letterbox.Net.Lines
import Letterbox.Net.Listener
import Letterbox.Net.Local
import Letterbox.Net.Recorder
import Letterbox.Pattern.Basic
import Letterbox.Pattern.Class
import Letterbox.Pattern.Syntax
import Letterbox.Program.Basic
import Letterbox.Program.Course
import Letterbox.Program.Deferred
import Letterbox.Program.Neighbourhood
import Letterbox.Rule.Arguments
import Letterbox.Rule.Basic
import Letterbox.Rule.File
import Letterbox.Rule.Json
import Letterbox.Rule.Match
import Letterbox.Rule.Retention
import Letterbox.Rule.Uuid
import Letterbox.Smtp.Command
import Letterbox.Smtp.DotStuffing
import Letterbox.Smtp.Envelope
import Letterbox.Smtp.Receiver
import Letterbox.Smtp.Reply
import Letterbox.Smtp.Sending
import Letterbox.Smtp.Session
import Letterbox.Store.Disk
import Letterbox.Store.Entry
import Letterbox.Store.Mailbox
import Letterbox.Store.Path
import Letterbox.Store.TextFile
import Letterbox.Text.Base64
import Letterbox.Text.Blank
import Letterbox.Text.Encoding
import Letterbox.Text.Numeral
import Letterbox.Text.Search
import Letterbox.Text.Utf8
import Letterbox.Toml.Reader
import Letterbox.Toml.Scalar
import Letterbox.Toml.Value
import Letterbox.Unicode.CaseFolding
import Letterbox.Unicode.Category
import Letterbox.Unicode.Script
import Letterbox.Unicode.Table
import Letterbox.Unicode.Word
import Letterbox.Proofs.Net.Reassembly
import Letterbox.Proofs.Smtp.Effects
import Letterbox.Proofs.Smtp.Transcript
import Letterbox.Proofs.Smtp.Provenance
import Letterbox.Proofs.Net.Dialogue
import Letterbox.Proofs.Smtp.Commands
import Letterbox.Proofs.Smtp.Parties
import Letterbox.Proofs.Smtp.DotStuffing
import Letterbox.Proofs.Smtp.Reception
import Letterbox.Proofs.Smtp.Replies
import Letterbox.Proofs.Smtp.Relay
import Letterbox.Proofs.Dispatch.Retry
import Letterbox.Proofs.Smtp.Acceptance
import Letterbox.Proofs.Net.Happenings
import Letterbox.Proofs.Net.Rows
import Letterbox.Proofs.Smtp.Invariant
import Letterbox.Proofs.Smtp.Residue
import Letterbox.Proofs.Smtp.Addresses
import Letterbox.Proofs.Smtp.CommandLines
import Letterbox.Proofs.Smtp.Envelopes
import Letterbox.Proofs.Smtp.EndOfData
import Letterbox.Proofs.Smtp.Progress
import Letterbox.Proofs.Smtp.Framing
import Letterbox.Proofs.Smtp.Lockstep
import Letterbox.Proofs.Text.Utf8
import Letterbox.Proofs.Json.Literals
import Letterbox.Proofs.Json.Written
import Letterbox.Proofs.Json.RoundTrip
import Letterbox.Proofs.Json.Records
import Letterbox.Proofs.Rule.Identifiers
import Letterbox.Proofs.Rule.RoundTrip
import Letterbox.Proofs.Event.RoundTrip
import Letterbox.Proofs.Event.Frames
import Letterbox.Proofs.Event.Intake
import Letterbox.Proofs.Dispatch.Steps
import Letterbox.Proofs.Dispatch.Snapshots
import Letterbox.Proofs.Dispatch.Courses
import Letterbox.Proofs.Dispatch.Outcomes
import Letterbox.Proofs.Dispatch.Independence
import Letterbox.Proofs.Event.History
import Letterbox.Proofs.Program.Wiring
import Letterbox.Proofs.Program.Forwarding
import Letterbox.Proofs.Smtp.Visits
import Letterbox.Proofs.Smtp.Listening
import Letterbox.Proofs.Program.Delivery
import Letterbox.Proofs.Dispatch.Validity
import Letterbox.Proofs.Event.Subscribers
import Letterbox.Proofs.Store.Traffic
import Letterbox.Proofs.Store.Refusal
import Letterbox.Proofs.Net.Acts
import Letterbox.Proofs.Net.Lifetime
import Letterbox.Proofs.Net.Interleaving
import Letterbox.Proofs.Net.Registry
import Letterbox.Proofs.Dispatch.Sweeping
import Letterbox.Proofs.Program.Farewell
import Letterbox.Proofs.Smtp.Atomicity
import Letterbox.Proofs.Smtp.Capture
import Letterbox.Proofs.Dispatch.Counting
import Letterbox.Proofs.Text.Resync
import Letterbox.Proofs.Message.HeaderLines
import Letterbox.Proofs.Message.Headers
import Letterbox.Proofs.Smtp.StrictLines
import Letterbox.Proofs.Message.Folding
import Letterbox.Proofs.Store.Containment
import Letterbox.Proofs.Dispatch.Unloaded
import Letterbox.Proofs.Dispatch.Retention
import Letterbox.Proofs.Store.Pruning
import Letterbox.Proofs.Dispatch.Expiry
import Letterbox.Proofs.Text.Numerals
import Letterbox.Proofs.Text.Words
import Letterbox.Proofs.Text.LetterCase
import Letterbox.Proofs.Smtp.Readback
import Letterbox.Proofs.Rule.Quoting
import Letterbox.Proofs.Smtp.PathLines
import Letterbox.Proofs.Smtp.SizeLimit
import Letterbox.Proofs.Smtp.Recasing
import Letterbox.Proofs.Text.WellFormed
import Letterbox.Proofs.Text.Linewise
import Letterbox.Proofs.Net.AddressText
import Letterbox.Proofs.Net.Endpoints
