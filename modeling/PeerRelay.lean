import PeerRelay.Calendar.Civil
import PeerRelay.Calendar.Instant
import PeerRelay.Calendar.Lenient
import PeerRelay.Calendar.Reading
import PeerRelay.Calendar.Rfc3339
import PeerRelay.Daemon.Arguments
import PeerRelay.Daemon.Pipeline
import PeerRelay.Daemon.Run
import PeerRelay.Decimal.Shortest
import PeerRelay.Delivery.Basic
import PeerRelay.Delivery.Schedule
import PeerRelay.Delivery.Step
import PeerRelay.Dispatch
import PeerRelay.Event
import PeerRelay.Failure
import PeerRelay.Files
import PeerRelay.Instance
import PeerRelay.Json.Decode
import PeerRelay.Json.Number
import PeerRelay.Json.Reader
import PeerRelay.Json.Text
import PeerRelay.Json.Tree
import PeerRelay.Json.Value
import PeerRelay.Main
import PeerRelay.Message
import PeerRelay.Message.Json
import PeerRelay.Recovery.Handlers
import PeerRelay.Recovery.Request
import PeerRelay.Recovery.Window
import PeerRelay.Settings.Config
import PeerRelay.Settings.Logging
import PeerRelay.Settings.Paths
import PeerRelay.Settings.Storage
import PeerRelay.Settings.Validation
import PeerRelay.Store.Archive
import PeerRelay.Store.Basic
import PeerRelay.Store.Database
import PeerRelay.Store.Edit
import PeerRelay.Store.Migration
import PeerRelay.Store.Opening
import PeerRelay.Text.Base64
import PeerRelay.Text.Blank
import PeerRelay.Text.Digit
import PeerRelay.Text.Ordered
import PeerRelay.Text.Quoted
import PeerRelay.Text.Shown
import PeerRelay.Text.Utf8
import PeerRelay.Url
import PeerRelay.Url.Address
import PeerRelay.Url.Domain
import PeerRelay.Url.Punycode
import PeerRelay.Wire.Body
import PeerRelay.Wire.Endpoint
import PeerRelay.Proofs.Calendar.Accepted
import PeerRelay.Proofs.Calendar.Civil
import PeerRelay.Proofs.Calendar.DateText
import PeerRelay.Proofs.Calendar.Fields
import PeerRelay.Proofs.Calendar.LenientText
import PeerRelay.Proofs.Calendar.Years
import PeerRelay.Proofs.Daemon.Acts
import PeerRelay.Proofs.Daemon.Addressing
import PeerRelay.Proofs.Daemon.Broadcast
import PeerRelay.Proofs.Daemon.Handled
import PeerRelay.Proofs.Daemon.Requests
import PeerRelay.Proofs.Delivery.Acts
import PeerRelay.Proofs.Delivery.Conservation
import PeerRelay.Proofs.Delivery.Draining
import PeerRelay.Proofs.Delivery.Durability
import PeerRelay.Proofs.Delivery.Duties
import PeerRelay.Proofs.Delivery.Enqueuing
import PeerRelay.Proofs.Delivery.FirstAttempts
import PeerRelay.Proofs.Delivery.Forwarding
import PeerRelay.Proofs.Delivery.Moments
import PeerRelay.Proofs.Delivery.Order
import PeerRelay.Proofs.Delivery.Progress
import PeerRelay.Proofs.Delivery.Provenance
import PeerRelay.Proofs.Delivery.Reloading
import PeerRelay.Proofs.Delivery.Restarts
import PeerRelay.Proofs.Delivery.Retries
import PeerRelay.Proofs.Delivery.Rewriting
import PeerRelay.Proofs.Delivery.Runs
import PeerRelay.Proofs.Delivery.Schedule
import PeerRelay.Proofs.Delivery.Shutdown
import PeerRelay.Proofs.Delivery.Stopping
import PeerRelay.Proofs.Delivery.Submissions
import PeerRelay.Proofs.Delivery.Tickets
import PeerRelay.Proofs.Delivery.Tracking
import PeerRelay.Proofs.Delivery.Visits
import PeerRelay.Proofs.Delivery.WriteAhead
import PeerRelay.Proofs.Directory
import PeerRelay.Proofs.Dispatch
import PeerRelay.Proofs.Event
import PeerRelay.Proofs.Json.Decoding
import PeerRelay.Proofs.Json.Documents
import PeerRelay.Proofs.Json.Quoted
import PeerRelay.Proofs.Message.Cut
import PeerRelay.Proofs.Message.Json
import PeerRelay.Proofs.Outcome
import PeerRelay.Proofs.Recovery.Answers
import PeerRelay.Proofs.Recovery.Priorities
import PeerRelay.Proofs.Recovery.Registering
import PeerRelay.Proofs.Recovery.Selection
import PeerRelay.Proofs.Recovery.Serving
import PeerRelay.Proofs.Recovery.Windows
import PeerRelay.Proofs.RoundTrip
import PeerRelay.Proofs.Settings.Config
import PeerRelay.Proofs.Settings.Endpoints
import PeerRelay.Proofs.Settings.Soundness
import PeerRelay.Proofs.Store.Backlog
import PeerRelay.Proofs.Store.Consistency
import PeerRelay.Proofs.Store.Edited
import PeerRelay.Proofs.Store.Holdings
import PeerRelay.Proofs.Store.Loading
import PeerRelay.Proofs.Store.Operations
import PeerRelay.Proofs.Store.Refinement
import PeerRelay.Proofs.Store.Removals
import PeerRelay.Proofs.Store.Reopening
import PeerRelay.Proofs.Store.Restoring
import PeerRelay.Proofs.Store.Resuming
import PeerRelay.Proofs.Store.Targets
import PeerRelay.Proofs.Store.Transactions
import PeerRelay.Proofs.Text.Base64
import PeerRelay.Proofs.Text.Bytes
import PeerRelay.Proofs.Text.Digits
import PeerRelay.Proofs.Text.Ordered
import PeerRelay.Proofs.Wire.Body
import PeerRelay.Proofs.Wire.Passing
import PeerRelay.Proofs.Wire.Relaying
import PeerRelay.Proofs.Wire.Restarts
