import Switchboard.Text.Quoted
import Switchboard.Text.Blank
import Switchboard.Text.Utf8
import Switchboard.Chat.Codec
import Switchboard.Chat.Routing
import Switchboard.Redaction
import Switchboard.Auth.Strategy
import Switchboard.Auth.TokenStore
import Switchboard.Tools.Frame
import Switchboard.Tools.Message
import Switchboard.Tools.Rehearsal
import Switchboard.Client.Report
import Switchboard.Cli.Program
import Switchboard.Config.Load
import Switchboard.Log.Filter
import Switchboard.Main
import Switchboard.Proofs.Client.Settlement
import Switchboard.Proofs.Client.Retry
import Switchboard.Proofs.Client.Delivery
import Switchboard.Proofs.Tools.Wire
import Switchboard.Proofs.Tools.Framing
import Switchboard.Proofs.Tools.Correlation
import Switchboard.Proofs.Client.Cancellation
import Switchboard.Proofs.Client.Admission
import Switchboard.Proofs.Client.Slots
import Switchboard.Proofs.Client.Pacing
import Switchboard.Proofs.Client.FirstDelta
import Switchboard.Proofs.Redaction.Credential
import Switchboard.Proofs.Redaction.Scan
import Switchboard.Proofs.Redaction.Concealment
import Switchboard.Proofs.Redaction.Stability
import Switchboard.Proofs.Redaction.Redundancy
import Switchboard.Proofs.Tools.Outcome
import Switchboard.Proofs.Tools.Shutdown
import Switchboard.Proofs.Auth.TokenHistory
import Switchboard.Proofs.Chat.Routed
import Switchboard.Proofs.Client.Identity
import Switchboard.Proofs.Json.Leaf
import Switchboard.Proofs.Json.Text
import Switchboard.Proofs.Json.Record
import Switchboard.Proofs.Chat.ReadBack
import Switchboard.Proofs.Config.Segments
import Switchboard.Proofs.Toml.Exchange
import Switchboard.Proofs.Toml.Scan
import Switchboard.Proofs.Toml.Value
import Switchboard.Proofs.Toml.Place
import Switchboard.Proofs.Toml.Inside
import Switchboard.Proofs.Config.Slot
import Switchboard.Proofs.Config.Verbatim
import Switchboard.Proofs.Config.Layout
import Switchboard.Proofs.Config.Replacement
import Switchboard.Proofs.Auth.Precedence
import Switchboard.Proofs.Toml.Keys
import Switchboard.Proofs.Config.Validation
import Switchboard.Proofs.Resilience.Backoff
import Switchboard.Proofs.Tools.Acceptance
import Switchboard.Proofs.Client.Hearing
import Switchboard.Proofs.Auth.Interleaving
import Switchboard.Proofs.Tools.Room
import Switchboard.Proofs.Chat.Merging
import Switchboard.Proofs.Chat.Providers
import Switchboard.Proofs.Chat.Reachability
import Switchboard.Proofs.Client.Instants
import Switchboard.Proofs.Tools.Deadline
