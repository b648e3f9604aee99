import Ruxmsg.Library.Machine
import Ruxmsg.Library.Cbor
import Ruxmsg.Library.CborGrammar
import Ruxmsg.Library.CborOrder
import Ruxmsg.Library.Stream
import Ruxmsg.Library.Window
import Ruxmsg.Library.KeyCache
import Ruxmsg.Library.Timers
import Ruxmsg.Library.Duplex
import Ruxmsg.Library.Bits
import Ruxmsg.Library.Suffix
import Ruxmsg.Library.Index
import Ruxmsg.Library.History
import Ruxmsg.Library.Grammar
import Ruxmsg.Library.Channel
import Ruxmsg.Library.Codec
import Ruxmsg.Protocol
import Ruxmsg.Crypto
import Ruxmsg.Wire
import Ruxmsg.Encoding
import Ruxmsg.Handshake
import Ruxmsg.Close
import Ruxmsg.Canonical
import Ruxmsg.Ratchet
import Ruxmsg.Data
import Ruxmsg.Machine
import Ruxmsg.Payloads
import Ruxmsg.Messages
import Ruxmsg.Framing
import Ruxmsg.Reference
import Ruxmsg.Timeless
import Ruxmsg.Transitions
import Ruxmsg.Moves
import Ruxmsg.Reachable
import Ruxmsg.Promotion
import Ruxmsg.Delivery
import Ruxmsg.Sends
import Ruxmsg.Pinned
import Ruxmsg.Approval
import Ruxmsg.Provenance
import Ruxmsg.Order
import Ruxmsg.Authentication
import Ruxmsg.Mirror
import Ruxmsg.Forward
import Ruxmsg.Honest
import Ruxmsg.Exchange
import Ruxmsg.Convergence
import Ruxmsg.Window
import Ruxmsg.Sas
import Ruxmsg.Chain
import Ruxmsg.Receiver
import Ruxmsg.Arrivals
import Ruxmsg.DataFrames
import Ruxmsg.Timers
import Ruxmsg.Paths
import Ruxmsg.Closing
import Ruxmsg.Task
import Ruxmsg.Driver
import Ruxmsg.Armed
import Ruxmsg.Postures
import Ruxmsg.Deadlines
import Ruxmsg.Triggers
import Ruxmsg.Lanes
import Ruxmsg.Paired
import Ruxmsg.Traffic
import Ruxmsg.Conversation
import Ruxmsg.Decoder
import Ruxmsg.Padding
import Ruxmsg.Sender
import Ruxmsg.Domains
import Ruxmsg.Forms
import Ruxmsg.Scan
import Ruxmsg.Deterministic
import Ruxmsg.Commute
import Ruxmsg.Agreement
import Ruxmsg.Refusals
import Ruxmsg.Reports
import Ruxmsg.Emissions
import Ruxmsg.Clock
import Ruxmsg.Socket
import Ruxmsg.Cable
import Ruxmsg.Dialogue
import Ruxmsg.Cli.Text
import Ruxmsg.Cli.Scrollback
import Ruxmsg.Cli.Display
import Ruxmsg.Cli.Config
import Ruxmsg.Cli.Commands
import Ruxmsg.Cli.App
import Ruxmsg.Cli.Sessions
import Ruxmsg.Cli.Turns
import Ruxmsg.Cli.Table
import Ruxmsg.Cli.Approvals
import Ruxmsg.Cli.Listener
import Ruxmsg.Cli.Keys
import Ruxmsg.Cli.Rooms
import Ruxmsg.Cli.Talks
import Ruxmsg.Cli.Facade
import Ruxmsg.Cli.Handles
import Ruxmsg.Cli.Inbox
import Ruxmsg.Cli.Permits
import Ruxmsg.Cli.Client
import Ruxmsg.Cli.Gating
import Ruxmsg.Cli.Chats
import Ruxmsg.Cli.Clean
import Ruxmsg.Cli.Utf8
import Ruxmsg.Cli.Keyring
import Ruxmsg.Cli.Pane
import Ruxmsg.Cli.Settings
