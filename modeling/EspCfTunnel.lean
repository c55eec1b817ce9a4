import EspCfTunnel.Lib.Bytes
import EspCfTunnel.Lib.StateLogic
import EspCfTunnel.Lib.Simulation
import EspCfTunnel.Lib.History
import EspCfTunnel.Lib.Table
import EspCfTunnel.Lib.Ledger
import EspCfTunnel.Lib.ExchangeSort
import EspCfTunnel.Lib.Weighted
import EspCfTunnel.Lib.JsonText
import EspCfTunnel.Lib.JsonLexer
import EspCfTunnel.Core
import EspCfTunnel.Framing.Basic
import EspCfTunnel.Framing.Frames
import EspCfTunnel.Framing.Chunks
import EspCfTunnel.Capnp.Reader
import EspCfTunnel.Capnp.Builder
import EspCfTunnel.Capnp.Tree
import EspCfTunnel.Capnp.Bounds
import EspCfTunnel.Capnp.Follow
import EspCfTunnel.Capnp.Simulation
import EspCfTunnel.Capnp.Build
import EspCfTunnel.Capnp.RoundTrip
import EspCfTunnel.Rpc.Basic
import EspCfTunnel.Rpc.Layout
import EspCfTunnel.Rpc.Messages
import EspCfTunnel.Rpc.Registration
import EspCfTunnel.Rpc.Receive
import EspCfTunnel.Rpc.Trace
import EspCfTunnel.Rpc.Rejection
import EspCfTunnel.Rpc.Advance
import EspCfTunnel.Rpc.Verdict
import EspCfTunnel.H2.Basic
import EspCfTunnel.H2.Slots
import EspCfTunnel.H2.History
import EspCfTunnel.H2.Reserved
import EspCfTunnel.H2.Routing
import EspCfTunnel.H2.Story
import EspCfTunnel.H2.Walk
import EspCfTunnel.H2.Order
import EspCfTunnel.H2.Admission
import EspCfTunnel.H2.Allocator
import EspCfTunnel.H2.Accounting
import EspCfTunnel.Headers
import EspCfTunnel.Headers.Base64
import EspCfTunnel.Headers.Codec
import EspCfTunnel.Headers.Padding
import EspCfTunnel.Dns.Name
import EspCfTunnel.Dns.Reading
import EspCfTunnel.Dns.Select
import EspCfTunnel.Dns.Selection
import EspCfTunnel.Dns.Parse
import EspCfTunnel.Dns.Prefix
import EspCfTunnel.Dns.Query
import EspCfTunnel.Json.Lexemes
import EspCfTunnel.Json.Prefilter
import EspCfTunnel.Config
import EspCfTunnel.Config.Runs
import EspCfTunnel.Config.Acceptance
import EspCfTunnel.Token
import EspCfTunnel.Lifecycle
import EspCfTunnel.Lifecycle.Runs
import EspCfTunnel.Task.Basic
import EspCfTunnel.Task.Phases
import EspCfTunnel.Task.Moves
import EspCfTunnel.Task.Runs
import EspCfTunnel.Task.Delay
import EspCfTunnel.Task.Output
import EspCfTunnel.Task.Applied
import EspCfTunnel.Task.Queue
import EspCfTunnel.Monitor.Settings
import EspCfTunnel.Monitor.Ota
import EspCfTunnel.Monitor.Commit
import EspCfTunnel.Monitor.Remote
import EspCfTunnel.Monitor.Ambiguity
import EspCfTunnel.Lib.Past
import EspCfTunnel.Lib.Relational
import EspCfTunnel.Lib.Window
import EspCfTunnel.Monitor.Store
import EspCfTunnel.Monitor.Board
import EspCfTunnel.Monitor.Network
import EspCfTunnel.Monitor.Status
import EspCfTunnel.Monitor.Api
import EspCfTunnel.Monitor.Moves
import EspCfTunnel.Monitor.Session
import EspCfTunnel.Monitor.Guesses
import EspCfTunnel.Monitor.Secrets
import EspCfTunnel.Monitor.Effects
import EspCfTunnel.Monitor.Radio
import EspCfTunnel.Monitor.Recovery
import EspCfTunnel.Monitor.Stored
import EspCfTunnel.Monitor.Records
import EspCfTunnel.Monitor.Pins
import EspCfTunnel.Monitor.Backend
import EspCfTunnel.Monitor.Exchange
import EspCfTunnel.Monitor.Exchange
