import EspCfTunnel.Rpc.Basic
import EspCfTunnel.H2.Basic
import EspCfTunnel.Lifecycle
import EspCfTunnel.Config
import EspCfTunnel.Dns.Select

/-!
# The tunnel task

`esp_cf_tunnel.c`: the one task that owns discovery, TLS, HTTP/2 and the registration. An iteration
of the loop of `run` is a state transformer of `Ctx`. All that comes from outside is foretold for an
iteration by an `Oracle`: the environment report, reload and stop requests of other tasks, the clock,
random numbers, and the outcomes of the system calls, of esp-tls and of the application's callbacks.
HTTP/2 is seen from the side of the tunnel: a call of `cf_h2_receive`, `cf_h2_output` or
`cf_h2_destroy` makes any sequence of callbacks. Diagnostics and the published snapshot are
left out.

A history of what has happened, newest first, is kept for the sake of statements only.
-/

namespace EspCfTunnel.Task

open EspCfTunnel StateLogic Lifecycle Config

/-- `RPC_QUEUE`. -/
abbrev queueSize : Nat := 4096

/-- `CF_H2_CHUNK`. -/
abbrev chunkSize : Nat := 2048

/-- `esp_cf_environment`. -/
structure Environment where
  networkReady : Bool := false
  timeValid : Bool := false
  localIp : Bytes := [0, 0, 0, 0]
  dnsIp : Bytes := [0, 0, 0, 0]

/-- What the tunnel sees of its `cf_h2`: the output that is not sent yet, and the flags in the slot of
the control stream. The pointer to the output is told by the number of the output it belongs to and
the offset in it. -/
structure Link where
  serial : Nat := 0
  offset : Nat := 0
  pending : Bytes := []
  response : Bool := false
  deferred : Bool := false
  reset : Bool := false

/-- An array of zeros. -/
def zeros : Mem := fun _ => 0

/-- `cf_credentials` after `cf_secure_zero`. -/
def noCredentials : Rpc.Credentials := ⟨zeros, zeros, zeros, 0⟩

/-- `esp_cf_tunnel`. A handle is known by whether it is there; `rpc_frame` is the buffer of the
framer. -/
structure Tunnel where
  service : Bytes
  stopRequested : Bool := false
  reloadRequested : Bool := false
  life : Life := lifecycleInit
  rpc : Rpc.Client := Rpc.rpcInit
  remote : Remote := configInit
  h2 : Option Link := none
  tls : Bool := false
  credentials : Rpc.Credentials := noCredentials
  options : Rpc.Options
  hostname : Bytes := List.replicate 254 0
  edgeIp : Bytes := []
  dnsName : Bytes := []
  message : String := ""
  environment : Environment := {}
  dnsAnswer : Option Dns.Answer := none
  dnsSocket : Bool := false
  dnsId : Nat := 0
  dnsStage : Nat := 0
  attempts : Nat := 0
  deadlineMs : Nat := 0
  shutdownMs : Nat := 0
  writeStalledMs : Nat := 0
  settingsReady : Bool := false
  attemptStarted : Bool := false
  fault : Bool := false
  stopping : Bool := false
  goawaySent : Bool := false
  closing : Bool := false
  controlStream : Int := 0
  configStream : Int := 0
  framer : Framing.Framer := ⟨zeros, 0, 0, 0, 0, 0, .ok⟩
  rpcQueue : Mem := zeros
  rpcQueued : Nat := 0
  configBytes : Mem := zeros
  configUsed : Nat := 0
  configReply : Bytes := []
  configReplySent : Nat := 0
  configPending : Bool := false
  configResponse : Bool := false

/-- A callback from `cf_h2`, or a stream that it resets on its own account. -/
inductive Callback
  | request (r : H2.Request)
  | data (id : Int) (bytes : Bytes) (endStream : Bool)
  | read (id : Int) (capacity : Nat)
  | closed (id : Int) (error : Nat)
  | reset (id : Int)

/-- An `esp_tls_conn_read`, and what `cf_h2_receive` does with the bytes: the callbacks it makes, and
whether it takes all of them. -/
inductive Read
  | wantRead | wantWrite
  | ended (n : Int)
  | bytes (callbacks : List Callback) (ok : Bool)

/-- The result of an `esp_tls_conn_write`. -/
inductive Write
  | wantRead | wantWrite
  | failed (n : Int)
  | wrote (n : Nat)

/-- A `recv` on the DNS socket, and what `cf_dns_parse` makes of the packet. -/
inductive Packet
  | again | failed | invalid
  | answer (records : Dns.Answer)

/-- The result of `esp_tls_conn_new_async`, and whether the connection is in the TLS handshake. -/
inductive Handshake
  | failed (stage : String) (handshaking : Bool)
  | pending (handshaking : Bool)
  | done

/-- What is foretold for one iteration. `outcomes` are those of calls that may fail, `results` those
of the application's callbacks and of `cf_h2_respond`. -/
structure Oracle where
  reload : Bool := false
  stop : Bool := false
  environment : Environment := {}
  clock : List Nat := []
  random : List Nat := []
  outcomes : List Bool := []
  results : List Result := []
  credentials : Result × Rpc.Credentials × Bytes := (.state, noCredentials, [])
  packet : Packet := .again
  handshake : Handshake := .pending false
  reads : List Read := []
  writes : List Write := []
  outputs : List (List Callback × Bytes) := []
  stats : H2.Stats := {}
  orphans : List (Int × Nat) := []
  parse : Parser := fun _ => .error .malformed

/-- The functions that drop the result of a lifecycle call. -/
inductive Site
  | retry | discover | connectTls | h2Request | rpcMessage | applyConfig | communicate
  deriving DecidableEq, Repr

/-- What has happened. -/
inductive Note
  | iteration
  | environment (networkReady timeValid : Bool)
  | closeConnection
  | lifecycle (site : Site) (result : Result)
  | retried (t : Tunnel) (now random : Nat) (life : Life)
  | rpcReceive (before after : Rpc.Client) (result : Result)
  | configApply (hostname service : Bytes) (result : Result)
  | request (t : Tunnel) (r : H2.Request)
  | resume (id : Int)
  | append (fault : Bool) (bytes : Bytes) (result : Result)
  | handed (t : Tunnel) (bytes : Bytes) (eof : Bool)
  | callback (call : Callback)
  | returned (t : Tunnel)
  | stats (peerSettings : Bool)
  | configReply (t : Tunnel) (result : Result)
  | memSend
  | output (bytes : Bytes)
  | tlsRead
  | tlsWrite (serial offset : Nat) (bytes : Bytes) (result : Write)
  | stalled (now : Nat)

/-- The tunnel while an iteration runs. -/
structure Ctx where
  t : Tunnel
  oracle : Oracle := {}
  history : List Note := []

/-- Programs of the task. -/
abbrev M := StateM Ctx

/-! ## Primitives -/

def modifyTunnel (f : Tunnel → Tunnel) : M Unit := modify fun c => { c with t := f c.t }

def note (n : Note) : M Unit := modify fun c => { c with history := n :: c.history }

/-- `now_ms`. -/
def nowMs : M Nat := do
  let c ← get
  set { c with oracle := { c.oracle with clock := c.oracle.clock.tail } }
  return c.oracle.clock.headD 0

/-- `esp_random`. -/
def espRandom : M Nat := do
  let c ← get
  set { c with oracle := { c.oracle with random := c.oracle.random.tail } }
  return c.oracle.random.headD 0

/-- A call that may fail: true for success. -/
def outcome : M Bool := do
  let c ← get
  set { c with oracle := { c.oracle with outcomes := c.oracle.outcomes.tail } }
  return c.oracle.outcomes.headD true

/-- A callback of the application, or a `cf_h2_respond`. -/
def result : M Result := do
  let c ← get
  set { c with oracle := { c.oracle with results := c.oracle.results.tail } }
  return c.oracle.results.headD .ok

/-- `esp_tls_conn_read` with `cf_h2_receive`. -/
def tlsRead : M Read := do
  let c ← get
  set { c with oracle := { c.oracle with reads := c.oracle.reads.tail } }
  return c.oracle.reads.headD .wantRead

/-- `esp_tls_conn_write`. -/
def tlsWrite : M Write := do
  let c ← get
  set { c with oracle := { c.oracle with writes := c.oracle.writes.tail } }
  return c.oracle.writes.headD .wantWrite

/-- `nghttp2_session_mem_send2`: the callbacks it makes and the bytes it produces. -/
def memSend : M (List Callback × Bytes) := do
  let c ← get
  set { c with oracle := { c.oracle with outputs := c.oracle.outputs.tail } }
  return c.oracle.outputs.headD ([], [])

/-- `message`. -/
def message (text : String) : M Unit := modifyTunnel fun t => { t with message := text }

/-- A `cf_lifecycle_advance` whose result is dropped. -/
def advance (site : Site) (event : Event) : M Unit := do
  let l := lifecycleAdvance (← get).t.life event
  modifyTunnel fun t => { t with life := l.1 }
  note (.lifecycle site l.2)

/-- The session of the tunnel, where there is one. -/
def Tunnel.link (t : Tunnel) : Link := t.h2.getD {}

def Tunnel.mapLink (t : Tunnel) (f : Link → Link) : Tunnel := { t with h2 := t.h2.map f }

/-! ## Closing -/

/-- `h2_closed`. -/
def h2Closed (id : Int) : M Unit := do
  let t := (← get).t
  if id = t.controlStream then
    if !t.closing ∧ (!t.stopping ∨ t.rpc.state ≠ .closed) then
      modifyTunnel fun t => { t with fault := true }
      message "Cloudflare closed the control stream."
    modifyTunnel fun t => { t with controlStream := 0 }
  else if id = t.configStream then
    modifyTunnel fun t => { t with
      configStream := 0, configUsed := 0, configPending := false, configResponse := false
      configBytes := zeros }

/-- The callbacks of `cf_h2_destroy`. -/
def h2Destroy : List (Int × Nat) → M Unit
  | [] => return
  | (id, _) :: rest => do
    h2Closed id
    h2Destroy rest

/-- `close_connection`. -/
def closeConnection : M Unit := do
  note .closeConnection
  modifyTunnel fun t => { t with dnsSocket := false, dnsAnswer := none, closing := true }
  let c ← get
  if c.t.h2.isSome then h2Destroy c.oracle.orphans
  modifyTunnel fun t => { t with
    h2 := none, closing := false, tls := false
    rpc := Rpc.rpcInit, remote := configInit, credentials := noCredentials
    framer := { t.framer with buffer := zeros }
    rpcQueue := zeros, configBytes := zeros
    rpcQueued := 0, configUsed := 0, configReply := [], configReplySent := 0
    configPending := false, configResponse := false, controlStream := 0, configStream := 0
    attemptStarted := false, fault := false, goawaySent := false, writeStalledMs := 0 }

/-- `hint` of `retry`, as a `uint32_t`. -/
def retryHint (r : Rpc.Client) : Nat :=
  min (if r.state = .rejected then r.retryAfterMs else 0) (2 ^ 32 - 1)

/-- The `cf_lifecycle_retry` of `retry`. -/
def retryLater : M Unit := do
  let now ← nowMs
  let random ← espRandom
  let t := (← get).t
  let l := lifecycleRetry t.life now (retryHint t.rpc) random
  modifyTunnel fun t => { t with life := l.1 }
  note (.lifecycle .retry l.2)
  note (.retried t now random l.1)

/-- `retry`; it is called with the tunnel's own message, which stays. -/
def retry : M Unit := do
  let r := (← get).t.rpc
  if r.state = .rejected ∧ !r.shouldRetry then advance .retry .authRejected else retryLater
  closeConnection

/-! ## The control stream -/

/-- `cf_h2_resume` on the slot of the control stream; `nghttp2_session_resume_data` succeeds. -/
def Link.resume (l : Link) : Link :=
  if l.response ∧ !l.reset then { l with deferred := false } else l

/-- `append_rpc`. -/
def appendRpc (bytes : Bytes) : M Result := do
  let t := (← get).t
  if bytes.length > queueSize - t.rpcQueued then
    note (.append t.fault bytes .limit)
    return .limit
  modifyTunnel fun t => { t with
    rpcQueue := t.rpcQueue.write t.rpcQueued bytes, rpcQueued := t.rpcQueued + bytes.length }
  note (.append t.fault bytes .ok)
  if t.controlStream ≠ 0 then
    note (.resume t.controlStream)
    modifyTunnel fun t => t.mapLink Link.resume
  return .ok

/-- The bytes that a call of `cf_rpc` has left in the output buffer. -/
def Rpc.Outcome.bytes (o : Rpc.Outcome) : Bytes := o.out.read 0 o.n

/-- The options of a registration. -/
def registerOptions (t : Tunnel) : Rpc.Options :=
  { t.options with
    localIp := t.environment.localIp
    previousAttempts := if t.attempts > 256 then 255 else (t.attempts + 255) % 256 }

/-- The part of `rpc_message` for a client that is ready. -/
def registerNow : M Result := do
  let t := (← get).t
  let o := Rpc.rpcRegister t.rpc t.credentials (registerOptions t) zeros Rpc.txMax
  modifyTunnel fun t => { t with
    options := registerOptions t, rpc := o.rpc, credentials := noCredentials }
  if o.result ≠ .ok then
    modifyTunnel fun t => { t with fault := true }
    return o.result
  let rc ← appendRpc (Rpc.Outcome.bytes o)
  if rc ≠ .ok then modifyTunnel fun t => { t with fault := true }
  return rc

/-- The part of `rpc_message` for a client that is registered. -/
def registeredNow : M Unit := do
  advance .rpcMessage .registered
  message (if (← get).t.life.configured then "Tunnel is serving the configured hostname."
    else "Registered. Waiting for remote ingress configuration.")
  let now ← nowMs
  modifyTunnel fun t => { t with deadlineMs := now + 30000 }

/-- `rpc_message`. -/
def rpcMessage (frame : Bytes) : M Result := do
  let r := (← get).t.rpc
  let o := Rpc.rpcReceive r frame zeros Rpc.txMax
  modifyTunnel fun t => { t with rpc := o.rpc }
  note (.rpcReceive r o.rpc o.result)
  let rc ← appendRpc (Rpc.Outcome.bytes o)
  let rc := if rc ≠ .ok then .limit else o.result
  if rc ≠ .ok then
    message "Registration RPC failed or used an unsupported message."
    modifyTunnel fun t => { t with fault := true }
    return rc
  if o.rpc.state = .ready then return ← registerNow
  if o.rpc.state = .registered then registeredNow
  else if o.rpc.state = .rejected then
    message (if o.rpc.shouldRetry then "Cloudflare rejected registration; retry requested."
      else "Cloudflare rejected the tunnel credentials.")
    modifyTunnel fun t => { t with fault := true }
  return .ok

/-- `cf_capnp_framer_init` on `rpc_frame`, whose size is allowed. -/
def initFramer (f : Framing.Framer) : Framing.Framer :=
  Framing.framerReset ⟨f.buffer, Framing.messageMax, 0, 0, 0, 0, .ok⟩

/-- The part of `h2_request` for the control stream. -/
def controlRequest (r : H2.Request) : M Result := do
  let t := (← get).t
  if t.controlStream ≠ 0 ∨ r.endStream then return .state
  modifyTunnel fun t => { t with controlStream := r.stream }
  if t.life.state = .http2 then advance .h2Request .http2Ready
  let o := Rpc.rpcBegin Rpc.rpcInit zeros Rpc.txMax
  modifyTunnel fun t => { t with rpc := o.rpc, framer := initFramer t.framer }
  if o.result ≠ .ok then return o.result
  let rc ← appendRpc (Rpc.Outcome.bytes o)
  if rc ≠ .ok then return rc
  let now ← nowMs
  modifyTunnel fun t => { t with deadlineMs := now + 30000 }
  let rc ← result
  if rc = .ok then modifyTunnel fun t => t.mapLink fun l => { l with response := true }
  return rc

/-- The part of `h2_request` for a configuration stream. -/
def configRequest (r : H2.Request) : M Result := do
  if (← get).t.configStream ≠ 0 then return .state
  modifyTunnel fun t => { t with
    configStream := r.stream, configUsed := 0, configReply := [], configReplySent := 0
    configPending := false, configResponse := false }
  return .ok

/-- The part of `h2_request` for the application. -/
def httpRequest (r : H2.Request) : M Result := do
  let t := (← get).t
  if t.life.state ≠ .online ∨ H2.header r.headers (text ":authority") ≠ t.remote.hostname then
    return .state
  note (.request t r)
  result

/-- `h2_request`. -/
def h2Request (r : H2.Request) : M Result := do
  if (← get).t.stopping then return .state
  match r.kind with
  | .control => controlRequest r
  | .config => configRequest r
  | .http => httpRequest r

/-- `rpc_message` as the callback of `cf_capnp_feed`. -/
def onFrame (c : Ctx) (frame : Bytes) : Ctx × Result := ((rpcMessage frame c).2, (rpcMessage frame c).1)

/-- The `cf_capnp_feed` of `h2_data`. -/
def feedControl (data : Bytes) : M Result := fun c =>
  let fed := Framing.capnpFeed onFrame c.t.framer c data
  let rc := if fed.result = .ok ∧ fed.consumed ≠ data.length then .state else fed.result
  (rc, { fed.state with t := { fed.state.t with
    framer := fed.framer, fault := fed.state.t.fault || rc ≠ .ok } })

/-- The part of `h2_data` for a configuration stream. -/
def configData (data : Bytes) (endStream : Bool) : M Result := do
  let t := (← get).t
  if t.configPending ∨ t.configResponse ∨ data.length > messageMax - t.configUsed then return .limit
  modifyTunnel fun t => { t with
    configBytes := t.configBytes.write t.configUsed data, configUsed := t.configUsed + data.length
    configPending := t.configPending || endStream }
  return .ok

/-- `h2_data`. -/
def h2Data (id : Int) (data : Bytes) (endStream : Bool) : M Result := do
  let t := (← get).t
  if id = t.controlStream then
    if endStream ∧ t.rpc.state ≠ .closed then
      modifyTunnel fun t => { t with fault := true }
      message "The control stream ended unexpectedly."
      return .truncated
    if data = [] then return .ok
    feedControl data
  else if id = t.configStream then configData data endStream
  else result

/-- What `h2_read` gives to `cf_h2`. -/
structure Reply where
  result : Result
  bytes : Bytes := []
  eof : Bool := false

/-- The part of `h2_read` for the control stream. -/
def controlRead (capacity : Nat) : M Reply := do
  let t := (← get).t
  let n := min t.rpcQueued capacity
  let left := t.rpcQueued - n
  modifyTunnel fun t => { t with
    rpcQueue := (t.rpcQueue.write 0 (t.rpcQueue.read n left)).write left (List.replicate n 0)
    rpcQueued := left }
  let eof : Bool := t.rpc.state = .closed ∧ left = 0
  note (.handed t (t.rpcQueue.read 0 n) eof)
  return ⟨if n ≠ 0 ∨ eof then .ok else .state, t.rpcQueue.read 0 n, eof⟩

/-- The part of `h2_read` for a configuration stream. -/
def configRead (capacity : Nat) : M Reply := do
  let t := (← get).t
  if !t.configResponse then return ⟨.state, [], false⟩
  let n := min (t.configReply.length - t.configReplySent) capacity
  modifyTunnel fun t => { t with configReplySent := t.configReplySent + n }
  return ⟨.ok, (t.configReply.drop t.configReplySent).take n,
    t.configReplySent + n = t.configReply.length⟩

/-- `h2_read`; what the application writes is not kept. -/
def h2Read (id : Int) (capacity : Nat) : M Reply := do
  let t := (← get).t
  if id = t.controlStream then controlRead capacity
  else if id = t.configStream then configRead capacity
  else return ⟨← result, [], false⟩

/-- `cf_h2_reset`; of the slots, that of the control stream is kept. -/
def h2Reset (id : Int) : M Unit := do
  -- `nghttp2_submit_rst_stream`.
  if ← outcome then
    modifyTunnel fun t =>
      if id = t.controlStream then t.mapLink fun l => { l with reset := true } else t

/-- `read_response` takes the reply for a stream that waits. -/
def Reply.defers (r : Reply) : Bool :=
  r.result = .state ∨ (r.result = .ok ∧ r.bytes = [] ∧ !r.eof)

/-- `read_response`, with the capacity that it leaves. -/
def readResponse (id : Int) (capacity : Nat) : M Unit := do
  let t := (← get).t
  if id = t.controlStream then
    if !t.link.reset then
      let reply ← h2Read id capacity
      modifyTunnel fun t => t.mapLink fun l => { l with deferred := reply.defers }
  else
    let _ ← h2Read id capacity

/-- `closed_stream`; the slot is wiped. -/
def closedStream (id : Int) : M Unit := do
  let t := (← get).t
  h2Closed id
  if id = t.controlStream then
    modifyTunnel fun t =>
      t.mapLink fun l => { l with response := false, deferred := false, reset := false }

/-- What `cf_h2` does at a callback: one that fails resets its stream. -/
def Callback.handle : Callback → M Unit
  | .request r => do if (← h2Request r) ≠ .ok then h2Reset r.stream
  | .data id bytes endStream => do if (← h2Data id bytes endStream) ≠ .ok then h2Reset id
  | .read id capacity => readResponse id capacity
  | .closed id _ => closedStream id
  | .reset id => h2Reset id

/-- The callbacks that a call of `cf_h2` makes. -/
def Callback.run (call : Callback) : M Unit := do
  note (.callback call)
  call.handle
  note (.returned (← get).t)

def runCallbacks : List Callback → M Unit
  | [] => return
  | call :: rest => do
    call.run
    runCallbacks rest

/-! ## Discovery -/

/-- `CF_EDGE_DISCOVERY`. -/
def edgeDiscovery : Bytes := text "_v2-origintunneld._tcp.argotunnel.com"

/-- `dns_send`. -/
def dnsSend (name : Bytes) : M Result := do
  -- `socket`, which replaces the one before.
  let opened ← outcome
  modifyTunnel fun t => { t with dnsSocket := opened }
  if !opened then return .state
  -- `fcntl` and `connect`.
  if !(← outcome) then return .state
  let id ← espRandom
  modifyTunnel fun t => { t with dnsId := id % 2 ^ 16, dnsName := name }
  -- `cf_dns_query`.
  if !(← outcome) then return .format
  -- `send`.
  if !(← outcome) then return .state
  let now ← nowMs
  modifyTunnel fun t => { t with deadlineMs := now + 5000 }
  return .ok

/-- The application's credentials are taken over; the result is `settings_ready`. -/
def loadCredentials : M Bool := do
  let (rc, credentials, hostname) := (← get).oracle.credentials
  let ready : Bool := rc = .ok ∧ cString hostname ≠ [] ∧ (hostname.take 254).contains 0
  modifyTunnel fun t => { t with
    settingsReady := ready, hostname := hostname.take 254
    credentials := if ready then credentials else noCredentials }
  return ready

/-- The beginning of an attempt, in `discover`: its result if it ends here. -/
def startAttempt : M (Option Bool) := do
  -- `json_try_lock`.
  if !(← outcome) then return some true
  if !(← loadCredentials) then
    message "Save a named tunnel token and public hostname in Settings."
    return some true
  modifyTunnel fun t => { t with
    attemptStarted := true, attempts := (t.attempts + 1) % 2 ^ 32, dnsStage := 0 }
  -- `calloc`.
  let allocated ← outcome
  modifyTunnel fun t => { t with dnsAnswer := if allocated then some [] else none }
  if !allocated then
    message "Unable to start edge DNS discovery."
    return some false
  if (← dnsSend edgeDiscovery) ≠ .ok then
    message "Unable to start edge DNS discovery."
    return some false
  message "Resolving Cloudflare edge service records."
  return none

/-- The part of `discover` for an SRV answer. -/
def chooseTarget (records : Dns.Answer) : M Bool := do
  let sorted := Dns.sortByPriority records
  let random ← espRandom
  let pick := Dns.pickRecord sorted (← get).t.attempts random
  modifyTunnel fun t => { t with dnsAnswer := some sorted, dnsStage := 1 }
  if (← dnsSend (sorted.nth pick).target) ≠ .ok then
    message "Unable to resolve the discovered edge hostname."
    return false
  return true

/-- The part of `discover` for an address answer. -/
def startTls (records : Dns.Answer) : M Bool := do
  let random ← espRandom
  modifyTunnel fun t => { t with
    edgeIp := (records.nth (random % records.length)).ip, dnsSocket := false, dnsAnswer := none }
  -- `esp_tls_init`.
  let created ← outcome
  modifyTunnel fun t => { t with tls := created }
  if !created then
    message "TLS context allocation failed."
    return false
  let now ← nowMs
  modifyTunnel fun t => { t with deadlineMs := now + 30000 }
  advance .discover .discovered
  message "Connecting to the discovered edge on TCP 7844."
  return true

/-- The part of `discover` that waits for an answer. -/
def resolve : M Bool := do
  match (← get).oracle.packet with
  | .again =>
    if (← nowMs) < (← get).t.deadlineMs then return true
    message "DNS query timed out."
    return false
  | .failed =>
    message "DNS query failed."
    return false
  | .invalid =>
    message "DNS response is invalid, truncated, or unsupported."
    return false
  | .answer records =>
    if (← get).t.dnsStage = 0 then chooseTarget records else startTls records

/-- `discover`. -/
def discover : M Bool := do
  if (← get).t.attemptStarted then resolve
  else match ← startAttempt with
    | some done => return done
    | none => resolve

/-! ## Connecting -/

/-- Whether a handshake is under way or done. -/
def Handshake.reached : Handshake → Bool
  | .failed _ handshaking => handshaking
  | .pending handshaking => handshaking
  | .done => true

/-- The part of `connect_tls` for a connection that is ready. -/
def startHttp2 : M Bool := do
  -- `cf_h2_create`.
  let created ← outcome
  modifyTunnel fun t => { t with h2 := if created then some {} else none }
  if !created then
    message "Not enough memory for HTTP/2."
    return false
  advance .connectTls .tlsReady
  let now ← nowMs
  modifyTunnel fun t => { t with deadlineMs := now + 30000 }
  message "TLS verified. Waiting for the edge HTTP/2 control stream."
  return true

/-- `connect_tls`. -/
def connectTls : M Bool := do
  let c ← get
  if c.t.life.state = .connect ∧ c.oracle.handshake.reached then advance .connectTls .connected
  let now ← nowMs
  match c.oracle.handshake with
  | .failed stage _ =>
    message ("Connect failed at " ++ stage ++ "; see structured connect diagnostics.")
    return false
  | .pending _ =>
    if now ≥ c.t.deadlineMs then
      message "Connect failed at application_deadline; see structured connect diagnostics."
      return false
    return true
  | .done => startHttp2

/-! ## Communicating -/

/-- `apply_config`, when an update is complete and the JSON lock is taken. -/
def applyUpdate : M Unit := do
  let c ← get
  let hostname := cString c.t.hostname
  let applied := configApply c.oracle.parse c.t.remote (c.t.configBytes.read 0 c.t.configUsed) hostname
    c.t.service
  note (.configApply hostname c.t.service applied.result)
  modifyTunnel fun t => { t with
    remote := applied.config
    configReply := ((configResponse applied.config applied.result 128).toOption).getD []
    configBytes := zeros, configUsed := 0, configPending := false, configResponse := true }
  if (← result) ≠ .ok then modifyTunnel fun t => { t with fault := true }
  advance .applyConfig (if applied.result = .ok then .configApplied else .configRejected)
  note (.configReply (← get).t applied.result)
  message applied.reason

/-- `apply_config`. -/
def applyConfig : M Unit := do
  if (← get).t.configPending then
    -- `json_try_lock`.
    if ← outcome then applyUpdate

/-- The reading loop of `communicate`; false if it fails. -/
def readLoop : Nat → M Bool
  | 0 => return true
  | rounds + 1 => do
    -- A pending write is retried before another read.
    if (← get).t.writeStalledMs ≠ 0 then return true
    note .tlsRead
    match ← tlsRead with
    | .wantRead | .wantWrite => return true
    | .ended n =>
      message ("Edge TLS read ended (code " ++ toString n ++ ").")
      return false
    | .bytes callbacks ok =>
      runCallbacks callbacks
      if !ok then
        message "HTTP/2 protocol or memory limit reached."
        return false
      readLoop rounds

/-- `cf_h2_output`; none if it fails. -/
def h2Output : M (Option Bytes) := do
  if !(← outcome) then return none
  let link := (← get).t.link
  if link.pending ≠ [] then return some link.pending
  note .memSend
  let (callbacks, bytes) ← memSend
  runCallbacks callbacks
  if !(← outcome) then return none
  note (.output bytes)
  modifyTunnel fun t => t.mapLink fun l => { l with serial := l.serial + 1, offset := 0, pending := bytes }
  return some bytes

/-- The time that a write has waited for; false if it is too long. -/
def waited : M Bool := do
  let now ← nowMs
  if (now + 2 ^ 64 - (← get).t.writeStalledMs) % 2 ^ 64 > 15000 then
    message "TLS output stalled."
    return false
  return true

/-- A write that has to wait; false if it has waited for too long. -/
def stall : M Bool := do
  if (← get).t.writeStalledMs = 0 then
    let now ← nowMs
    modifyTunnel fun t => { t with writeStalledMs := now }
    note (.stalled now)
  waited

/-- One write of `communicate`: the outcome of the loop if it ends here. -/
def writeChunk (out : Bytes) : M (Option Bool) := do
  let link := (← get).t.link
  let written ← tlsWrite
  note (.tlsWrite link.serial link.offset (out.take chunkSize) written)
  match written with
  | .wantRead | .wantWrite => return some (← stall)
  | .failed n =>
    message ("TLS write failed (code " ++ toString n ++ ").")
    return some false
  | .wrote n =>
    if n = 0 ∨ n > link.pending.length then
      message ("TLS write failed (code " ++ toString n ++ ").")
      return some false
    modifyTunnel fun t => { t with
      h2 := t.h2.map fun l => { l with offset := l.offset + n, pending := l.pending.drop n }
      writeStalledMs := 0 }
    return none

/-- The writing loop of `communicate`; false if it fails. -/
def writeLoop : Nat → M Bool
  | 0 => return true
  | rounds + 1 => do
    match ← h2Output with
    | none =>
      message "Unable to encode the HTTP/2 response."
      return false
    | some out =>
      if out = [] then return true
      match ← writeChunk out with
      | some ok => return ok
      | none => writeLoop rounds

/-- The GOAWAY part of `communicate`. -/
def goawayText (stats : H2.Stats) : String :=
  if stats.localGoaway ∧ stats.localGoawayReason ≠ [] then
    "HTTP/2: " ++ String.ofList (stats.localGoawayReason.map fun b => Char.ofNat b.toNat)
  else if stats.localGoaway then "Local HTTP/2 ended the connection (GOAWAY)."
  else "The edge requested a new connection (GOAWAY)."

/-- `cf_h2_shutdown` once the registration is closed and everything has been handed out. -/
def shutdownWhenClosed : M Unit := do
  let t := (← get).t
  if t.stopping ∧ t.rpc.state = .closed ∧ t.rpcQueued = 0 ∧ !t.goawaySent then
    modifyTunnel fun t => { t with goawaySent := true }

/-- The deadlines of `communicate`; false if one has passed. -/
def checkDeadlines : M Bool := do
  if !(← get).t.life.registered then
    if (← nowMs) ≥ (← get).t.deadlineMs then
      message "Edge registration timed out."
      return false
  if (← get).t.life.state = .waitConfig then
    if (← nowMs) ≥ (← get).t.deadlineMs then
      message "No ingress configuration received. Check the tunnel public hostname."
      return false
  return true

/-- `communicate`. -/
def communicate : M Bool := do
  if !(← readLoop 8) then return false
  let c ← get
  if c.oracle.stats.peerSettings ∧ c.t.life.state = .http2 then advance .communicate .http2Ready
  note (.stats c.oracle.stats.peerSettings)
  if c.oracle.stats.goaway ∧ !c.t.stopping then
    message (goawayText c.oracle.stats)
    return false
  if c.t.fault then return false
  applyConfig
  shutdownWhenClosed
  if !(← writeLoop 8) then return false
  if !(← checkDeadlines) then return false
  -- `esp_tls_get_conn_sockfd`; the output is asked for once more before `select`.
  if ← outcome then
    let _ ← h2Output
  return true

/-! ## The task -/

/-- A reload, in `run`. -/
def reload : M Unit := do
  closeConnection
  modifyTunnel fun t => { t with
    life := (lifecycleStart (lifecycleStop t.life)).1, settingsReady := false, stopping := false }

/-- The requests of other tasks, in `run`; false if the task has to end. -/
def serveRequests : M Bool := do
  let t := (← get).t
  modifyTunnel fun t => { t with reloadRequested := false }
  if t.reloadRequested ∧ !t.stopRequested then reload
  if !t.stopRequested ∨ (← get).t.stopping then return true
  let t := (← get).t
  if !(t.h2.isSome ∧ t.rpc.state = .registered) then return false
  let o := Rpc.rpcUnregister t.rpc zeros Rpc.txMax
  modifyTunnel fun t => { t with rpc := o.rpc }
  if o.result = .ok then
    let _ ← appendRpc (Rpc.Outcome.bytes o)
  let now ← nowMs
  modifyTunnel fun t => { t with
    stopping := true, shutdownMs := now + 2000, life := { t.life with state := .stopping } }
  return true

/-- The environment report, in `run`; false if the task has to end. -/
def serveEnvironment : M Bool := do
  let env := (← get).oracle.environment
  modifyTunnel fun t => { t with environment := env }
  note (.environment env.networkReady env.timeValid)
  if !env.networkReady ∨ !env.timeValid then
    let t := (← get).t
    if t.stopping then return false
    if t.tls ∨ t.dnsSocket then closeConnection
  let now ← nowMs
  modifyTunnel fun t => { t with
    life := lifecycleTick (lifecycleEnvironment t.life env.networkReady env.timeValid) now }
  return true

/-- The step of the lifecycle's state, in `run`; false if the task has to end. -/
def serveState : M Bool := do
  let t := (← get).t
  if t.life.state = .discovery then
    if !(← discover) then retry
  else if t.life.state = .connect ∨ t.life.state = .tls then
    if !(← connectTls) then retry
  else if t.h2.isSome then
    if !(← communicate) then
      if (← get).t.stopping then return false
      retry
  return true

/-- The end of a graceful stop, in `run`; false if the task has to end. -/
def serveShutdown : M Bool := do
  if (← get).t.stopping then
    let now ← nowMs
    let t := (← get).t
    return !(now ≥ t.shutdownMs ∨ (t.goawaySent ∧ t.controlStream = 0))
  return true

/-- An iteration of the loop of `run`; false if it ends the task. -/
def iterate : M Bool := do
  note .iteration
  if !(← serveRequests) then return false
  if !(← serveEnvironment) then return false
  if !(← serveState) then return false
  serveShutdown

/-- The end of `run`. -/
def finish : M Unit := do
  closeConnection
  modifyTunnel fun t => { t with life := lifecycleStop t.life }
  message "Tunnel stopped."

/-! ## Runs -/

/-- `esp_cf_tunnel_config`, with the connector id that `esp_cf_tunnel_init` draws. -/
structure Setup where
  version : Bytes
  arch : Bytes
  service : Bytes
  applicationStreams : Nat
  connectorId : Mem

/-- `esp_cf_tunnel_init`; none for arguments that are not valid. -/
def tunnelInit (s : Setup) : Option Tunnel :=
  if s.version = [] ∨ s.version.length > 63 ∨ s.arch = [] ∨ s.arch.length > 63 ∨ s.service = [] ∨
      s.service.length > serviceMax ∨ (s.applicationStreams ≠ 2 ∧ s.applicationStreams ≠ 4) then none
  else some {
    service := s.service
    options := ⟨s.connectorId, [0, 0, 0, 0], s.version, s.arch, 0, 0, false, 3⟩ }

/-- A tunnel, with whether its task runs. -/
structure World where
  t : Tunnel
  history : List Note := []
  running : Bool := false

/-- `esp_cf_tunnel_start`, and what `run` does before its loop. -/
def World.start (w : World) : World :=
  { w with
    t := { w.t with
      stopRequested := false, reloadRequested := false, stopping := false
      life := (lifecycleStart w.t.life).1 }
    running := true }

/-- Other tasks may ask for a reload or a stop before the iteration. -/
def Tunnel.ask (t : Tunnel) (o : Oracle) : Tunnel :=
  { t with reloadRequested := t.reloadRequested || o.reload
           stopRequested := t.stopRequested || o.stop }

/-- An iteration of the task, and the end of the task if it is the last. -/
def World.step (w : World) (o : Oracle) : World :=
  let (continues, c) := iterate ⟨w.t.ask o, o, w.history⟩
  if continues then ⟨c.t, c.history, true⟩
  else
    let c := (finish c).2
    ⟨c.t, c.history, false⟩

/-- Iterations, as long as the task runs. -/
def World.run (w : World) : List Oracle → World
  | [] => w
  | o :: rest => if w.running then (w.step o).run rest else w

/-- The tunnels that a setup leads to. -/
inductive Reach (s : Setup) : World → Prop
  | init {t : Tunnel} : tunnelInit s = some t → Reach s { t }
  | start {w : World} : Reach s w → w.running = false → Reach s w.start
  | step {w : World} (o : Oracle) : Reach s w → w.running = true → Reach s (w.step o)

theorem Reach.run {s : Setup} {w : World} (h : Reach s w) (os : List Oracle) : Reach s (w.run os) := by
  induction os generalizing w with
  | nil => exact h
  | cons o rest ih =>
    rw [World.run]
    split
    · next hrunning => exact ih (.step o h hrunning)
    · exact h

end EspCfTunnel.Task
