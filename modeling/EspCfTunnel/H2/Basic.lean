import EspCfTunnel.Headers
import EspCfTunnel.Lib.StateLogic
import EspCfTunnel.Lib.Table

/-!
# The HTTP/2 session

`cf_h2.c` above nghttp2: a table of six stream slots, the header block that is being received, and
the callbacks into the application. nghttp2 is not modelled: its events arrive in any order that it
guarantees (`Env.Legal`), and whether a call into it succeeds, as well as what an application
callback returns and which API calls it makes while it runs, is foretold by an `Oracle` for each
event. A call is a state transformer of `Ctx`, which also keeps a log of the callbacks made and the
API calls received.
-/

namespace EspCfTunnel.H2

open EspCfTunnel StateLogic

/-- `CF_H2_APPLICATION_MAX + 2`. -/
abbrev slots : Nat := 6

/-- `CF_H2_HEADER_MAX`. -/
abbrev headerMax : Nat := 48

/-- `CF_H2_HEADER_BYTES`. -/
abbrev headerBytes : Nat := 8192

/-- `CF_H2_CHUNK`. -/
abbrev chunk : Nat := 2048

/-- `cf_h2_kind`. -/
inductive Kind
  | http | control | config
  deriving DecidableEq, Repr

/-- `stream`. -/
structure Stream where
  id : Int := 0
  kind : Kind := .http
  headersDone : Bool := false
  response : Bool := false
  reset : Bool := false
  deferred : Bool := false
  progressMs : Nat := 0
  deriving DecidableEq, Repr

/-- `cf_h2_stats`, without the counters of the allocator. -/
structure Stats where
  activeStreams : Nat := 0
  rejectedStreams : Nat := 0
  lastError : Int := 0
  goawayError : Nat := 0
  peerGoawayError : Nat := 0
  peerGoawayLastStream : Int := 0
  localGoawayReason : Bytes := []
  localGoaway : Bool := false
  peerSettings : Bool := false
  goaway : Bool := false
  deriving DecidableEq, Repr

/-- `cf_h2`. The headers are kept with the bytes they borrow from `header_bytes`. -/
structure Session where
  stats : Stats := {}
  appLimit : Nat
  nowMs : Nat := 0
  streams : Fin slots → Stream := fun _ => {}
  headers : List Header := []
  headerUsed : Nat := 0
  headerStream : Int := 0
  pending : Bytes := []
  error : Result := .ok

/-- `cf_h2_request`. -/
structure Request where
  stream : Int
  kind : Kind
  headers : List Header
  endStream : Bool
  deriving DecidableEq, Repr

/-- A call of the API that an application may make at any time, also from a callback. -/
inductive Call
  | reset (id : Int) (error : Nat)
  | respond (id : Int) (status : Nat) (headers : List Header) (origin : Bool)
  | resume (id : Int)
  | shutdown
  | sent (n : Nat)
  | tick (now : Nat)
  deriving DecidableEq, Repr

/-- What happened: a callback into the application and its return, an API call, or what such a call
has done: a stream was reset, or its response accepted. -/
inductive Note
  | request (r : Request)
  | data (id : Int) (bytes : Bytes) (endStream : Bool)
  | read (id : Int) (capacity : Nat)
  | closed (id : Int) (error : Nat)
  | returned (n : Note) (result : Result)
  | call (c : Call)
  | reset (id : Int)
  | response (id : Int)
  deriving DecidableEq, Repr

/-- What one callback does: the API calls it makes, and what it returns. -/
structure Reply where
  calls : List Call := []
  result : Result := .ok
  n : Nat := 0
  eof : Bool := false

/-- What is foretold for one event: whether the calls of `nghttp2_submit_rst_stream` and of the other
functions of nghttp2 succeed (they do when nothing is said), and what the callbacks do. -/
structure Oracle where
  rst : List Bool := []
  outcomes : List Bool := []
  replies : List Reply := []

/-- The session while an event is handled, with the log and the streams whose response nghttp2 has
accepted. -/
structure Ctx where
  h : Session
  oracle : Oracle
  responses : List Int
  log : List Note

/-- Programs of the session. -/
abbrev M := StateM Ctx

/-! ## Primitives -/

def modifySession (f : Session → Session) : M Unit := modify fun c => { c with h := f c.h }

/-- The stream in slot `i` is changed. -/
def Session.setStream (h : Session) (i : Fin slots) (s : Stream) : Session :=
  { h with streams := Function.update h.streams i s }

def note (n : Note) : M Unit := modify fun c => { c with log := c.log ++ [n] }

/-- The result of `nghttp2_submit_rst_stream`: true for success. -/
def submitRst : M Bool := do
  let c ← get
  set { c with oracle := { c.oracle with rst := c.oracle.rst.tail } }
  return c.oracle.rst.headD true

/-- The result of another call of nghttp2: true for success. -/
def nghttp2 : M Bool := do
  let c ← get
  set { c with oracle := { c.oracle with outcomes := c.oracle.outcomes.tail } }
  return c.oracle.outcomes.headD true

/-- `find_stream`. -/
def Session.findStream (h : Session) (id : Int) : Option (Fin slots) :=
  Table.lookup (fun s => s.id = id) h.streams

/-- `NGHTTP2_ERR_CALLBACK_FAILURE` is returned by a callback of nghttp2, or zero. -/
inductive Status
  | ok | callbackFailure
  deriving DecidableEq, Repr

/-! ## The API calls -/

/-- `if (s) s->reset = true`. -/
def markReset : Option (Fin slots) → M Unit
  | some i => do
    note (.reset ((← get).h.streams i).id)
    modifySession fun h => h.setStream i { h.streams i with reset := true }
  | none => return

/-- `cf_h2_reset`. -/
def reset (id : Int) (error : Nat) : M Result := do
  note (.call (.reset id error))
  let h := (← get).h
  let s := h.findStream id
  if s.any fun i => (h.streams i).reset then return .ok
  if !(← submitRst) then
    modifySession fun h => { h with error := .memory }
    return .memory
  markReset s
  modifySession fun h => { h with
    stats := { h.stats with rejectedStreams := (h.stats.rejectedStreams + 1) % 2 ^ 32 } }
  return .ok

/-- The name is `content-length` in one of the two spellings that `cf_h2_respond` looks for. -/
def isContentLength (name : Bytes) : Bool :=
  name = [99, 111, 110, 116, 101, 110, 116, 45, 108, 101, 110, 103, 116, 104] ∨
    name = [67, 111, 110, 116, 101, 110, 116, 45, 76, 101, 110, 103, 116, 104]

/-- `cf_h2_respond`. What is submitted to nghttp2 is not kept. -/
def respond (id : Int) (status : Nat) (headers : List Header) (origin : Bool) : M Result := do
  note (.call (.respond id status headers origin))
  if status < 200 ∨ status > 599 then return .argument
  let h := (← get).h
  match h.findStream id with
  | none => return .state
  | some i =>
    if !(h.streams i).headersDone ∨ (h.streams i).response ∨ (h.streams i).reset then return .state
    match Headers.headersEncode headers Headers.wireMax with
    | .error rc => return rc
    | .ok _ =>
      if (headers.filter fun x => isContentLength x.name).length > 1 then return .format
      if !(← nghttp2) then return .memory
      modify fun c => { c with responses := id :: c.responses }
      note (.response id)
      modifySession fun h => h.setStream i { h.streams i with response := true }
      return .ok

/-- `cf_h2_resume`. -/
def resume (id : Int) : M Result := do
  note (.call (.resume id))
  let h := (← get).h
  match h.findStream id with
  | none => return .state
  | some i =>
    if !(h.streams i).response ∨ (h.streams i).reset then return .state
    if !(h.streams i).deferred then return .ok
    if !(← nghttp2) then return .state
    modifySession fun h => h.setStream i { h.streams i with deferred := false }
    return .ok

/-- `cf_h2_shutdown`. -/
def shutdown : M Result := do
  note (.call .shutdown)
  modifySession fun h => { h with stats := { h.stats with goaway := true } }
  if !(← nghttp2) then return .memory
  return .ok

/-- `cf_h2_sent`. -/
def sent (n : Nat) : M Result := do
  note (.call (.sent n))
  let h := (← get).h
  if n > h.pending.length then return .argument
  modifySession fun h => { h with pending := h.pending.drop n }
  return .ok

/-- `cf_h2_tick` resets the stream: it has made no progress for more than 15 seconds. -/
def Stream.idle (s : Stream) (now : Nat) : Bool :=
  s.id ≠ 0 ∧ s.reset = false ∧ (s.headersDone = false ∨ s.kind ≠ .control) ∧ now ≥ s.progressMs ∧
    now - s.progressMs > 15000

/-- The body of the loop of `cf_h2_tick`. `NGHTTP2_CANCEL` is 8. -/
def tickSlot (now : Nat) (i : Fin slots) : M Unit := do
  let s := (← get).h.streams i
  if s.idle now then
    let _ ← reset s.id 8

/-- The loop of `cf_h2_tick`. -/
def tickSlots (now : Nat) : List (Fin slots) → M Unit
  | [] => return
  | i :: rest => do
    tickSlot now i
    tickSlots now rest

/-- `cf_h2_tick`. -/
def tick (now : Nat) : M Unit := do
  note (.call (.tick now))
  modifySession fun h => { h with nowMs := now }
  tickSlots now (List.finRange slots)

/-- Make an API call; its result is dropped. -/
def Call.run : Call → M Unit
  | .reset id error => do let _ ← H2.reset id error
  | .respond id status headers origin => do let _ ← H2.respond id status headers origin
  | .resume id => do let _ ← H2.resume id
  | .shutdown => do let _ ← H2.shutdown
  | .sent n => do let _ ← H2.sent n
  | .tick now => H2.tick now

def runCalls : List Call → M Unit
  | [] => return
  | c :: rest => do
    c.run
    runCalls rest

/-- A callback into the application: it makes the API calls foretold for it, and returns. -/
def callback (n : Note) : M Reply := do
  note n
  let c ← get
  let reply := c.oracle.replies.headD {}
  set { c with oracle := { c.oracle with replies := c.oracle.replies.tail } }
  runCalls reply.calls
  note (.returned n reply.result)
  return reply

/-! ## The callbacks from nghttp2 -/

/-- The idiom `cf_h2_reset(...) == CF_OK ? 0 : NGHTTP2_ERR_CALLBACK_FAILURE`. -/
def resetStatus (id : Int) (error : Nat) : M Status := do
  return if (← reset id error) = .ok then .ok else .callbackFailure

/-- `begin_headers`; `request` is that the category is `NGHTTP2_HCAT_REQUEST`. -/
def beginHeaders (id : Int) (request : Bool) : M Status := do
  modifySession fun h => { h with headerStream := 0 }
  -- Trailers are outside the initial native-backend subset.
  if !request then return ← resetStatus id 1
  match (← get).h.findStream 0 with
  | none => resetStatus id 7
  | some i =>
    modifySession fun h => { h.setStream i { id, progressMs := h.nowMs } with
      stats := { h.stats with activeStreams := (h.stats.activeStreams + 1) % 2 ^ 32 }
      headerStream := id
      headers := []
      headerUsed := 0 }
    return .ok

/-- The fields of which a second one is refused: pseudo fields and those of the connector. -/
def guarded (name : Bytes) : Bool :=
  name.head? = some 58 ∨
    name.take 15 = [99, 102, 45, 99, 108, 111, 117, 100, 102, 108, 97, 114, 101, 100, 45]

/-- `on_header` does not take the field: there is no room, or it is an ambiguous second one. -/
def Session.rejects (h : Session) (name value : Bytes) : Bool :=
  h.headers.length = headerMax ∨ name.length > headerBytes - h.headerUsed ∨
    value.length > headerBytes - h.headerUsed - name.length ∨
    (guarded name ∧ ∃ x ∈ h.headers, x.name = name)

/-- `on_header`. -/
def onHeader (id : Int) (name value : Bytes) : M Status := do
  let h := (← get).h
  if h.headerStream ≠ id then return .ok
  if h.rejects name value then
    modifySession fun h => { h with headerStream := 0 }
    return ← resetStatus id 11
  modifySession fun h => { h with
    headers := h.headers ++ [⟨name, value⟩]
    headerUsed := h.headerUsed + name.length + value.length }
  return .ok

/-- The types of frames that `received_frame` distinguishes. -/
inductive FrameType
  | headers | data | settings (ack : Bool) | goaway (error : Nat) (last : Int) | other
  deriving DecidableEq, Repr

structure Frame where
  stream : Int
  type : FrameType
  endStream : Bool
  deriving DecidableEq, Repr

/-- The connection-level part of `received_frame`. -/
def Stats.frame (s : Stats) (type : FrameType) : Stats :=
  match type with
  | .settings false => { s with peerSettings := true }
  | .goaway error last =>
    { s with goaway := true, goawayError := error, peerGoawayError := error
             peerGoawayLastStream := last }
  | _ => s

/-- `cf_h2_header`: the value of the first field with the name. -/
def header (headers : List Header) (name : Bytes) : Bytes :=
  ((headers.find? fun x => x.name = name).map Header.value).getD []

def upgradeName : Bytes := text "cf-cloudflared-proxy-connection-upgrade"

def controlStream : Bytes := text "control-stream"

def updateConfiguration : Bytes := text "update-configuration"

/-- The kind of a request by its headers; none for an upgrade that is not known. -/
def classify (headers : List Header) : Option Kind :=
  let upgrade := header headers upgradeName
  if upgrade = controlStream then some .control
  else if upgrade = updateConfiguration then some .config
  else if upgrade ≠ [] then none
  else some .http

/-- The slot holds a stream of the kind that has been admitted and is not reset. -/
def Stream.admitted (s : Stream) (kind : Kind) : Bool :=
  s.id ≠ 0 ∧ s.headersDone ∧ s.reset = false ∧ s.kind = kind

/-- How many streams of the kind are admitted. -/
def Session.count (h : Session) (kind : Kind) : Nat := Table.tally (·.admitted kind) h.streams

/-- How many streams of the kind may be. -/
def Session.limit (h : Session) (kind : Kind) : Nat := if kind = .http then h.appLimit else 1

/-- The part of `received_frame` for a complete header block on the stream in slot `i`; the result is
none if the function goes on after it. -/
def headerBlock (i : Fin slots) (endStream : Bool) : M (Option Status) := do
  let h := (← get).h
  let id := (h.streams i).id
  match classify h.headers with
  | none => return some (← resetStatus id 7)
  | some kind =>
    modifySession fun h => h.setStream i { h.streams i with kind }
    let h := (← get).h
    if h.count kind ≥ h.limit kind then return some (← resetStatus id 7)
    modifySession fun h => h.setStream i { h.streams i with headersDone := true }
    if (← callback (.request ⟨id, kind, h.headers, endStream⟩)).result ≠ .ok then
      return some (← resetStatus id 7)
    -- The bytes that the headers borrow are wiped.
    modifySession fun h => { h with
      headers := h.headers.map fun x =>
        ⟨List.replicate x.name.length 0, List.replicate x.value.length 0⟩
      headerStream := 0 }
    return none

/-- The part of `received_frame` for the end of a stream. -/
def endOfStream (i : Fin slots) (frame : Frame) : M Status := do
  if (frame.type = .headers ∨ frame.type = .data) ∧ frame.endStream then
    let id := ((← get).h.streams i).id
    if (← callback (.data id [] true)).result ≠ .ok then return ← resetStatus id 8
  return .ok

/-- `received_frame`. -/
def receivedFrame (frame : Frame) : M Status := do
  let s := (← get).h.findStream frame.stream
  modifySession fun h => { h with stats := h.stats.frame frame.type }
  match s with
  | none => return .ok
  | some i =>
    let h := (← get).h
    if (h.streams i).reset then return .ok
    if frame.type = .headers ∧ h.headerStream = frame.stream then
      match ← headerBlock i frame.endStream with
      | some status => return status
      | none => endOfStream i frame
    else endOfStream i frame

/-- The loop of `received_data`; false if a reset failed. Every round takes a byte at least. -/
def deliver (id : Int) : Nat → Bytes → M Bool
  | 0, _ => return true
  | fuel + 1, data => do
    if data = [] then return true
    let n := min data.length chunk
    if (← callback (.data id (data.take n) false)).result ≠ .ok then
      return (← reset id 8) = .ok
    deliver id fuel (data.drop n)

/-- `received_data`. -/
def receivedData (id : Int) (data : Bytes) : M Status := do
  let h := (← get).h
  match h.findStream id with
  | none => return if ← nghttp2 then .ok else .callbackFailure
  | some i =>
    if (h.streams i).reset then return if ← nghttp2 then .ok else .callbackFailure
    if !(← deliver id data.length data) then return .callbackFailure
    modifySession fun h => h.setStream i { h.streams i with progressMs := h.nowMs }
    return if ← nghttp2 then .ok else .callbackFailure

/-- `closed_stream`. -/
def closedStream (id : Int) (error : Nat) : M Status := do
  match (← get).h.findStream id with
  | none => return .ok
  | some i =>
    let _ ← callback (.closed id error)
    modifySession fun h => { h.setStream i {} with
      stats := { h.stats with activeStreams := (h.stats.activeStreams + 2 ^ 32 - 1) % 2 ^ 32 } }
    return .ok

/-- `sent_frame`; only a GOAWAY, with its debug data, is looked at. -/
def sentFrame (type : FrameType) (reason : Bytes) : M Status := do
  match type with
  | .goaway error _ =>
    modifySession fun h => { h with
      stats := { h.stats with goaway := true, localGoaway := true, goawayError := error
                              localGoawayReason := reason.take 63 } }
    return .ok
  | _ => return .ok

/-- `protocol_error`. -/
def protocolError (code : Int) : M Status := do
  modifySession fun h => { h with stats := { h.stats with lastError := code } }
  return .ok

/-- What `invalid_frame` keeps of a GOAWAY. -/
def Stats.invalid (s : Stats) : FrameType → Stats
  | .goaway error last => { s with peerGoawayError := error, peerGoawayLastStream := last }
  | _ => s

/-- `invalid_frame`. -/
def invalidFrame (type : FrameType) (code : Int) : M Status := do
  modifySession fun h => { h with stats := { h.stats.invalid type with lastError := code } }
  return .ok

/-- What `read_response` returns to nghttp2. -/
inductive ReadStatus
  | temporalFailure | deferred | bytes (n : Nat) (eof : Bool)
  deriving DecidableEq, Repr

/-- `read_response`. -/
def readResponse (id : Int) (capacity : Nat) : M ReadStatus := do
  let h := (← get).h
  match h.findStream id with
  | none => return .temporalFailure
  | some i =>
    if (h.streams i).reset then return .temporalFailure
    modifySession fun h => h.setStream i { h.streams i with deferred := false }
    let capacity := min capacity chunk
    let reply ← callback (.read id capacity)
    if reply.result = .state ∨ (reply.result = .ok ∧ reply.n = 0 ∧ reply.eof = false) then
      modifySession fun h => h.setStream i { h.streams i with deferred := true }
      return .deferred
    if reply.result ≠ .ok ∨ reply.n > capacity then return .temporalFailure
    if reply.n ≠ 0 ∨ reply.eof then
      modifySession fun h => h.setStream i { h.streams i with progressMs := h.nowMs }
    return .bytes reply.n reply.eof

/-- The loop of `cf_h2_destroy`. -/
def destroySlots : List (Fin slots) → M Unit
  | [] => return
  | i :: rest => do
    let s := (← get).h.streams i
    if s.id ≠ 0 then
      let _ ← callback (.closed s.id 8)
    destroySlots rest

/-- `cf_h2_destroy`: the session is gone afterwards. nghttp2 makes no callback while its session is
deleted. -/
def destroy : M Unit := destroySlots (List.finRange slots)

/-! ## Runs -/

/-- `cf_h2_create`; `built` is that nghttp2 could be set up. -/
def h2Create (apps limit : Nat) (built : Bool) : Except Result Session :=
  if (apps ≠ 2 ∧ apps ≠ 4) ∨ limit < 8192 ∨ limit > 65536 then .error .argument
  else if !built then .error .memory
  else .ok { appLimit := apps }

/-- One thing that happens to a session: a callback from nghttp2, an API call, or the beginning or
the failure of `cf_h2_receive` or `cf_h2_output`. With `abandon`, nghttp2 gives up a header block that
is malformed, without a callback for the frame. -/
inductive Event
  | clock (now : Nat)
  | fault (code : Int) (error : Result)
  | output (bytes : Bytes)
  | beginHeaders (id : Int) (request : Bool)
  | header (id : Int) (name value : Bytes)
  | abandon (id : Int)
  | frame (f : Frame)
  | data (id : Int) (bytes : Bytes)
  | closed (id : Int) (error : Nat)
  | sentFrame (type : FrameType) (reason : Bytes)
  | protocolError (code : Int)
  | invalidFrame (type : FrameType) (code : Int)
  | read (id : Int) (capacity : Nat)
  | call (c : Call)
  deriving DecidableEq, Repr

def Event.run : Event → M Unit
  | .clock now => modifySession fun h => { h with nowMs := now }
  | .fault code error =>
    modifySession fun h => { h with error, stats := { h.stats with lastError := code } }
  | .output bytes => modifySession fun h => { h with pending := bytes }
  | .beginHeaders id request => do let _ ← H2.beginHeaders id request
  | .header id name value => do let _ ← onHeader id name value
  | .abandon _ => return
  | .frame f => do let _ ← receivedFrame f
  | .data id bytes => do let _ ← receivedData id bytes
  | .closed id error => do let _ ← closedStream id error
  | .sentFrame type reason => do let _ ← H2.sentFrame type reason
  | .protocolError code => do let _ ← H2.protocolError code
  | .invalidFrame type code => do let _ ← H2.invalidFrame type code
  | .read id capacity => do let _ ← readResponse id capacity
  | .call c => c.run

/-- What nghttp2 keeps of a session: the streams it has opened and closed, the header block it is in
the middle of, and the streams that have a response. -/
structure Env where
  opened : List Int := []
  closed : List Int := []
  block : Option Int := none
  responses : List Int := []

/-- What nghttp2 guarantees: every stream is opened once and closed at most once, header blocks are
contiguous, and data is asked for only on a stream that has a response. Only the header block of a
stream, the closing of streams, output and API calls may come in between. -/
def Env.Legal (env : Env) : Event → Prop
  | .beginHeaders id request =>
    env.block = none ∧ id ≠ 0 ∧ if request then id ∉ env.opened else id ∈ env.opened
  | .header id _ _ => env.block = some id
  | .abandon id => env.block = some id
  | .frame f => if f.type = .headers then env.block = some f.stream
    else env.block = none ∧ (f.type = .data → f.stream ∈ env.opened)
  | .data id _ => env.block = none ∧ id ∈ env.opened
  | .closed id _ => id ∈ env.opened ∧ id ∉ env.closed
  | .read id _ => id ∈ env.responses
  | _ => True

instance (env : Env) : (e : Event) → Decidable (env.Legal e)
  | .beginHeaders id request => inferInstanceAs (Decidable (env.block = none ∧ id ≠ 0 ∧
      if request then id ∉ env.opened else id ∈ env.opened))
  | .header id _ _ => inferInstanceAs (Decidable (env.block = some id))
  | .abandon id => inferInstanceAs (Decidable (env.block = some id))
  | .frame f => inferInstanceAs (Decidable (if f.type = .headers then env.block = some f.stream
      else env.block = none ∧ (f.type = .data → f.stream ∈ env.opened)))
  | .data id _ => inferInstanceAs (Decidable (env.block = none ∧ id ∈ env.opened))
  | .closed id _ => inferInstanceAs (Decidable (id ∈ env.opened ∧ id ∉ env.closed))
  | .read id _ => inferInstanceAs (Decidable (id ∈ env.responses))
  | .clock _ | .fault _ _ | .output _ | .sentFrame _ _ | .protocolError _ | .invalidFrame _ _
  | .call _ => inferInstanceAs (Decidable True)

def Env.next (env : Env) : Event → Env
  | .beginHeaders id request =>
    { env with opened := if request then id :: env.opened else env.opened, block := some id }
  | .abandon _ => { env with block := none }
  | .frame f => if f.type = .headers then { env with block := none } else env
  | .closed id _ => { env with closed := id :: env.closed }
  | _ => env

/-- The stream ids of an API call are not zero. -/
def Call.Valid : Call → Prop
  | .reset id _ => id ≠ 0
  | .respond id _ _ _ => id ≠ 0
  | .resume id => id ≠ 0
  | _ => True

instance : (c : Call) → Decidable c.Valid
  | .reset id _ => inferInstanceAs (Decidable (id ≠ 0))
  | .respond id _ _ _ => inferInstanceAs (Decidable (id ≠ 0))
  | .resume id => inferInstanceAs (Decidable (id ≠ 0))
  | .shutdown | .sent _ | .tick _ => inferInstanceAs (Decidable True)

def Event.Valid : Event → Prop
  | .call c => c.Valid
  | _ => True

instance : (e : Event) → Decidable e.Valid
  | .call c => inferInstanceAs (Decidable c.Valid)
  | .clock _ | .fault _ _ | .output _ | .beginHeaders _ _ | .header _ _ _ | .abandon _ | .frame _
  | .data _ _ | .closed _ _ | .sentFrame _ _ | .protocolError _ | .invalidFrame _ _ | .read _ _ =>
    inferInstanceAs (Decidable True)

/-- All API calls of an event, its own and those of its callbacks, are valid. -/
def Valid (e : Event) (o : Oracle) : Prop :=
  e.Valid ∧ ∀ reply ∈ o.replies, ∀ c ∈ reply.calls, c.Valid

instance (e : Event) (o : Oracle) : Decidable (Valid e o) :=
  inferInstanceAs (Decidable (e.Valid ∧ ∀ reply ∈ o.replies, ∀ c ∈ reply.calls, c.Valid))

/-- A session with its nghttp2. -/
structure World where
  h : Session
  env : Env

/-- An event is handled. -/
def World.handle (w : World) (e : Event) (o : Oracle) : Ctx :=
  (e.run ⟨w.h, o, w.env.responses, []⟩).2

def World.step (w : World) (e : Event) (o : Oracle) : World :=
  ⟨(w.handle e o).h, { w.env.next e with responses := (w.handle e o).responses }⟩

/-- Events, each with what is foretold for it. -/
abbrev Trace := List (Event × Oracle)

def World.run (w : World) : Trace → World
  | [] => w
  | (e, o) :: rest => (w.step e o).run rest

/-- The callbacks made and the API calls received while the events are handled. -/
def World.notes (w : World) : Trace → List Note
  | [] => []
  | (e, o) :: rest => (w.handle e o).log ++ (w.step e o).notes rest

/-- nghttp2 and the application may do this. -/
def World.Legal (w : World) : Trace → Prop
  | [] => True
  | (e, o) :: rest => w.env.Legal e ∧ Valid e o ∧ (w.step e o).Legal rest

instance World.decidableLegal : (w : World) → (t : Trace) → Decidable (w.Legal t)
  | _, [] => inferInstanceAs (Decidable True)
  | w, (e, o) :: rest =>
    have := decidableLegal (w.step e o) rest
    inferInstanceAs (Decidable (w.env.Legal e ∧ Valid e o ∧ (w.step e o).Legal rest))

/-- The states of a session that `cf_h2_create` has returned. -/
inductive Reach : World → Prop
  | create {apps limit : Nat} {h : Session} : h2Create apps limit true = .ok h → Reach ⟨h, {}⟩
  | step {w : World} (e : Event) (o : Oracle) : Reach w → w.env.Legal e → Valid e o →
      Reach (w.step e o)

theorem Reach.run {w : World} (hw : Reach w) {t : Trace} (ht : w.Legal t) : Reach (w.run t) := by
  induction t generalizing w with
  | nil => exact hw
  | cons x rest ih => exact ih (.step x.1 x.2 hw ht.1 ht.2.1) ht.2.2

end EspCfTunnel.H2
