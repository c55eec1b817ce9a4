import EspCfTunnel.H2.History
import EspCfTunnel.Monitor.Api
import EspCfTunnel.Monitor.Remote

/-!
# The backend of the tunnel

`monitor_tunnel.c`: what the monitor does with the requests of the tunnel. A record for each stream
collects the body, and when the stream has ended the request is executed and the record holds the reply
until the stream is closed. `Input` are the callbacks of the session, with what the device does in
between; the log has them as the session notes them (`H2.Note`), with what the backend did.
-/

namespace EspCfTunnel.Backend

open EspCfTunnel StateLogic

/-- `CF_H2_APPLICATION_MAX`. -/
abbrev records : Nat := 4

/-- `response`. `content` is what `data` and `length` say, `input` the bytes that were put into the
buffer, if there is one. -/
structure Response where
  id : Int := 0
  content : Bytes := []
  sent : Nat := 0
  input : Option Bytes := none
  request : Remote.RemoteHead := {}
  head : Bool := false
  api : Bool := false
  complete : Bool := false
  deriving DecidableEq, Repr

/-- `monitor_asset` -/
structure Asset where
  uri : Bytes
  type : Bytes
  data : Bytes

/-- What one callback meets: the buffer of the packed fields, whether there is memory for the body and
for the reply, whether the lock of the API is free, what the API meets, and what `cf_h2_respond` says. -/
structure Answers where
  buffer : Option Mem := none
  input : Bool := true
  owned : Bool := true
  locked : Bool := true
  api : Api.Answers := {}
  responded : Result := .ok

/-- What happened: a note of the session, the head of a request was read, a request was executed, an
answer was decided on, and bytes of it were handed out. -/
inductive Entry
  | note (n : H2.Note)
  | parsed (id : Int) (head : Remote.RemoteHead)
  | execute (id : Int) (q : Api.Request) (reply : Api.Reply)
  | answer (id : Int) (status : Nat) (content : Bytes)
  | given (id : Int) (bytes : Bytes) (eof : Bool)
  deriving DecidableEq, Repr

structure State where
  responses : Fin records → Response := fun _ => {}
  device : Api.State := {}
  log : List Entry := []

abbrev M := StateM State

/-- The record is changed. -/
def setResponse (i : Fin records) (x : Response) : M Unit :=
  modify fun s => { s with responses := Function.update s.responses i x }

def say (e : Entry) : M Unit := modify fun s => { s with log := s.log ++ [e] }

/-- `find` -/
def find (id : Int) (s : State) : Option (Fin records) := Table.lookup (fun x => x.id = id) s.responses

/-- The headers of `respond`. -/
def responseHeaders (length : Nat) (type : Bytes) : List Header :=
  [⟨text "content-type", type⟩, ⟨text "content-length", text (toString length)⟩,
    ⟨text "Cache-Control", text "no-store"⟩, ⟨text "X-Content-Type-Options", text "nosniff"⟩,
    ⟨text "Referrer-Policy", text "no-referrer"⟩,
    ⟨text "Content-Security-Policy", text ("default-src 'self'; script-src 'self'; style-src 'self'; " ++
      "img-src 'self'; connect-src 'self'; frame-ancestors 'none'; base-uri 'none'; form-action 'self'")⟩]

section
variable (l : Api.Library) (assets : List Asset) (a : Answers)

/-- `respond` -/
def respond (i : Fin records) (status : Nat) (type : Bytes) : M Result := do
  let x := (← get).responses i
  setResponse i { x with complete := true }
  say (.answer x.id status x.content)
  say (.note (.call (.respond x.id status (responseHeaders x.content.length type) true)))
  if a.responded = .ok then say (.note (.response x.id))
  return a.responded

/-- `fail_response` -/
def failResponse (i : Fin records) (status : Nat) (json : String) : M Result := do
  let x := (← get).responses i
  setResponse i { x with content := text json }
  respond a i status (text "application/json")

/-- The body of an error. -/
def errorText (message : String) : String := "\x7b\"error\":\"" ++ message ++ "\"\x7d"

/-- What `request` does once the head is read. -/
def route (i : Fin records) : M Result := do
  let x := (← get).responses i
  setResponse i { x with head := x.request.head, api := x.request.path.take 5 = text "/api/" }
  if x.request.path.take 5 = text "/api/" then
    if x.request.post then
      if !a.input then failResponse a i 503 (errorText "Not enough memory for this request.")
      else
        let x := (← get).responses i
        setResponse i { x with input := some [] }
        return .ok
    -- The request is executed when the stream has ended.
    else return .ok
  else if x.request.post then failResponse a i 405 (errorText "This page supports GET and HEAD.")
  else
    match assets.find? (·.uri = x.request.path) with
    | some asset =>
      let x := (← get).responses i
      setResponse i { x with content := asset.data }
      respond a i 200 asset.type
    | none => failResponse a i 404 (errorText "Page not found.")

/-- `request` -/
def request (r : H2.Request) : M Result := do
  match find 0 (← get) with
  | none => return .limit
  | some i =>
    let (rc, head) := Remote.remoteParse a.buffer r.headers
    setResponse i { id := r.stream, request := head }
    if rc ≠ .ok then
      failResponse a i (if rc = .unsupported then 405 else 400)
        (errorText "Unsupported method, body size or ambiguous request headers.")
    else
      say (.parsed r.stream head)
      route assets a i

/-- The request that the API is given. -/
def apiRequest (head : Remote.RemoteHead) (body : Bytes) : Api.Request where
  path := head.path
  authorization := some head.authorization
  body := body
  post := head.post
  jsonContent := head.jsonContent
  originAllowed := head.originAllowed
  remoteAccess := true

/-- The end of `data`, for a stream that has ended. -/
def execute (i : Fin records) : M Result := do
  let x := (← get).responses i
  let used := x.input.getD []
  if x.request.hasLength ∧ x.request.contentLength ≠ used.length then
    failResponse a i 400 (errorText "Request body length mismatch.")
  else if !a.owned then failResponse a i 503 (errorText "Not enough memory for this response.")
  else if !a.locked then failResponse a i 503 (errorText "The device is busy. Please retry.")
  else
    let s ← get
    let (reply, device) := Api.serve l a.api (apiRequest x.request used) s.device
    set { s with device }
    say (.execute x.id (apiRequest x.request used) reply)
    setResponse i { x with
      input := none, request := { x.request with authorization := [] }, content := reply.body }
    respond a i reply.status (text "application/json")

/-- `data` -/
def data (id : Int) (bytes : Bytes) (fin : Bool) : M Result := do
  let s ← get
  match find id s with
  | none => return .state
  | some i =>
    let x := s.responses i
    if x.complete then return .ok
    if bytes ≠ [] then
      match x.input with
      | none => failResponse a i 400 (errorText "Send a JSON object of at most 2048 bytes.")
      | some used =>
        if bytes.length > Remote.bodyMax - used.length then
          failResponse a i 400 (errorText "Send a JSON object of at most 2048 bytes.")
        else
          setResponse i { x with input := some (used ++ bytes) }
          if fin then execute l a i else return .ok
    else if fin then execute l a i
    else return .ok

/-- `read_response`: the result and what it wrote, with the end. -/
def readResponse (id : Int) (capacity : Nat) : M Result := do
  let s ← get
  match find id s with
  | none => return .state
  | some i =>
    let x := s.responses i
    let written := if x.head then 0 else min (x.content.length - x.sent) capacity
    setResponse i { x with sent := x.sent + written }
    say (.given id ((x.content.drop x.sent).take written) (x.head || x.sent + written = x.content.length))
    return .ok

/-- `closed` -/
def closed (id : Int) : M Unit := do
  match find id (← get) with
  | none => return
  | some i => setResponse i {}

end

/-! ## Runs -/

/-- A callback of the session, a stream that is reset, or what else happens to the device. -/
inductive Input
  | request (r : H2.Request) (a : Answers)
  | data (id : Int) (bytes : Bytes) (fin : Bool) (a : Answers)
  | read (id : Int) (capacity : Nat)
  | closed (id : Int) (error : Nat)
  | reset (id : Int)
  | device (i : Api.Input)

/-- A callback, noted by the session before and after. -/
def callback (n : H2.Note) (x : M Result) : M Unit := do
  say (.note n)
  let rc ← x
  say (.note (.returned n rc))

def step (l : Api.Library) (assets : List Asset) : Input → State → State
  | .request r a, s => (callback (.request r) (request assets a r) s).2
  | .data id bytes fin a, s => (callback (.data id bytes fin) (data l a id bytes fin) s).2
  | .read id capacity, s => (callback (.read id capacity) (readResponse id capacity) s).2
  | .closed id error, s =>
    (callback (.closed id error) (do closed id; return .ok) s).2
  | .reset id, s => (say (.note (.reset id)) s).2
  | .device i, s => { s with device := Api.step l i s.device }

/-- Inputs one after the other. -/
def run (l : Api.Library) (assets : List Asset) (is : List Input) (s : State) : State :=
  Past.run (step l assets) is s

/-- What the session noted. -/
def notes (log : List Entry) : List H2.Note :=
  log.filterMap fun
    | .note n => some n
    | _ => none

end EspCfTunnel.Backend
