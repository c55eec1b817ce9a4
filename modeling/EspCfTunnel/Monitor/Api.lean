import EspCfTunnel.Lib.Past
import EspCfTunnel.Monitor.Status

/-!
# The API of the monitor

`monitor_api.c`: the requests of the device's own page, over the LAN and over the tunnel. A session is a
token that a login with the device password hands out for ten minutes; what a request changes beyond
the stored settings is an effect, which the main task carries out a second after the reply was queued.
Callers hold `monitor_json_lock`, so the requests and the ticks of all tasks come one after the other.
-/

namespace EspCfTunnel.Api

open EspCfTunnel StateLogic Config Monitor

/-- `monitor_api_request` -/
structure Request where
  path : Bytes := []
  authorization : Option Bytes := none
  body : Bytes := []
  post : Bool := false
  jsonContent : Bool := false
  originAllowed : Bool := false
  setupAccess : Bool := false
  remoteAccess : Bool := false
  deriving DecidableEq, Repr

/-- The flags `MONITOR_EFFECT_*`. -/
structure Effects where
  wifi : Bool := false
  tunnel : Bool := false
  reboot : Bool := false
  restart : Bool := false
  deriving DecidableEq, Repr

namespace Effects

/-- `|=` -/
def union (e e' : Effects) : Effects :=
  ⟨e.wifi || e'.wifi, e.tunnel || e'.tunnel, e.reboot || e'.reboot, e.restart || e'.restart⟩

/-- Every flag of `e` is one of `e'`. -/
def Sub (e e' : Effects) : Prop :=
  (e.wifi = true → e'.wifi = true) ∧ (e.tunnel = true → e'.tunnel = true) ∧
    (e.reboot = true → e'.reboot = true) ∧ (e.restart = true → e'.restart = true)

end Effects

/-- `MONITOR_BODY_MAX` -/
abbrev bodyMax : Nat := 2048

/-- `MONITOR_REPLY_MAX` -/
abbrev replyMax : Nat := 6144

/-- `monitor_api_reply`: the `length` bytes of its body. -/
structure Reply where
  status : Nat
  effects : Effects := {}
  body : Bytes := []
  deriving DecidableEq, Repr

/-- What the monitor calls that is not its own: the hash and the image format of firmware, the decoder
of `mbedtls` with the room it is given, and the printer of cJSON. -/
structure Library where
  sha : Bytes → Bytes
  format : Ota.Format
  base64 : Nat → Bytes → Option Bytes
  print : Nat → Json → Option Bytes

/-- What one request meets: the clock, the parser with the memory there is, the bytes on the stack of the
token check, whether memory, reading and writing of NVS and the light are to be had, and what the other
modules are answered. -/
structure Answers where
  now : Nat := 0
  scheduled : Nat := now
  parse : Parser := fun _ => .error .allocation
  scratch : Mem := fun _ => 0
  memory : Bool := true
  reads : Bool := true
  writes : Bool := true
  random : Fin 32 → UInt8 := fun _ => 0
  pins : PinAnswers := {}
  shown : Bool := true
  ota : Ota.Answers := {}
  telemetry : Telemetry := {}

/-- The statics of `monitor_api.c` and of the modules behind it. -/
structure State where
  session : Bytes := []
  sessionUntil : Nat := 0
  failureWindow : Nat := 0
  failures : Nat := 0
  pending : Effects := {}
  effectsAfter : Nat := 0
  store : Store := {}
  pins : Pins := {}
  light : Light := {}
  net : Network.State := {}
  ota : Ota.State := {}
  deriving DecidableEq, Repr

abbrev M := StateM State

/-! ## Replies -/

/-- `error` -/
def error (status : Nat) (message : String) : Reply :=
  let body := text "\x7b\"error\":\"" ++ text message ++ text "\"\x7d"
  { status, body := if body.length < replyMax then body else [] }

/-- `ok`, with the effects of the request. -/
def ok (effects : Effects) : Reply := ⟨200, effects, text "\x7b\"ok\":true\x7d"⟩

section
variable (l : Library) (a : Answers)

/-- `send_json`, with the effects that were set before. -/
def sendJson (effects : Effects) (j : Json) : Reply :=
  match if a.memory then l.print replyMax j else none with
  | some body => ⟨200, effects, body⟩
  | none => { error 503 "Not enough memory for this response." with effects }

/-! ## The session -/

/-- `equal_secret`: every byte up to `max` is looked at. -/
def equalSecret (x y : Bytes) (max : Nat) : Bool :=
  (List.range max).foldl (fun diff i => diff ||| ((x.getD i 0) ^^^ (y.getD i 0)).toNat)
    (x.length ^^^ y.length) = 0

/-- `authorized` -/
def authorized (r : Request) (s : State) : Bool :=
  match r.authorization with
  | some auth =>
    r.originAllowed && !s.session.isEmpty && decide (a.now < s.sessionUntil) &&
      decide (auth.take 7 = text "Bearer ") && equalSecret (auth.drop 7) s.session 64
  | none => false

/-- `body` -/
def bodyOf (r : Request) : Option Json :=
  if r.jsonContent ∧ r.body ≠ [] ∧ r.body.length ≤ bodyMax then (a.parse r.body).toOption else none

/-- The check of the password in `login_post`. -/
def passwordValid (r : Request) (s : State) : Bool :=
  match bodyOf a r with
  | none => false
  | some j =>
    match string j (text "password"), storePassword a.reads 64 s.store with
    | some password, some expected =>
      jsonKeys (some j) [text "password"] && decide (password.length ≤ 63) &&
        equalSecret password expected 63
    | _, _ => false

/-- A new session token. -/
def sessionToken : Bytes := Token.hexText (List.ofFn a.random)

/-- The start of a new minute of attempts, in `login_post`. -/
def resetWindow : M Unit :=
  modify fun s =>
    if Network.elapsed a.now s.failureWindow ≥ 60000 then { s with failures := 0, failureWindow := a.now }
    else s

/-- `login_post` -/
def loginPost (r : Request) : M Reply := do
  if !r.originAllowed then
    return error 403 "The request origin does not match this device."
  resetWindow a
  let s ← get
  if s.failures ≥ 5 then
    return error 429 "Too many attempts. Try again in one minute."
  -- Malformed input consumes an attempt too.
  modify fun s => { s with failures := s.failures + 1 }
  if !passwordValid a r s then
    return error 401 "Incorrect device password or invalid request."
  modify fun s => { s with
    session := sessionToken a, sessionUntil := a.now + 600000, failures := 0 }
  return sendJson l a {} (.object [stringMember "session" (sessionToken a), numberMember "expires_in" 600])

/-! ## Settings -/

/-- The value of a member, if it is a boolean. -/
def boolOf (j : Json) (key : String) : Option Bool :=
  match getItem (some j) (text key) with
  | some (.bool value) => some value
  | _ => none

/-- The value of a member, if it is a number that its `valueint` is equal to. -/
def intOf (j : Json) (key : String) : Option Int :=
  match getItem (some j) (text key) with
  | some (.number value) =>
    if value.den = 1 ∧ -2147483648 ≤ value ∧ value ≤ 2147483647 then some value.num else none
  | _ => none

/-- The password that `wifi_post` stores for a network that is not open. -/
def keptPassword (saved : WifiConfig) (ssid pass : Bytes) : Bytes :=
  if pass = [] ∧ cString saved.ssid = ssid ∧ saved.opened = 0 then saved.password
  else charArray 64 pass

/-- The record that `wifi_post` makes. -/
def wifiValue (saved : WifiConfig) (ssid pass : Bytes) (opened : Bool) : WifiConfig where
  ssid := charArray 33 ssid
  password := if opened then List.replicate 64 0 else keptPassword saved ssid pass
  opened := if opened then 1 else 0

/-- `wifi_post` -/
def wifiPost (j : Json) : M Reply := do
  let refused := error 400 "Use a network name of 1-32 bytes and a password of up to 63 bytes."
  match string j (text "ssid"), string j (text "password"), boolOf j "open" with
  | some ssid, some pass, some opened =>
    if !jsonKeys (some j) [text "ssid", text "password", text "open"] ∨ ssid = [] ∨ ssid.length > 32 ∨
        pass.length > 63 then return refused
    let s ← get
    let value := wifiValue (storeWifi a.reads s.store).1 ssid pass opened
    if !opened ∧ (cString value.password).length < 8 then
      return error 400 "A secured network requires a password of 8-63 bytes."
    let (saved, store) := saveWifi a.writes value s.store
    set { s with store }
    if !saved then return error 500 "Unable to save Wi-Fi settings."
    return ok { wifi := true }
  | _, _, _ => return refused

/-- `tunnel_post` on the record in NVS. -/
def tunnelPost (j : Json) : M Reply := do
  let s ← get
  let stored := storeTunnel a.reads s.store
  let d : Device := ⟨a.parse, a.scratch, a.memory, stored.2, a.writes⟩
  let (config, reply) := Monitor.tunnelPost d stored.1 j
  if reply.effect then
    set { s with store := (saveTunnel a.writes config s.store).2 }
    return ok { tunnel := true }
  else return error reply.status reply.message

/-- `gpio_post` -/
def gpioPost (j : Json) : M Reply := do
  let refused := error 400
    "Allowed pins: 4, 5, 6, 7. Mode: 0 disabled, 1 input, 2 output. Value: 0 or 1."
  match intOf j "pin", intOf j "mode", intOf j "value" with
  | some pin, some mode, some value =>
    if !jsonKeys (some j) [text "pin", text "mode", text "value"] then return refused
    let s ← get
    let (done, pins) := ioSet a.pins pin mode value s.pins
    set { s with pins }
    if !done then return refused
    return ok {}
  | _, _, _ => return refused

/-- A colour or the brightness of `/api/rgb`. -/
def lightValue (j : Json) (key : String) (most : Int) : Option Nat :=
  (intOf j key).bind fun v => if v < 0 ∨ v > most then none else some v.toNat

/-- The branch `/api/rgb` of `change_post`. -/
def rgbPost (j : Json) : M Reply := do
  let refused := error 400
    "RGB values must be integers 0-255; brightness 0-100; on must be true or false."
  if !jsonKeys (some j) [text "on", text "red", text "green", text "blue", text "brightness"] then
    return refused
  match boolOf j "on", lightValue j "red" 255, lightValue j "green" 255, lightValue j "blue" 255,
    lightValue j "brightness" 100 with
  | some on, some red, some green, some blue, some brightness =>
    let s ← get
    let (done, light) := ledSet a.shown on red green blue brightness s.light
    set { s with light }
    if !done then return error 503 "The built-in RGB LED driver is unavailable."
    return ok {}
  | _, _, _, _, _ => return refused

/-! ## Firmware -/

/-- A call of the module behind `ota_post`. -/
def otaCall {α : Type} (x : Ota.M α) : M α := do
  let s ← get
  let (value, ota) := x s.ota
  set { s with ota }
  return value

/-- The end of `ota_post`. -/
def otaReply (success started : Bool) (effects : Effects) : M Reply := do
  let s ← get
  let state := Ota.snapshot a.ota s.ota.upload
  if !success then return error 400 state.message
  return sendJson l a effects (.object ([boolMember "ok" true,
    numberMember "received" s.ota.upload.received, numberMember "chunk_size" Ota.chunkMax] ++
    if started then [stringMember "id" s.ota.upload.id] else []))

/-- `/api/ota/start` -/
def otaStart (j : Json) : M Reply := do
  let refused := error 400 "Provide the firmware size and SHA256 digest."
  match intOf j "size" with
  | some size =>
    if !jsonKeys (some j) [text "size", text "sha256"] ∨ size ≤ 0 then return refused
    let success ← otaCall (Ota.start a.ota l.format size.toNat (string j (text "sha256")))
    otaReply l a success success {}
  | none => return refused

/-- `/api/ota/chunk` -/
def otaChunk (j : Json) : M Reply := do
  let refused := error 400 "Invalid upload chunk."
  match intOf j "offset", string j (text "data") with
  | some offset, some data =>
    if !jsonKeys (some j) [text "id", text "offset", text "data"] ∨ offset < 0 ∨
        data.length > (Ota.chunkMax + 2) / 3 * 4 then return refused
    match l.base64 Ota.chunkMax data with
    | none => return refused
    | some bytes =>
      let success ← otaCall
        (Ota.write a.ota l.format (string j (text "id")) offset.toNat (some bytes))
      otaReply l a success false {}
  | _, _ => return refused

/-- `ota_post` -/
def otaPost (r : Request) (j : Json) : M Reply := do
  if r.path = text "/api/ota/start" then otaStart l a j
  else if r.path = text "/api/ota/chunk" then otaChunk l a j
  else if !jsonKeys (some j) [text "id"] then return error 400 "Provide an upload session id."
  else if r.path = text "/api/ota/finish" then
    let success ← otaCall (Ota.finish a.ota l.sha (string j (text "id")))
    otaReply l a success false { reboot := success }
  else if r.path = text "/api/ota/abort" then
    let success ← otaCall (Ota.abort (string j (text "id")))
    otaReply l a success false {}
  else return error 404 "OTA operation not found."

/-! ## Requests -/

/-- The branches of `change_post`, once the session and the body are there. -/
def operation (r : Request) (j : Json) : M Reply := do
  if r.path = text "/api/wifi" then wifiPost a j
  else if r.path = text "/api/tunnel" then tunnelPost a j
  else if r.path.take 9 = text "/api/ota/" then otaPost l a r j
  else if r.path = text "/api/tunnel/restart" ∧ jsonKeys (some j) [] then return ok { restart := true }
  else if r.path = text "/api/gpio" then gpioPost a j
  else if r.path = text "/api/rgb" then rgbPost a j
  else if r.path = text "/api/logout" then
    modify fun s => { s with session := [], sessionUntil := 0 }
    return ok {}
  else if r.path = text "/api/scan" ∧ jsonKeys (some j) [] then
    let s ← get
    let (started, net) := Network.requestScan s.net
    set { s with net }
    if started then return ok {}
    else return error 409 "Wi-Fi is busy. Wait for the current connection or scan to finish."
  else return error 400 "Invalid operation."

/-- `change_post` -/
def changePost (r : Request) : M Reply := do
  let s ← get
  if !authorized a r s then
    return error 401 "Unlock Settings with the device password. Sessions expire after 10 minutes."
  match bodyOf a r with
  | none => return error 400 "Send a JSON object of at most 2048 bytes."
  | some j => operation l a r j

/-- The object of an access point in `scan_get`. -/
def networkObject (ap : Network.AccessPoint) : Json :=
  .object [stringMember "ssid" ap.ssid, numberMember "rssi" ap.rssi, boolMember "secure" ap.secure,
    numberMember "channel" ap.channel]

/-- `scan_get` -/
def scanGet (r : Request) : M Reply := do
  let s ← get
  if !authorized a r s then return error 401 "Unlock Settings with the device password."
  let (aps, busy) := Network.scanResults 12 s.net
  return sendJson l a {} (.object [boolMember "busy" busy,
    (text "networks", .array (aps.map networkObject))])

/-- `status_get` -/
def statusGet (r : Request) : M Reply := do
  let s ← get
  let t := a.telemetry
  let config := (storeTunnel a.reads s.store).1
  return sendJson l a {} (statusObject t a.now r.setupAccess r.originAllowed r.remoteAccess
    (!config.token.isEmpty) config.hostname (Network.snapshotGet t.record t.clients s.net)
    s.ota.upload (Ota.snapshot a.ota s.ota.upload) (ioSnapshot a.pins s.pins) s.light.state)

/-- `monitor_api_dispatch` -/
def dispatch (r : Request) : M Reply := do
  if !r.post then
    if r.path = text "/api/status" then statusGet l a r
    else if r.path = text "/api/scan" then scanGet l a r
    else return error 404 "API endpoint not found."
  else if r.path = text "/api/login" then loginPost l a r
  else changePost l a r

/-! ## Effects -/

/-- `monitor_api_schedule_effects` -/
def scheduleEffects (effects : Effects) : M Unit :=
  if effects ≠ {} then
    modify fun s => { s with pending := s.pending.union effects, effectsAfter := a.scheduled + 1000 }
  else return

/-- A request as both of its callers serve it, under the lock. -/
def serve (r : Request) : M Reply := do
  let reply ← dispatch l a r
  scheduleEffects a reply.effects
  return reply

/-- `monitor_api_tick`: the effects that it goes on to carry out. `locked` is whether it gets the lock. -/
def tick (locked : Bool) : M Effects := do
  if !locked then return {}
  let s ← get
  set { s with ota := (Ota.tick a.ota s.ota).2 }
  if s.pending ≠ {} ∧ a.now ≥ s.effectsAfter then
    modify fun s => { s with
      pending := {}, net := if s.pending.wifi then Network.requestReload s.net else s.net }
    return s.pending
  else return {}

end

/-! ## Runs -/

/-- What happens to the device: a request from the LAN or the tunnel, and what the main task and the
Wi-Fi events do in between. -/
inductive Input
  | request (r : Request) (a : Answers)
  | tick (locked : Bool) (a : Answers)
  | network (reads : Bool) (t : Network.Tick)
  | event (o : Network.Other)

/-- One input. The network tick reads the stored settings. -/
def step (l : Library) : Input → State → State
  | .request r a, s => (serve l a r s).2
  | .tick locked a, s => (tick a locked s).2
  | .network reads t, s =>
    { s with net := (Network.tick { t with wifi := storeWifi reads s.store } s.net).2 }
  | .event o, s => { s with net := Network.other o s.net }

/-- Inputs one after the other. -/
def run (l : Library) (is : List Input) (s : State) : State := Past.run (step l) is s

end EspCfTunnel.Api
