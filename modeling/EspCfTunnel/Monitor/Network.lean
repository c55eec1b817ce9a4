import EspCfTunnel.Lib.StateLogic
import EspCfTunnel.Monitor.Store

/-!
# The Wi-Fi of the monitor

`monitor_network.c`: the station, the setup access point and the scan. `monitor_network_tick` runs on
the main task; the event handler and the requests run on others, and may come between any two of its
critical sections. `Tick.between` says what they do there, so a run over all of its values is a run over
all interleavings. The log says what the driver was asked for, newest first.
-/

namespace EspCfTunnel.Network

open EspCfTunnel StateLogic Monitor

/-- `MONITOR_SETUP_SECONDS`, in milliseconds. -/
abbrev setupMs : Nat := 600000

/-- `monitor_network_snapshot` -/
structure Snapshot where
  connected : Bool := false
  connecting : Bool := false
  associated : Bool := false
  apEnabled : Bool := false
  scanning : Bool := false
  scanReady : Bool := false
  retries : Nat := 0
  disconnectReason : Nat := 0
  apClients : Nat := 0
  apDeadline : Nat := 0
  sntpSyncCount : Nat := 0
  sntpLastSync : Int := 0
  ip : Bytes := []
  gateway : Bytes := []
  ssid : Bytes := []
  apSsid : Bytes := []
  rssi : Int := 0
  channel : Nat := 0
  deriving DecidableEq, Repr

/-- `monitor_ap` -/
structure AccessPoint where
  ssid : Bytes
  rssi : Int
  secure : Bool
  channel : Nat
  deriving DecidableEq, Repr

/-- What the Wi-Fi driver was asked for. A mode is noted when the driver takes it, with the time of the
tick. -/
inductive Drive
  | connect (now : Nat)
  | disconnect
  | mode (now : Nat) (setup : Bool)
  | scan
  | station (ssid password : Bytes) (opened : Bool)
  | setup (ssid password : Bytes)
  | clock
  deriving DecidableEq, Repr

structure State where
  state : Snapshot := {}
  scanList : List AccessPoint := []
  reloadRequested : Bool := false
  scanRequested : Bool := false
  scanFinished : Bool := false
  clockRequested : Bool := false
  hasCredentials : Bool := false
  nextRetry : Nat := 0
  buttonSince : Nat := 0
  connectionDeadline : Nat := 0
  buttonHandled : Bool := false
  log : List Drive := []
  deriving DecidableEq, Repr

abbrev M := StateM State

/-- The difference of two times, in `uint64_t`. -/
def elapsed (now since : Nat) : Nat := (now + 2 ^ 64 - since) % 2 ^ 64

theorem elapsed_eq {now since : Nat} (h : since ≤ now) (hnow : now < 2 ^ 64) :
    elapsed now since = now - since := by
  rw [elapsed]
  omega

/-! ## The other tasks -/

/-- What other tasks do: the events of `wifi_event` with the time and what comes with them,
`clock_synced`, and the two requests of the API. -/
inductive Other
  | gotIp (now : Nat) (ip gateway : Bytes)
  | associated (now : Nat)
  | disconnected (now : Nat) (reason random : Nat)
  | scanDone
  | synced (utc : Int)
  | reload
  | scan
  deriving DecidableEq, Repr

/-- `STA_GOT_IP` of `wifi_event`. -/
def gotIp (now : Nat) (ip gateway : Bytes) (s : State) : State :=
  { s with
    connectionDeadline := 0
    clockRequested := true
    state := { s.state with
      connected := true, connecting := false, retries := 0, disconnectReason := 0,
      ip := ip, gateway := gateway,
      apDeadline := if s.state.apEnabled then now + setupMs else s.state.apDeadline } }

/-- `STA_CONNECTED` of `wifi_event`. -/
def staConnected (now : Nat) (s : State) : State :=
  { s with
    connectionDeadline := now + 20000
    state := { s.state with associated := true, connecting := true } }

/-- The time that `STA_DISCONNECTED` waits before the next attempt, for this many retries. -/
def backoff (retries random : Nat) : Nat := 1000 <<< min retries 5 + random % 1000

/-- `STA_DISCONNECTED` of `wifi_event`. -/
def staDisconnected (now reason random : Nat) (s : State) : State :=
  let retries := if s.state.retries < 1000000 then s.state.retries + 1 else s.state.retries
  { s with
    connectionDeadline := 0
    nextRetry := now + backoff retries random
    state := { s.state with
      connected := false, connecting := false, associated := false, ip := [], gateway := [],
      disconnectReason := reason, retries := retries, apDeadline := 0 } }

/-- `monitor_network_reload` -/
def requestReload (s : State) : State := { s with reloadRequested := true }

/-- `monitor_network_scan` -/
def requestScan (s : State) : Bool × State :=
  if s.state.scanning ∨ s.state.connecting then (false, s)
  else (true, { s with
    scanRequested := true, state := { s.state with scanning := true, scanReady := false } })

def other : Other → State → State
  | .gotIp now ip gateway, s => gotIp now ip gateway s
  | .associated now, s => staConnected now s
  | .disconnected now reason random, s => staDisconnected now reason random s
  | .scanDone, s => { s with scanFinished := true }
  | .synced utc, s => { s with
      state := { s.state with sntpSyncCount := s.state.sntpSyncCount + 1, sntpLastSync := utc } }
  | .reload, s => requestReload s
  | .scan, s => (requestScan s).2

/-- `monitor_network_scan_results`: the list and whether a scan is under way. -/
def scanResults (cap : Nat) (s : State) : List AccessPoint × Bool := (s.scanList.take cap, s.state.scanning)

/-- `monitor_network_snapshot_get`; the arguments are the records of the driver, if it has them. -/
def snapshotGet (record : Option (Int × Nat)) (clients : Option Nat) (s : State) : Snapshot :=
  let out := s.state
  let out := match record with
    | some (rssi, channel) => if out.associated then { out with rssi, channel } else out
    | none => out
  match clients with
  | some n => if out.apEnabled then { out with apClients := n } else out
  | none => out

/-! ## The main task -/

/-- The places of a tick where other tasks may come in: before a call of the driver and before a
critical section. -/
inductive Point
  | disconnect | setStation | station | setMode | mode | clock | timeout | setNeeded | needed
  | closeMode | close | scan | scanFailed | results | connect | connecting | setButton | button
  deriving DecidableEq, Repr

/-- What a tick reads and what the driver answers, with what other tasks do at each place. -/
structure Tick where
  now : Nat
  later : Point → Nat := fun _ => now
  wifi : WifiConfig × Bool := ({}, false)
  configSet : Bool := true
  modeSet : Point → Bool := fun _ => true
  scanStarted : Bool := true
  records : Option (List AccessPoint) := none
  connected : Bool := true
  button : Bool := false
  between : Point → List Other := fun _ => []

/-- The booleans that the first critical section of a tick takes. -/
structure Taken where
  reload : Bool
  scan : Bool
  finished : Bool
  clock : Bool
  connect : Bool
  apNeeded : Bool
  apExpired : Bool
  timedOut : Bool
  deriving DecidableEq, Repr

section
variable (t : Tick)

/-- Other tasks run. -/
def others (p : Point) : M Unit := modify fun s => (t.between p).foldl (fun s o => other o s) s

/-- The driver is called. -/
def drive (p : Point) (d : Drive) : M Unit := do
  others t p
  modify fun s => { s with log := d :: s.log }

/-- The first critical section of `monitor_network_tick`. -/
def take : M Taken := do
  let s ← get
  let n := s.state
  let timedOut := n.connecting && s.connectionDeadline ≠ 0 && s.connectionDeadline ≤ t.now
  set { s with
    reloadRequested := false, scanRequested := false, scanFinished := false, clockRequested := false
    state := { n with connecting := n.connecting && !timedOut }
    connectionDeadline := if timedOut then 0 else s.connectionDeadline
    nextRetry := if timedOut then t.now + 5000 else s.nextRetry }
  return {
    reload := s.reloadRequested
    scan := s.scanRequested
    finished := s.scanFinished
    clock := s.clockRequested
    connect := s.hasCredentials && !n.connected && !n.connecting && !n.scanning && s.nextRetry ≤ t.now
    apNeeded := !n.connected && !n.apEnabled
    apExpired := n.apEnabled && n.connected && n.apDeadline ≠ 0 && n.apDeadline ≤ t.now
    timedOut := timedOut }

/-- `set_station` -/
def setStation : M Unit := do
  let saved := t.wifi.1
  let ssid := Config.cString saved.ssid
  let available := t.wifi.2 && !ssid.isEmpty
  drive t .setStation (if available then
    .station ssid (Config.cString saved.password) (saved.opened ≠ 0) else .station [] [] false)
  others t .station
  modify fun s => { s with
    hasCredentials := available && t.configSet
    nextRetry := t.later .station + 1000
    state := { s.state with ssid := ssid, retries := 0 } }

/-- `setup_enable`, with the places before the driver is called and before its critical section. -/
def setupEnable (before after : Point) : M Unit := do
  if !t.modeSet before then others t before
  else
    drive t before (.mode t.now true)
    others t after
    modify fun s => { s with state := { s.state with
      apEnabled := true, apDeadline := if s.state.connected then t.later after + setupMs else 0 } }

/-- The reload of a tick. -/
def reloadStation : M Unit := do
  drive t .disconnect .disconnect
  setStation t
  setupEnable t .setMode .mode

/-- The end of the setup window. -/
def closeSetup : M Unit := do
  if !t.modeSet .closeMode then others t .closeMode
  else
    drive t .closeMode (.mode t.now false)
    others t .close
    modify fun s => { s with state := { s.state with apEnabled := false } }

/-- The start of a scan. -/
def startScan : M Unit := do
  drive t .scan .scan
  if !t.scanStarted then
    others t .scanFailed
    modify fun s => { s with state := { s.state with scanning := false } }

/-- The records of a scan. -/
def takeResults : M Unit := do
  others t .results
  modify fun s => { s with
    scanList := (t.records.getD []).take 12
    state := { s.state with scanning := false, scanReady := t.records.isSome } }

/-- An attempt to connect. -/
def tryConnect : M Unit := do
  drive t .connect (.connect t.now)
  others t .connecting
  modify fun s => { s with
    connectionDeadline := if t.connected then t.now + 30000 else 0
    nextRetry := t.now + 5000
    state := { s.state with connecting := t.connected } }

/-- The button of a tick. -/
def pressButton : M Unit := do
  if t.button then
    modify fun s => { s with buttonSince := if s.buttonSince = 0 then t.now else s.buttonSince }
    let s ← get
    if !s.buttonHandled ∧ elapsed t.now s.buttonSince ≥ 3000 then
      setupEnable t .setButton .button
      modify fun s => { s with buttonHandled := true }
  else
    modify fun s => { s with buttonSince := 0, buttonHandled := false }

/-- `monitor_network_tick` -/
def tick : M Unit := do
  let l ← take t
  if l.reload then reloadStation t
  if l.clock then drive t .clock .clock
  if l.timedOut then drive t .timeout .disconnect
  if l.apNeeded then setupEnable t .setNeeded .needed
  if l.apExpired then closeSetup t
  if l.scan then startScan t
  if l.finished then takeResults t
  if l.connect && !l.reload && !l.timedOut then tryConnect t
  pressButton t

/-- The digits of `%02X`. -/
def upperHex (b : UInt8) : Bytes :=
  [b.toNat / 16, b.toNat % 16].map fun n => UInt8.ofNat (if n < 10 then 48 + n else 55 + n)

/-- `monitor_network_start`: without a device password nothing is started. `mac` is the end of the
station's address. -/
def start (password : Option Bytes) (mac : Bytes) (configSet : Bool) : M Bool := do
  match password with
  | none => return false
  | some password =>
    let ssid := text "ESP-Monitor-" ++ mac.flatMap upperHex
    drive t .setMode (.mode t.now true)
    modify fun s => { s with state := { s.state with apSsid := ssid } }
    drive t .mode (.setup ssid password)
    if !configSet then return false
    setStation t
    if !t.configSet then return false
    modify fun s => { s with state := { s.state with apEnabled := true } }
    return true

end

end EspCfTunnel.Network
