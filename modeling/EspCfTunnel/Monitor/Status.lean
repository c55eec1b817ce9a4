import EspCfTunnel.Lifecycle
import EspCfTunnel.Monitor.Board
import EspCfTunnel.Monitor.Network
import EspCfTunnel.Monitor.Ota

/-!
# The status object of the monitor

`status_object` of `monitor_api.c`, field by field. What comes from the chip and from the connector is
`Telemetry`; the rest is the state of the monitor's own modules.
-/

namespace EspCfTunnel.Api

open EspCfTunnel Config Monitor

/-- `esp_cf_connect_stage`. -/
inductive Stage
  | unknown | tcp | tlsSetup | tlsHandshake | deadline | verified
  deriving DecidableEq, Repr

/-- `esp_cf_connect_stage_name` -/
def stageName : Stage → String
  | .unknown => "unknown"
  | .tcp => "tcp_connect"
  | .tlsSetup => "tls_setup"
  | .tlsHandshake => "tls_handshake"
  | .deadline => "application_deadline"
  | .verified => "verified"

/-- `esp_cf_tunnel_state_name` -/
def stateName : Lifecycle.State → String
  | .stopped => "Stopped"
  | .waitNetwork => "Waiting for network"
  | .waitTime => "Waiting for clock"
  | .discovery => "Discovering edge"
  | .connect => "Connecting"
  | .tls => "TLS handshake"
  | .http2 => "HTTP/2 negotiation"
  | .registering => "Registering"
  | .waitConfig => "Waiting for configuration"
  | .online => "Online"
  | .backoff => "Retry backoff"
  | .authFailed => "Authentication rejected"
  | .configFailed => "Configuration rejected"
  | .stopping => "Stopping"

/-- `esp_cf_connect_diagnostic` -/
structure Diagnostic where
  valid : Bool := false
  errorsAvailable : Bool := false
  stage : Stage := .unknown
  rc : Int := 0
  stateBefore : Int := 0
  stateAfter : Int := 0
  espError : Int := 0
  tlsError : Int := 0
  verifyFlags : Int := 0
  systemError : Int := 0
  errnoContext : Int := 0
  tlsAlert : Int := 0
  tlsVersion : Int := 0
  elapsedMs : Nat := 0
  atMs : Nat := 0
  utc : Int := 0
  attempt : Nat := 0
  heapFree : Nat := 0
  heapLargest : Nat := 0
  edgeIp : Bytes := []
  edgePort : Nat := 0
  deriving DecidableEq, Repr

/-- The fields of `esp_cf_tunnel_snapshot` that the status shows. -/
structure Connection where
  state : Lifecycle.State := .stopped
  registered : Bool := false
  configured : Bool := false
  configVersion : Int := -1
  attempts : Nat := 0
  retryAtMs : Nat := 0
  edgeIp : Bytes := []
  location : Bytes := []
  message : Bytes := []
  lastFailure : Bytes := []
  lastFailureMs : Nat := 0
  failures : Nat := 0
  heapCurrent : Nat := 0
  heapPeak : Nat := 0
  activeStreams : Nat := 0
  rejectedStreams : Nat := 0
  stackMin : Nat := 0
  lastConnect : Diagnostic := {}
  lastConnectFailure : Diagnostic := {}
  deriving DecidableEq, Repr

/-- What the chip, the Wi-Fi driver and the connector report. -/
structure Telemetry where
  revision : Nat := 0
  cores : Nat := 0
  cpuMhz : Nat := 0
  heapFree : Nat := 0
  heapMin : Nat := 0
  heapLargest : Nat := 0
  psramTotal : Nat := 0
  psramFree : Nat := 0
  flash : Nat := 0
  tasks : Nat := 0
  resetReason : Nat := 0
  temperature : Option Rat := none
  utc : Int := 0
  record : Option (Int × Nat) := none
  clients : Option Nat := none
  connection : Connection := {}

/-! ## Members -/

/-- `s` -/
def stringMember (k : String) (v : Bytes) : Bytes × Json := (text k, .string v)

/-- `n` of a whole number. -/
def numberMember (k : String) (v : Int) : Bytes × Json := (text k, .number v)

/-- `b` -/
def boolMember (k : String) (v : Bool) : Bytes × Json := (text k, .bool v)

/-- The members of `connect_status`. -/
def connectStatus (d : Diagnostic) : Json :=
  if !d.valid then .object [boolMember "valid" d.valid]
  else .object [boolMember "valid" d.valid, stringMember "stage" (text (stageName d.stage)),
    boolMember "errors_available" d.errorsAvailable, numberMember "rc" d.rc,
    numberMember "state_before" d.stateBefore, numberMember "state_after" d.stateAfter,
    numberMember "esp_error" d.espError, numberMember "tls_error" d.tlsError,
    numberMember "verify_flags" d.verifyFlags, numberMember "system_error" d.systemError,
    numberMember "errno_context" d.errnoContext, numberMember "tls_alert" d.tlsAlert,
    numberMember "tls_version" d.tlsVersion, numberMember "elapsed_ms" d.elapsedMs,
    numberMember "at_ms" d.atMs, numberMember "utc_s" d.utc, numberMember "attempt" d.attempt,
    stringMember "edge_ip" d.edgeIp, numberMember "edge_port" d.edgePort,
    numberMember "heap_free" d.heapFree, numberMember "heap_largest" d.heapLargest]

/-- `MONITOR_VERSION` -/
def monitorVersion : Bytes := text "0.4.0-dev"

/-- `MONITOR_AP_IP` -/
def apIp : Bytes := text "192.168.4.1"

/-- The members of the chip. -/
def chipMembers (t : Telemetry) (now : Nat) : List (Bytes × Json) :=
  [stringMember "version" monitorVersion, stringMember "chip" (text "ESP32-S3"),
    numberMember "revision" t.revision, numberMember "cores" t.cores, numberMember "cpu_mhz" t.cpuMhz,
    numberMember "uptime_ms" now, numberMember "heap_free" t.heapFree, numberMember "heap_min" t.heapMin,
    numberMember "heap_largest" t.heapLargest, numberMember "psram_total" t.psramTotal,
    numberMember "psram_free" t.psramFree, numberMember "flash_bytes" t.flash,
    numberMember "tasks" t.tasks, numberMember "reset_reason" t.resetReason,
    (text "temperature_c", t.temperature.elim .null Json.number)]

/-- The members of the network. -/
def networkMembers (net : Network.Snapshot) (now : Nat) : List (Bytes × Json) :=
  [boolMember "wifi_connected" net.connected, boolMember "wifi_connecting" net.connecting,
    stringMember "ssid" net.ssid, boolMember "wifi_associated" net.associated, stringMember "ip" net.ip,
    stringMember "gateway" net.gateway, numberMember "rssi" net.rssi, numberMember "channel" net.channel,
    numberMember "retries" net.retries, numberMember "disconnect_reason" net.disconnectReason,
    boolMember "ap_enabled" net.apEnabled, stringMember "ap_ssid" net.apSsid, stringMember "ap_ip" apIp,
    numberMember "ap_clients" net.apClients,
    numberMember "ap_remaining_s" (if net.apDeadline > now then ((net.apDeadline - now) / 1000 : Nat) else 0)]

/-- The members of the connector. -/
def connectionMembers (c : Connection) (now : Nat) : List (Bytes × Json) :=
  [stringMember "tunnel_state" (text (stateName c.state)), stringMember "tunnel_message" c.message,
    stringMember "edge_ip" c.edgeIp, stringMember "edge_location" c.location,
    boolMember "tunnel_registered" c.registered, boolMember "tunnel_configured" c.configured,
    numberMember "config_version" c.configVersion, numberMember "tunnel_attempts" c.attempts,
    numberMember "tunnel_retry_s"
      (if c.retryAtMs > now then ((c.retryAtMs - now + 999) / 1000 : Nat) else 0),
    numberMember "tunnel_h2_heap" c.heapCurrent, numberMember "tunnel_h2_peak" c.heapPeak,
    numberMember "tunnel_streams" c.activeStreams, numberMember "tunnel_stack_min" c.stackMin,
    stringMember "tunnel_last_failure" c.lastFailure, numberMember "tunnel_failures" c.failures,
    numberMember "tunnel_last_failure_ms" c.lastFailureMs,
    numberMember "tunnel_rejected_streams" c.rejectedStreams,
    (text "tunnel_connect", connectStatus c.lastConnect),
    (text "tunnel_connect_failure", connectStatus c.lastConnectFailure)]

/-- The object of the firmware update: `update` is what `monitor_ota_snapshot` finds out. -/
def otaObject (u : Ota.Upload) (update : Ota.Snapshot) : Json :=
  .object [boolMember "available" update.available, boolMember "active" u.active,
    boolMember "ready" u.ready, numberMember "received" u.received, numberMember "total" u.total,
    numberMember "capacity" update.capacity, stringMember "running" update.running,
    stringMember "target" u.target, stringMember "version" u.version,
    stringMember "message" (text update.message)]

/-- The object of a pin. -/
def pinObject (g : Gpio) : Json :=
  .object [numberMember "pin" g.pin, numberMember "mode" g.mode, numberMember "level" g.level]

/-- The object of the light. -/
def lightObject (r : Rgb) : Json :=
  .object [boolMember "available" r.available, boolMember "on" r.on, numberMember "pin" 48,
    numberMember "red" r.red, numberMember "green" r.green, numberMember "blue" r.blue,
    numberMember "brightness" r.brightness]

/-- `status_object`, when there is memory for it. `stored` is whether there is a token. -/
def statusObject (t : Telemetry) (now : Nat) (setup admin remote stored : Bool) (hostname : Bytes)
    (net : Network.Snapshot) (u : Ota.Upload) (update : Ota.Snapshot) (pins : List Gpio) (rgb : Rgb) :
    Json :=
  .object (chipMembers t now ++ networkMembers net now ++
    [boolMember "setup_access" setup, boolMember "admin_access" admin, boolMember "remote_access" remote,
      boolMember "clock_valid" (t.utc > 1704067200), stringMember "internet" (text "Not checked"),
      numberMember "utc_s" t.utc, numberMember "sntp_sync_count" net.sntpSyncCount,
      numberMember "sntp_last_sync_utc" net.sntpLastSync] ++
    connectionMembers t.connection now ++
    [(text "ota", otaObject u update), boolMember "token_stored" stored, stringMember "hostname" hostname,
      (text "gpio", .array (pins.map pinObject)), (text "rgb", lightObject rgb)])

end EspCfTunnel.Api
