import EspCfTunnel.Monitor.Settings

/-!
# The store of the monitor

`monitor_store.c`: the device password and two records in a partition of NVS. A record is the bytes
of its C structure, arrays of characters with what stands behind their NUL. NVS does what it is
documented to do: a blob is read whole if the buffer has room for it, and a write counts once it is
committed.
-/

namespace EspCfTunnel.Monitor

open EspCfTunnel Config

/-- What `memcpy` of a string into `n` zeroed characters leaves. -/
def charArray (n : Nat) (s : Bytes) : Bytes := s ++ List.replicate (n - s.length) 0

theorem length_charArray {n : Nat} {s : Bytes} (h : s.length ≤ n) : (charArray n s).length = n := by
  simp only [charArray, List.length_append, List.length_replicate]
  omega

theorem cString_charArray {n : Nat} {s : Bytes} (h : 0 ∉ s) : cString (charArray n s) = s := by
  rw [cString, charArray, List.takeWhile_append_of_pos (by
    intro c hc
    simpa using fun h0 : c = 0 => h (h0 ▸ hc))]
  cases n - s.length with
  | zero => simp
  | succ k => simp [List.replicate_succ]

theorem zero_mem_charArray {n : Nat} {s : Bytes} (h : s.length < n) : 0 ∈ charArray n s := by
  rw [charArray]
  exact List.mem_append_right _ (List.mem_replicate.2 ⟨by omega, rfl⟩)

/-! ## The records -/

/-- `monitor_wifi_config`, with its arrays as they lie in memory. -/
structure WifiConfig where
  ssid : Bytes := List.replicate 33 0
  password : Bytes := List.replicate 64 0
  opened : UInt8 := 0
  deriving DecidableEq, Repr

namespace WifiConfig

/-- The bytes of the structure. -/
def bytes (c : WifiConfig) : Bytes := c.ssid ++ (c.password ++ [c.opened])

/-- A structure of these bytes, `sizeof(monitor_wifi_config)` of them. -/
def ofBytes (b : Bytes) : WifiConfig := ⟨b.take 33, (b.drop 33).take 64, b.getD 97 0⟩

/-- The check of `monitor_store_wifi`. -/
def valid (c : WifiConfig) : Bool := 0 ∈ c.ssid ∧ 0 ∈ c.password ∧ c.opened ≤ 1

theorem ofBytes_bytes {c : WifiConfig} (hs : c.ssid.length = 33) (hp : c.password.length = 64) :
    ofBytes c.bytes = c := by
  obtain ⟨ssid, password, opened⟩ := c
  dsimp only at hs hp
  have h97 : (ssid ++ (password ++ [opened])).getD 97 0 = opened := by
    rw [← List.append_assoc, List.getD_eq_getElem?_getD,
      List.getElem?_append_right (by simp [hs, hp])]
    simp [hs, hp]
  simp only [ofBytes, bytes, h97, ← hs, List.take_left, List.drop_left]
  rw [← hp, List.take_left]

theorem length_bytes {c : WifiConfig} (hs : c.ssid.length = 33) (hp : c.password.length = 64) :
    c.bytes.length = 98 := by
  simp [bytes, hs, hp]

end WifiConfig

/-- The bytes of `monitor_tunnel_config`. -/
def TunnelConfig.bytes (c : TunnelConfig) : Bytes :=
  charArray (Token.tokenMax + 1) c.token ++ charArray 254 c.hostname

/-- The arrays of a structure of these bytes. -/
def tunnelArrays (b : Bytes) : Bytes × Bytes := (b.take (Token.tokenMax + 1), b.drop (Token.tokenMax + 1))

/-! ## The partition -/

/-- The entries of the namespace `monitor`. -/
structure Store where
  password : Option Bytes := none
  wifi : Option Bytes := none
  tunnel : Option Bytes := none
  deriving DecidableEq, Repr

/-- `blob` for reading: `reads` if the lock is had and NVS can be opened and read. -/
def readBlob (reads : Bool) (size : Nat) (entry : Option Bytes) : Option Bytes :=
  match entry with
  | some b => if reads ∧ b.length = size then some b else none
  | none => none

/-- `monitor_store_password` into an array of `cap` characters. -/
def storePassword (reads : Bool) (cap : Nat) (s : Store) : Option Bytes :=
  if cap < 17 then none
  else match s.password with
    | some p => if reads ∧ p.length + 1 ≤ cap ∧ ¬ p.length < 12 then some p else none
    | none => none

/-- `monitor_store_wifi`: what it leaves in `out`, and whether it says `ESP_OK`. -/
def storeWifi (reads : Bool) (s : Store) : WifiConfig × Bool :=
  match readBlob reads 98 s.wifi with
  | some b => if (WifiConfig.ofBytes b).valid then (WifiConfig.ofBytes b, true) else ({}, false)
  | none => ({}, false)

/-- `monitor_save_wifi` -/
def saveWifi (writes : Bool) (c : WifiConfig) (s : Store) : Bool × Store :=
  if writes then (true, { s with wifi := some c.bytes }) else (false, s)

/-- `monitor_store_tunnel` -/
def storeTunnel (reads : Bool) (s : Store) : TunnelConfig × Bool :=
  match readBlob reads (Token.tokenMax + 1 + 254) s.tunnel with
  | some b =>
    if 0 ∈ (tunnelArrays b).1 ∧ 0 ∈ (tunnelArrays b).2 then
      (⟨cString (tunnelArrays b).1, cString (tunnelArrays b).2⟩, true)
    else ({}, false)
  | none => ({}, false)

/-- `monitor_save_tunnel`. Only zeroes stand behind the strings of a record that `tunnel_post` writes. -/
def saveTunnel (writes : Bool) (c : TunnelConfig) (s : Store) : Bool × Store :=
  if writes then (true, { s with tunnel := some c.bytes }) else (false, s)

/-! ## What was saved is loaded -/

/-- A record that is saved and read again is the same, if its strings end within their arrays. -/
theorem storeWifi_saveWifi {c : WifiConfig} (hs : c.ssid.length = 33) (hp : c.password.length = 64)
    (hvalid : c.valid = true) (s : Store) : storeWifi true (saveWifi true c s).2 = (c, true) := by
  have hread : readBlob true 98 (some c.bytes) = some c.bytes := by
    simp [readBlob, WifiConfig.length_bytes hs hp]
  simp only [saveWifi, storeWifi, if_true, hread, WifiConfig.ofBytes_bytes hs hp, hvalid]

theorem tunnelArrays_bytes {c : TunnelConfig} (ht : c.token.length ≤ Token.tokenMax) :
    tunnelArrays c.bytes = (charArray (Token.tokenMax + 1) c.token, charArray 254 c.hostname) := by
  have hlen : (charArray (Token.tokenMax + 1) c.token).length = Token.tokenMax + 1 :=
    length_charArray (by omega)
  rw [tunnelArrays, TunnelConfig.bytes]
  refine Prod.ext ?_ ?_
  · exact List.take_left' hlen
  · exact List.drop_left' hlen

theorem storeTunnel_saveTunnel {c : TunnelConfig} (ht : c.token.length ≤ Token.tokenMax)
    (ht0 : 0 ∉ c.token) (hh : c.hostname.length ≤ 253) (hh0 : 0 ∉ c.hostname) (s : Store) :
    storeTunnel true (saveTunnel true c s).2 = (c, true) := by
  have hlen : c.bytes.length = Token.tokenMax + 1 + 254 := by
    rw [TunnelConfig.bytes, List.length_append, length_charArray (by omega), length_charArray (by omega)]
  have hread : readBlob true (Token.tokenMax + 1 + 254) (some c.bytes) = some c.bytes := by
    simp [readBlob, hlen]
  simp only [saveTunnel, storeTunnel, if_true, hread, tunnelArrays_bytes ht]
  rw [if_pos ⟨zero_mem_charArray (by omega), zero_mem_charArray (by omega)⟩, cString_charArray ht0,
    cString_charArray hh0]

end EspCfTunnel.Monitor
