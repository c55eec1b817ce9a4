import EspCfTunnel.Lib.StateLogic
import EspCfTunnel.Token

/-!
# Firmware uploads

`monitor_ota.c`: one upload at a time, taken in chunks that go to the inactive OTA slot and into a
hash, and committed by `esp_ota_set_boot_partition`. The calls of ESP-IDF and PSA do what they are
documented to do (`otaBegin`, `otaWrite`, `otaEnd`, `otaAbort` and the hash operation, whose state is
the bytes it was given), and each may fail as `Answers` foretells. The log keeps what happened, newest
first: the starts and chunks that were accepted, what was written to flash, and each call that selects
a boot partition.
-/

namespace EspCfTunnel.Ota

open EspCfTunnel StateLogic

/-- `MONITOR_OTA_CHUNK`. -/
abbrev chunkMax : Nat := 1408

/-- `esp_partition_t`. -/
structure Partition where
  address : Nat
  size : Nat
  label : Bytes
  deriving DecidableEq, Repr

/-- The image format of ESP-IDF: the sizes of its structures, their fields, the values that are
expected in them, and the project name of the running application. -/
structure Format where
  headerSize : Nat
  segmentSize : Nat
  appSize : Nat
  magic : Bytes → Nat
  chipId : Bytes → Nat
  hashAppended : Bytes → Bool
  magicWord : Bytes → Nat
  projectName : Bytes → Bytes
  version : Bytes → Bytes
  imageMagic : Nat
  firmwareChip : Nat
  appMagic : Nat
  current : Bytes

/-- `upload`, with the fields of its `status`. The hash operation is the bytes it has hashed, if it is
set up. -/
structure Upload where
  active : Bool := false
  ready : Bool := false
  received : Nat := 0
  total : Nat := 0
  target : Bytes := []
  version : Bytes := []
  message : String := ""
  partition : Option Partition := none
  handle : Nat := 0
  isOpen : Bool := false
  id : Bytes := List.replicate 32 0
  expected : Bytes := List.replicate 32 0
  hash : Option Bytes := none
  activityMs : Nat := 0
  deriving DecidableEq, Repr

/-- An OTA handle that is open: where its next bytes go. -/
structure Handle where
  number : Nat
  partition : Partition
  offset : Nat
  deriving DecidableEq, Repr

/-- What happened. -/
inductive Event
  | start (partition : Partition) (size : Nat) (sha256 id : Bytes)
  | flash (partition : Partition) (offset : Nat) (bytes : Bytes)
  | accept (bytes : Bytes)
  | boot (partition : Option Partition)
  deriving DecidableEq, Repr

structure State where
  upload : Upload := {}
  handles : List Handle := []
  log : List Event := []
  deriving DecidableEq, Repr

/-- What the system answers during one call. -/
structure Answers where
  running : Option Partition := none
  next : Option Partition := none
  now : Nat := 0
  random : Fin 16 → UInt8 := fun _ => 0
  crypto : Bool := true
  setup : Bool := true
  begun : Option Nat := none
  written : Bool := true
  updated : Bool := true
  finished : Bool := true
  ended : Bool := true
  booted : Bool := true

abbrev M := StateM State

section
variable (a : Answers)

/-! ## ESP-IDF and PSA -/

/-- `esp_ota_begin` with `OTA_WITH_SEQUENTIAL_WRITES`. -/
def otaBegin (p : Option Partition) : M (Option Nat) := do
  match p, a.begun with
  | some p, some h =>
    modify fun s => { s with handles := ⟨h, p, 0⟩ :: s.handles }
    return some h
  | _, _ => return none

/-- `esp_ota_write` -/
def otaWrite (h : Nat) (bytes : Bytes) : M Bool := do
  let s ← get
  match s.handles.find? (·.number = h) with
  | some handle =>
    if a.written then
      set { s with
        handles := s.handles.map fun k : Handle =>
          if k.number = h then { k with offset := k.offset + bytes.length } else k,
        log := .flash handle.partition handle.offset bytes :: s.log }
      return true
    else return false
  | none => return false

/-- A handle is closed. -/
def closeHandle (h : Nat) : M Unit :=
  modify fun s => { s with handles := s.handles.filter (·.number ≠ h) }

/-- `esp_ota_abort` -/
def otaAbort (h : Nat) : M Unit := closeHandle h

/-- `esp_ota_end`, which closes the handle also when the image is not valid. -/
def otaEnd (h : Nat) : M Bool := do
  let s ← get
  closeHandle h
  return a.ended && s.handles.any (·.number = h)

/-- `esp_ota_set_boot_partition` -/
def setBoot (p : Option Partition) : M Bool := do
  modify fun s => { s with log := .boot p :: s.log }
  return a.booted && p.isSome

/-- `psa_crypto_init` and `psa_hash_setup`. -/
def hashSetup : M Bool := do
  if !a.crypto then return false
  let s ← get
  if a.setup && s.upload.hash.isNone then
    set { s with upload := { s.upload with hash := some [] } }
    return true
  else return false

/-- `psa_hash_update` -/
def hashUpdate (bytes : Bytes) : M Bool := do
  let s ← get
  match s.upload.hash with
  | some data =>
    if a.updated then
      set { s with upload := { s.upload with hash := some (data ++ bytes) } }
      return true
    else return false
  | none => return false

/-- `psa_hash_finish`; `sha` is the hash function. -/
def hashFinish (sha : Bytes → Bytes) : M (Option Bytes) := do
  let s ← get
  match s.upload.hash with
  | some data =>
    set { s with upload := { s.upload with hash := none } }
    return if a.finished then some (sha data) else none
  | none => return none

/-! ## `monitor_ota.c` -/

/-- `fail` -/
def fail (reason : String) : M Bool := do
  modify fun s => { s with upload := { s.upload with message := reason } }
  return false

/-- `release` -/
def release : M Unit := do
  let s ← get
  if s.upload.isOpen then otaAbort s.upload.handle
  modify fun s => { s with upload := { s.upload with
    isOpen := false, active := false, hash := none,
    id := List.replicate 32 0, expected := List.replicate 32 0 } }

/-- `matches` -/
def idMatches (u : Upload) (id : Option Bytes) : Bool :=
  u.active && id.any fun id => id.length = 32 ∧ id = u.id

/-- What `monitor_ota_snapshot` finds out. -/
structure Snapshot where
  available : Bool
  capacity : Nat
  running : Bytes
  message : String

/-- Whether there is another slot than the running one. -/
def available : Bool :=
  match a.next, a.running with
  | some next, some running => next.address ≠ running.address
  | _, _ => false

/-- `monitor_ota_snapshot` -/
def snapshot (u : Upload) : Snapshot :=
  ⟨available a, a.next.elim 0 Partition.size, a.running.elim (text "unknown") Partition.label,
    if u.message ≠ "" then u.message
    else if available a then "Ready for a firmware image."
    else "Install the OTA partition layout over USB first."⟩

variable (sha : Bytes → Bytes) (f : Format)

/-- `monitor_ota_start` -/
def start (size : Nat) (sha256 : Option Bytes) : M Bool := do
  let s ← get
  let status := snapshot a s.upload
  if s.upload.active ∨ s.upload.ready then
    fail "An update is already in progress or awaiting restart."
  else if !status.available then
    fail "OTA partitions unavailable. Install the OTA layout over USB first."
  else if size < f.headerSize + f.segmentSize + f.appSize ∨ size > status.capacity then
    fail "The firmware size is outside the inactive OTA slot capacity."
  else match sha256 with
    | none => fail "A 64-character SHA256 digest is required."
    | some digest =>
      if digest.length ≠ 64 then fail "A 64-character SHA256 digest is required."
      else match Token.hexBytes digest with
        | none => fail "Invalid SHA256 digest."
        | some expected => do
          let id := Token.hexText (List.ofFn a.random)
          modify fun s => { s with upload := {
            active := true, total := size, partition := a.next, expected := expected, id := id,
            target := a.next.elim [] Partition.label, activityMs := a.now } }
          if !(← hashSetup a) then
            release
            fail "SHA256 initialization failed."
          else
            modify fun s => { s with
              upload := { s.upload with message := "Upload started." },
              log := a.next.elim s.log fun p => .start p size digest id :: s.log }
            return true

/-- The end of `monitor_ota_write`, once the slot is open. -/
def writeChunk (bytes : Bytes) : M Bool := do
  let s ← get
  let written ← otaWrite a s.upload.handle bytes
  let hashed ← if written then hashUpdate a bytes else pure false
  if !hashed then
    release
    fail "Firmware write failed; the running image is unchanged."
  else
    modify fun s => { s with
      upload := { s.upload with received := s.upload.received + bytes.length, activityMs := a.now },
      log := .accept bytes :: s.log }
    return true

/-- The part of `monitor_ota_write` that looks at the first chunk and opens the slot. -/
def openSlot (bytes : Bytes) : M Bool := do
  let header := bytes.take f.headerSize
  let app := (bytes.drop (f.headerSize + f.segmentSize)).take f.appSize
  if f.magic header ≠ f.imageMagic ∨ f.chipId header ≠ f.firmwareChip ∨ !f.hashAppended header ∨
      f.magicWord app ≠ f.appMagic ∨ f.projectName app ≠ f.current then
    release
    fail "Use an ESP32-S3 ESP Monitor application .bin, not a merged flash image."
  else
    modify fun s => { s with upload := { s.upload with version := f.version app } }
    let s ← get
    match ← otaBegin a s.upload.partition with
    | none =>
      release
      fail "Unable to open the inactive OTA slot."
    | some h =>
      modify fun s => { s with upload := { s.upload with handle := h, isOpen := true } }
      return true

/-- Subtraction of `size_t`. -/
def sizeSub (m n : Nat) : Nat := if n ≤ m then m - n else m + 2 ^ 32 - n

/-- `monitor_ota_write` -/
def write (id : Option Bytes) (offset : Nat) (chunk : Option Bytes) : M Bool := do
  let s ← get
  if !idMatches s.upload id then fail "The upload session is not active."
  else match chunk with
    | none => fail "Invalid chunk size or offset; upload was not advanced."
    | some bytes =>
      if offset ≠ s.upload.received ∨ bytes.length = 0 ∨ bytes.length > chunkMax ∨
          bytes.length > sizeSub s.upload.total s.upload.received then
        fail "Invalid chunk size or offset; upload was not advanced."
      else if s.upload.isOpen then writeChunk a bytes
      else if bytes.length < f.headerSize + f.segmentSize + f.appSize then
        fail "The first chunk must include the firmware descriptor."
      else if !(← openSlot a f bytes) then return false
      else writeChunk a bytes

/-- `monitor_ota_finish` -/
def finish (id : Option Bytes) : M Bool := do
  let s ← get
  if !idMatches s.upload id ∨ !s.upload.isOpen ∨ s.upload.received ≠ s.upload.total then
    fail "The firmware upload is incomplete."
  else
    let actual ← hashFinish a sha
    if actual.all fun actual => actual.length ≠ 32 ∨ actual ≠ s.upload.expected then
      release
      fail "SHA256 mismatch; the running image is unchanged."
    else
      let ended ← otaEnd a s.upload.handle
      modify fun s => { s with upload := { s.upload with isOpen := false } }
      if !ended then
        release
        fail "ESP image validation failed; the running image is unchanged."
      else
        let booted ← setBoot a s.upload.partition
        release
        if !booted then fail "Unable to select the verified image for the next boot."
        else
          modify fun s => { s with upload := { s.upload with
            ready := true, message := "Firmware verified. Restarting into the updated image." } }
          return true

/-- `monitor_ota_abort` -/
def abort (id : Option Bytes) : M Bool := do
  let s ← get
  if !idMatches s.upload id then fail "The upload session is not active."
  else
    release
    modify fun s => { s with upload := { s.upload with
      message := "Upload cancelled; the running image is unchanged." } }
    return true

/-- `monitor_ota_tick` -/
def tick : M Unit := do
  let s ← get
  if s.upload.active ∧ (a.now + 2 ^ 64 - s.upload.activityMs) % 2 ^ 64 > 60000 then
    release
    let _ ← fail "Upload expired after 60 seconds without a chunk."

/-- A call of the module. -/
inductive Call
  | start (size : Nat) (sha256 : Option Bytes)
  | write (id : Option Bytes) (offset : Nat) (chunk : Option Bytes)
  | finish (id : Option Bytes)
  | abort (id : Option Bytes)
  | tick

def call : Call → M Unit
  | .start size sha256 => do let _ ← start a f size sha256
  | .write id offset chunk => do let _ ← write a f id offset chunk
  | .finish id => do let _ ← finish a sha id
  | .abort id => do let _ ← abort id
  | .tick => tick a

end

/-- Calls one after the other, each with what the system answers. -/
def run (sha : Bytes → Bytes) (f : Format) : List (Call × Answers) → State → State
  | [], s => s
  | (c, a) :: calls, s => run sha f calls (call a sha f c s).2

end EspCfTunnel.Ota
