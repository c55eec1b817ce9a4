import EspCfTunnel.Capnp.Builder
import EspCfTunnel.Capnp.Tree

/-!
# The registration RPC

`cf_rpc.c`: the client side of one registration over Cap'n Proto RPC. It asks three questions in
turn (Bootstrap, the register Call, the unregister Call), holds one imported capability, and fails
for good on anything it does not expect. Messages are read through a `Source`, so the same program
runs on the bytes of a frame and on the tree they denote; a call's outcome is the new `cf_rpc`, the
result, the output buffer and `*n`.
-/

namespace EspCfTunnel.Rpc

open EspCfTunnel Framing Capnp StateLogic

/-- `CF_RPC_TX_MAX`. -/
abbrev txMax : Nat := 1024

/-- `CF_REGISTRATION_INTERFACE`. -/
def registrationInterface : Nat := 0xf71695ec7fe85497

/-- `cf_rpc_state`. -/
inductive State
  | idle | bootstrapping | ready | registering | registered | unregistering | closed | rejected
  | failed
  deriving DecidableEq, Repr

/-- `cf_rpc`. -/
structure Client where
  state : State
  capability : Nat
  haveCapability : Bool
  remotelyManaged : Bool
  shouldRetry : Bool
  retryAfterMs : Nat
  connectionId : Bytes
  location : Bytes
  error : Result
  deriving DecidableEq, Repr

/-- `cf_credentials`; its arrays are memories. -/
structure Credentials where
  accountTag : Mem
  tunnelId : Mem
  tunnelSecret : Mem
  tunnelSecretLen : Nat

/-- `cf_rpc_options`. -/
structure Options where
  connectorId : Mem
  localIp : Bytes
  version : Bytes
  arch : Bytes
  connectionIndex : Nat
  previousAttempts : Nat
  replaceExisting : Bool
  features : Nat

/-- What a call leaves: the client, the returned result, the output buffer and `*n`. -/
structure Outcome where
  rpc : Client
  result : Result
  out : Mem
  n : Nat

/-- `cf_rpc_init`. -/
def rpcInit : Client :=
  ⟨.idle, 0, false, false, false, 0, List.replicate 16 0, List.replicate 32 0, .ok⟩

/-! ## Writing messages -/

/-- `message`: the root struct of an RPC message, and its body. -/
def message (kind dw pc : Nat) : StateM Builder Nat := do
  let root ← cpStruct 0 1 1
  cpSetUint root 0 2 kind
  cpStruct (root + 1) dw pc

/-- A message built in `cap` bytes at `out`: the result and `*n` of `cf_cp_build_end`, and the
buffer. -/
def build (out : Mem) (cap : Nat) (x : StateM Builder Unit) : (Result × Nat) × Mem :=
  let b := (x (cpBuildInit out cap).2).2
  ((cpBuildEnd b).1, (cpBuildEnd b).2.buffer)

/-- `ascii`. -/
def ascii (b : Bytes) (max : Nat) : Bool :=
  b.length ≠ 0 ∧ b.length ≤ max ∧ ∀ c ∈ b, 32 ≤ c ∧ c ≤ 126

/-- The body of `finish`. -/
def finishBody (id : Nat) (release : Bool) : StateM Builder Unit := do
  let s ← message 4 1 0
  cpSetUint s 0 4 id
  cpSetUint s 4 1 (if release then 0 else 1)  -- Default true, XOR on wire.

/-- `finish`. -/
def finish (id : Nat) (release : Bool) (out : Mem) (cap : Nat) : (Result × Nat) × Mem :=
  build out cap (finishBody id release)

/-- The body of `release_cap`. -/
def releaseBody (r : Client) : StateM Builder Unit := do
  let s ← message 6 1 0
  cpSetUint s 0 4 r.capability
  cpSetUint s 4 4 1

/-- `release_cap`. -/
def releaseCap (r : Client) (out : Mem) (cap : Nat) : (Result × Nat) × Mem :=
  build out cap (releaseBody r)

/-- `reason` in `fail`. -/
def reason : Bytes := text "Unsupported or invalid registration RPC"

/-- The abort message of `fail`. -/
def abortBody : StateM Builder Unit := do
  let s ← message 1 1 1
  cpBlob (s + 1) reason true

/-- `fail`. -/
def fail (r : Client) (error : Result) (abortPeer : Bool) (out : Mem) : Outcome :=
  let r := { r with error, state := .failed }
  if abortPeer then
    let ((_, n), out) := build out txMax abortBody
    ⟨r, error, out, n⟩
  else ⟨r, error, out, 0⟩

/-- `cf_rpc_begin`. -/
def rpcBegin (r : Client) (out : Mem) (cap : Nat) : Outcome :=
  if cap < txMax then ⟨r, .argument, out, 0⟩
  else if r.state ≠ .idle then ⟨r, .state, out, 0⟩
  else
    -- Bootstrap question 0; no deprecated object ID.
    let ((rc, n), out) := build out txMax (do let _ ← message 8 1 1)
    ⟨if rc = .ok then { r with state := .bootstrapping } else r, rc, out, n⟩

/-- `call`: a call of `method` on the capability `cap`; the result is the payload. -/
def call (cap question method : Nat) : StateM Builder Nat := do
  let c ← message 2 3 3
  cpSetUint c 0 4 question
  cpSetUint c 4 2 method
  cpSetUint c 8 8 registrationInterface
  let target ← cpStruct (c + 3) 1 1
  cpSetUint target 0 4 cap  -- importedCap; sendResultsTo.caller.
  cpStruct (c + 4) 0 2      -- Payload, empty capability table.

/-- `CF_RPC_REMOTE_CONFIG` is set in the features. -/
def remoteConfig (features : Nat) : Bool := features % 2 = 1

/-- `CF_RPC_SERIALIZED_HEADERS` is set in the features. -/
def serializedHeaders (features : Nat) : Bool := features / 2 % 2 = 1

/-- The features part of the register call: only explicitly implemented ones are advertised. -/
def featureList (client features : Nat) : StateM Builder Unit := do
  if features ≠ 0 then
    let count := (if remoteConfig features then 1 else 0) + (if serializedHeaders features then 1 else 0)
    let list ← cpPointerList (client + 1) count
    if remoteConfig features then
      cpBlob list (text "allow_remote_config") true
      if serializedHeaders features then cpBlob (list + 1) (text "serialized_headers") true
    else if serializedHeaders features then cpBlob list (text "serialized_headers") true

/-- The message of `cf_rpc_register`. -/
def registerBody (capability : Nat) (cred : Credentials) (opt : Options) : StateM Builder Unit := do
  let payload ← call capability 1 0
  let params ← cpStruct payload 1 3
  cpSetUint params 0 1 opt.connectionIndex
  let auth ← cpStruct (params + 1) 0 2
  cpBlob auth (cred.accountTag.read 0 32) true
  cpBlob (auth + 1) (cred.tunnelSecret.read 0 cred.tunnelSecretLen) false
  cpBlob (params + 2) (cred.tunnelId.read 0 16) false
  let options ← cpStruct (params + 3) 1 2
  cpSetUint options 0 1 (if opt.replaceExisting then 1 else 0)
  cpSetUint options 2 1 opt.previousAttempts
  let client ← cpStruct (options + 1) 0 4
  cpBlob client (opt.connectorId.read 0 16) false
  featureList client opt.features
  cpBlob (client + 2) opt.version true
  cpBlob (client + 3) opt.arch true
  cpBlob (options + 2) opt.localIp false

/-- A hexadecimal digit of the account tag. -/
def hexDigit (c : UInt8) : Bool :=
  (48 ≤ c ∧ c ≤ 57) ∨ (97 ≤ c ∧ c ≤ 102) ∨ (65 ≤ c ∧ c ≤ 70)

/-- What `cf_rpc_register` checks of its arguments. -/
def registerArguments (cred : Credentials) (opt : Options) : Bool :=
  ascii opt.version 63 ∧ ascii opt.arch 63 ∧
    (opt.localIp.length = 4 ∨ opt.localIp.length = 16) ∧ cred.accountTag 32 = 0 ∧
    32 ≤ cred.tunnelSecretLen ∧ cred.tunnelSecretLen ≤ 128 ∧ opt.features / 4 = 0 ∧
    (cred.accountTag.read 0 32).all hexDigit

/-- `cf_rpc_register`. -/
def rpcRegister (r : Client) (cred : Credentials) (opt : Options) (out : Mem) (cap : Nat) : Outcome :=
  if cap < txMax then ⟨r, .argument, out, 0⟩
  else if r.state ≠ .ready ∨ !r.haveCapability then ⟨r, .state, out, 0⟩
  else if !registerArguments cred opt then ⟨r, .argument, out, 0⟩
  else
    let ((rc, n), out) := build out txMax (registerBody r.capability cred opt)
    if rc = .ok then ⟨{ r with state := .registering }, rc, out, n⟩
    else ⟨r, rc, out.write 0 (List.replicate txMax 0), n⟩

/-- The message of `cf_rpc_unregister`. -/
def unregisterBody (capability : Nat) : StateM Builder Unit := do
  let payload ← call capability 2 1
  let _ ← cpStruct payload 0 0

/-- `cf_rpc_unregister`. -/
def rpcUnregister (r : Client) (out : Mem) (cap : Nat) : Outcome :=
  if cap < txMax then ⟨r, .argument, out, 0⟩
  else if r.state ≠ .registered ∨ !r.haveCapability then ⟨r, .state, out, 0⟩
  else
    let ((rc, n), out) := build out txMax (unregisterBody r.capability)
    ⟨if rc = .ok then { r with state := .unregistering } else r, rc, out, n⟩

/-! ## Reading messages -/

section
variable {σ V : Type} (S : Source σ V)

/-- `required_struct`. -/
def requiredStruct (v : V) : StateM σ V := do
  if S.kind v ≠ .struct ∧ (← S.error) = .ok then S.setError .format
  return v

/-- `bootstrap_result`. -/
def bootstrapResult (r : Client) (payload : V) : StateM σ (Client × Result) := do
  let content ← S.field payload 0
  let caps ← S.field payload 1
  if S.kind content ≠ .cap ∨ S.kind caps ≠ .list ∨ S.elementSize caps ≠ 7 ∨ S.count caps ≠ 1 ∨
      S.cap content ≠ 0 then
    return (r, .unsupported)
  let desc ← S.elem caps 0
  let kind ← S.uint desc 0 2
  if kind ≠ 1 then return (r, .unsupported)  -- senderHosted only.
  let capability ← S.uint desc 4 4
  let r := { r with capability }
  let error ← S.error
  if error ≠ .ok then return (r, error)
  return ({ r with haveCapability := true, state := .ready }, .ok)

/-- The failure part of `registration_result`. -/
def registrationFailure (r : Client) (details : V) : StateM σ (Client × Result) := do
  let ns ← S.uint details 0 8
  -- Validate cause text, but never retain or log a server-supplied secret.
  let _ ← S.data (← S.field details 0) true
  let retry ← S.uint details 8 1
  -- Go time.Duration is signed nanoseconds. Negative means no delay.
  let r := { r with
    shouldRetry := retry % 2 ≠ 0
    retryAfterMs := if ns / 2 ^ 63 ≠ 0 then 0
      else ns / 1000000 + if ns % 1000000 ≠ 0 then 1 else 0 }
  let error ← S.error
  if error ≠ .ok then return (r, error)
  return ({ r with state := .rejected }, .ok)

/-- The success part of `registration_result`. -/
def registrationSuccess (r : Client) (details : V) : StateM σ (Client × Result) := do
  let id ← S.data (← S.field details 0) false
  let location ← S.data (← S.field details 1) true
  let managed ← S.uint details 0 1
  let r := { r with remotelyManaged := managed % 2 ≠ 0 }
  let error ← S.error
  if error ≠ .ok then return (r, error)
  if id.length ≠ 16 ∨ !ascii location 31 then return (r, .format)
  if !r.remotelyManaged then return (r, .unsupported)
  return ({ r with
    connectionId := id
    location := location ++ 0 :: r.location.drop (location.length + 1)
    state := .registered }, .ok)

/-- `registration_result`. -/
def registrationResult (r : Client) (payload : V) : StateM σ (Client × Result) := do
  let results ← requiredStruct S (← S.field payload 0)
  let response ← requiredStruct S (← S.field results 0)
  let kind ← S.uint response 0 2
  let details ← requiredStruct S (← S.field response 0)
  let error ← S.error
  if error ≠ .ok then return (r, error)
  if kind = 0 then return ← registrationFailure S r details
  if kind ≠ 1 then return (r, .unsupported)
  registrationSuccess S r details

/-- The results of the two calls, in `cf_rpc_receive`. -/
def callResult (r : Client) (expected : Nat) (payload : V) : StateM σ (Client × Result) := do
  let caps ← S.field payload 1
  if S.kind caps ≠ .null ∧ (S.kind caps ≠ .list ∨ S.elementSize caps ≠ 7 ∨ S.count caps ≠ 0) then
    return (r, .unsupported)
  if expected = 1 then return ← registrationResult S r payload
  let content ← S.field payload 0
  -- Empty result may be represented by a null or empty struct.
  let rc := if S.kind content = .null ∨ S.kind content = .struct then .ok else .format
  return ({ r with state := .closed }, rc)

/-- What `cf_rpc_receive` decides about a message before it answers. -/
inductive Verdict
  | fail (error : Result) (abortPeer : Bool)
  | exception (answer : Nat) (error : Result)
  | done (answer : Nat) (boot : Bool)
  deriving DecidableEq, Repr

/-- The question that is outstanding in a state that waits for a Return. -/
def expectedAnswer (s : State) : Nat :=
  if s = .bootstrapping then 0 else if s = .registering then 1 else 2

/-- The result of the outstanding question. -/
def questionResult (r : Client) (payload : V) : StateM σ (Client × Result) :=
  if r.state = .bootstrapping then bootstrapResult S r payload
  else callResult S r (expectedAnswer r.state) payload

/-- The part of `cf_rpc_receive` for a Return message `ret`. -/
def readReturn (r : Client) (ret : V) : StateM σ (Client × Verdict) := do
  let boot : Bool := r.state = .bootstrapping
  if !boot ∧ r.state ≠ .registering ∧ r.state ≠ .unregistering then return (r, .fail .state true)
  let answer ← S.uint ret 0 4
  let resultKind ← S.uint ret 6 2
  let error ← S.error
  if error ≠ .ok then return (r, .fail error true)
  if answer ≠ expectedAnswer r.state then return (r, .fail .state true)
  if resultKind = 1 then
    -- RPC exception; don't misclassify as auth rejection.
    let ex ← requiredStruct S (← S.field ret 0)
    let _ ← S.data (← S.field ex 0) true
    let error ← S.error
    return (r, .exception answer (if error = .ok then .state else error))
  if resultKind ≠ 0 then return (r, .fail .unsupported true)
  let payload ← requiredStruct S (← S.field ret 0)
  let (r, rc) ← questionResult S r payload
  let error ← S.error
  let rc := if error ≠ .ok then error else rc
  if rc ≠ .ok then return (r, .fail rc true)
  return (r, .done answer boot)

/-- The reading part of `cf_rpc_receive`. -/
def readMessage (r : Client) : StateM σ (Client × Verdict) := do
  let root ← requiredStruct S (← S.root)
  let kind ← S.uint root 0 2
  let ret ← requiredStruct S (← S.field root 0)
  let error ← S.error
  if error ≠ .ok then return (r, .fail error true)
  if kind = 1 then
    let _ ← S.data (← S.field ret 0) true
    let error ← S.error
    return (r, .fail (if error = .ok then .state else error) false)
  if kind ≠ 3 then return (r, .fail .unsupported true)
  readReturn S r ret

end

/-- The memory from `off` on. -/
def tailMem (m : Mem) (off : Nat) : Mem := fun i => m (off + i)

/-- A memory whose part from `off` on is replaced. -/
def spliceMem (m : Mem) (off : Nat) (tail : Mem) : Mem := fun i => if i < off then m i else tail (i - off)

/-- The answering part of `cf_rpc_receive`. -/
def answer (out : Mem) : Client × Verdict → Outcome
  | (r, .fail error abortPeer) => fail r error abortPeer out
  | (r, .exception id error) =>
    let ((_, n), out) := finish id true out txMax
    ⟨{ r with state := .failed, error }, error, out, n⟩
  | (r, .done id boot) =>
    let ((rc, n), out) := finish id (!boot) out txMax
    if rc = .ok ∧ r.state = .closed then
      let ((rc, extra), tail) := releaseCap r (tailMem out n) (txMax - n)
      ⟨{ r with haveCapability := false }, rc, spliceMem out n tail, n + extra⟩
    else ⟨r, rc, out, n⟩

/-- The states in which `cf_rpc_receive` takes no message. -/
def State.deaf (s : State) : Bool := s = .idle ∨ s = .failed ∨ s = .closed ∨ s = .rejected

/-- `cf_rpc_receive`. -/
def rpcReceive (r : Client) (frame : Bytes) (out : Mem) (cap : Nat) : Outcome :=
  if cap < txMax then ⟨r, .argument, out, 0⟩
  else if r.state.deaf then ⟨r, .state, out, 0⟩
  else
    match cpReadInit frame with
    | .error rc => fail r rc true out
    | .ok rd => answer out (readMessage readerSource r rd).1

end EspCfTunnel.Rpc
