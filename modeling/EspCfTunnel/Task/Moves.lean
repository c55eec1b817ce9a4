import EspCfTunnel.Task.Runs

/-!
# The moves of the task

What an iteration does to the parts of a tunnel that a connection is about, said once: every program
of the task is a sequence of moves. A move is about the `Core` of a tunnel and the history; the other
fields may change with it. What a callback of `cf_h2` may do is a relation of its own, `Call`, since
callbacks run inside other moves and leave the output alone.
-/

namespace EspCfTunnel.Task

open EspCfTunnel StateLogic Lifecycle Config

/-! ## The core of a tunnel -/

/-- What the moves are about. -/
structure Core where
  life : Life
  rpc : Rpc.Client
  remote : Remote
  h2 : Option Link
  stopping : Bool
  closing : Bool
  controlStream : Int
  fault : Bool
  rpcQueue : Mem
  rpcQueued : Nat
  configPending : Bool
  writeStalledMs : Nat

def Tunnel.core (t : Tunnel) : Core :=
  ⟨t.life, t.rpc, t.remote, t.h2, t.stopping, t.closing, t.controlStream, t.fault, t.rpcQueue,
    t.rpcQueued, t.configPending, t.writeStalledMs⟩

namespace Core

/-- The core after `close_connection`. -/
def closed (life : Life) (stopping : Bool) : Core :=
  ⟨life, Rpc.rpcInit, configInit, none, stopping, false, 0, false, zeros, 0, false, 0⟩

def link (k : Core) : Link := k.h2.getD {}

/-- There is room for the bytes in the queue. -/
def fits (k : Core) (bytes : Bytes) : Prop := bytes.length ≤ queueSize - k.rpcQueued

instance (k : Core) (bytes : Bytes) : Decidable (k.fits bytes) :=
  inferInstanceAs (Decidable (bytes.length ≤ queueSize - k.rpcQueued))

/-- What `append_rpc` leaves. -/
def append (k : Core) (bytes : Bytes) : Core :=
  if k.fits bytes then
    { k with
      rpcQueue := k.rpcQueue.write k.rpcQueued bytes
      rpcQueued := k.rpcQueued + bytes.length
      h2 := if k.controlStream ≠ 0 then k.h2.map Link.resume else k.h2 }
  else k

/-- The notes of `append_rpc`. -/
def appendNotes (k : Core) (bytes : Bytes) : List Note :=
  if k.fits bytes then
    if k.controlStream ≠ 0 then [.resume k.controlStream, .append k.fault bytes .ok]
    else [.append k.fault bytes .ok]
  else [.append k.fault bytes .limit]

/-- How many bytes `h2_read` hands out, and how many it leaves. -/
def handedOut (k : Core) (capacity : Nat) : Nat := min k.rpcQueued capacity

def left (k : Core) (capacity : Nat) : Nat := k.rpcQueued - k.handedOut capacity

/-- `eof` of `h2_read`. -/
def ends (k : Core) (capacity : Nat) : Bool := k.rpc.state = .closed ∧ k.left capacity = 0

/-- What `read_response` leaves for the control stream. -/
def read (k : Core) (capacity : Nat) : Core :=
  { k with
    rpcQueue := (k.rpcQueue.write 0 (k.rpcQueue.read (k.handedOut capacity) (k.left capacity))).write
      (k.left capacity) (List.replicate (k.handedOut capacity) 0)
    rpcQueued := k.left capacity
    h2 := k.h2.map fun l => { l with
      deferred := k.handedOut capacity = 0 ∧ k.ends capacity = false } }

/-- What `closed_stream` leaves for the control stream. -/
def closeControl (k : Core) : Core :=
  { k with
    fault := k.fault || (!k.closing && (!k.stopping || k.rpc.state ≠ .closed))
    controlStream := 0
    h2 := k.h2.map fun l => { l with response := false, deferred := false, reset := false } }

end Core

/-! ## Moves -/

/-- The notes that no rule is about. -/
def Note.plain : Note → Bool
  | .iteration | .environment _ _ | .lifecycle _ _ | .retried _ _ _ _ | .rpcReceive _ _ _
  | .configApply _ _ _ | .request _ _ | .resume _ | .callback _ | .stats _ => true
  | _ => false

/-- Nothing that matters changes, except that the lifecycle may go on. -/
structure Drift (c c' : Ctx) : Prop where
  core : ∃ l, c'.t.core = { c.t.core with life := l } ∧
    (c.t.remote.valid = true → l.configured = c.t.life.configured)
  history : ∃ notes, c'.history = notes ++ c.history ∧ ∀ n ∈ notes, n.plain = true

/-- The stream of a callback. -/
def Callback.stream : Callback → Int
  | .request r => r.stream
  | .data id _ _ | .read id _ | .closed id _ | .reset id => id

/-- What the tunnel and `cf_h2` may do at a callback. -/
inductive Call (call : Callback) (c c' : Ctx) : Prop
  | drift : Drift c c' → Call call c c'
  | fault : c'.t.core = { c.t.core with fault := true } → c'.history = c.history → Call call c c'
  | begin {r : H2.Request} {l : Life} {notes : List Note} {k : Core} : call = .request r →
      c.t.controlStream = 0 → c.t.stopping = false →
      (c.t.remote.valid = true → l.configured = c.t.life.configured) → (∀ n ∈ notes, n.plain = true) →
      k = { c.t.core with
        life := l, controlStream := r.stream, rpc := (Rpc.rpcBegin Rpc.rpcInit zeros Rpc.txMax).rpc } →
      c'.t.core = k.append (Rpc.Outcome.bytes (Rpc.rpcBegin Rpc.rpcInit zeros Rpc.txMax)) →
      c'.history = k.appendNotes (Rpc.Outcome.bytes (Rpc.rpcBegin Rpc.rpcInit zeros Rpc.txMax)) ++
        (notes ++ c.history) → Call call c c'
  | receive {frame : Bytes} {o : Rpc.Outcome} {k : Core} :
      o = Rpc.rpcReceive c.t.rpc frame zeros Rpc.txMax → k = { c.t.core with rpc := o.rpc } →
      c'.t.core = k.append (Rpc.Outcome.bytes o) →
      c'.history = k.appendNotes (Rpc.Outcome.bytes o) ++
        .rpcReceive c.t.rpc o.rpc o.result :: c.history → Call call c c'
  | register {cred : Rpc.Credentials} {opt : Rpc.Options} {o : Rpc.Outcome} {k : Core} :
      o = Rpc.rpcRegister c.t.rpc cred opt zeros Rpc.txMax → o.result = .ok →
      k = { c.t.core with rpc := o.rpc } → c'.t.core = k.append (Rpc.Outcome.bytes o) →
      c'.history = k.appendNotes (Rpc.Outcome.bytes o) ++ c.history → Call call c c'
  | read {capacity : Nat} : call = .read c.t.controlStream capacity → c.t.link.reset = false →
      c'.t.core = c.t.core.read capacity →
      c'.history = .handed c.t (c.t.rpcQueue.read 0 (c.t.core.handedOut capacity))
        (c.t.core.ends capacity) :: c.history → Call call c c'
  | respond : call.stream = c.t.controlStream →
      c'.t.core = { c.t.core with h2 := c.t.h2.map fun l => { l with response := true } } →
      c'.history = c.history → Call call c c'
  | reset : call.stream = c.t.controlStream →
      c'.t.core = { c.t.core with h2 := c.t.h2.map fun l => { l with reset := true } } →
      c'.history = c.history → Call call c c'
  | close : c'.t.core = c.t.core.closeControl → c'.history = c.history → Call call c c'
  | update {pending : Bool} : c'.t.core = { c.t.core with configPending := pending } →
      c'.history = c.history → Call call c c'

/-- What an iteration may do. -/
inductive Move (c c' : Ctx) : Prop
  | drift : Drift c c' → Move c c'
  | call {call : Callback} : .callback call ∈ sinceClose c.history → Call call c c' → Move c c'
  | returned : c'.t.core = c.t.core → c'.history = .returned c.t :: c.history → Move c c'
  | unregister {o : Rpc.Outcome} {k : Core} : o = Rpc.rpcUnregister c.t.rpc zeros Rpc.txMax →
      o.result = .ok → k = { c.t.core with rpc := o.rpc } →
      c'.t.core = k.append (Rpc.Outcome.bytes o) →
      c'.history = k.appendNotes (Rpc.Outcome.bytes o) ++ c.history → Move c c'
  | stop {l : Life} : c'.t.core = { c.t.core with stopping := true, life := l } →
      c'.history = c.history → Move c c'
  | apply {parse : Parser} {update : Bytes} {applied : Applied} {ps fault : Bool} {rc : Result}
      {t : Tunnel} {before : List Note} : Linked c.t.view c.history → c.t.configPending = true →
      c.history = .stats ps :: before → (ps = true → c.t.life.state ≠ .http2) →
      Applies parse c.t.remote update (cString c.t.hostname) c.t.service applied →
      (c.t.fault = true → fault = true) →
      c'.t.core = { c.t.core with
        remote := applied.config, configPending := false, fault := fault
        life := (lifecycleAdvance c.t.life
          (if applied.result = .ok then .configApplied else .configRejected)).1 } →
      t.core = c'.t.core →
      t.configReply = ((configResponse applied.config applied.result 128).toOption).getD [] →
      c'.history = .configReply t applied.result :: .lifecycle .applyConfig rc ::
        .configApply (cString c.t.hostname) c.t.service applied.result :: c.history → Move c c'
  | tlsRead : c.t.writeStalledMs = 0 → c'.t.core = c.t.core → c'.history = .tlsRead :: c.history →
      Move c c'
  | memSend : c.t.link.pending = [] → c'.t.core = c.t.core → c'.history = .memSend :: c.history →
      Move c c'
  | output {bytes : Bytes} : c.t.h2.isSome = true → c.t.link.pending = [] →
      c'.t.core = { c.t.core with h2 := c.t.h2.map fun l =>
        { l with serial := l.serial + 1, offset := 0, pending := bytes } } →
      c'.history = .output bytes :: c.history → Move c c'
  | wrote {n : Nat} : c.t.h2.isSome = true → n ≠ 0 → n ≤ c.t.link.pending.length →
      c'.t.core = { c.t.core with
        h2 := c.t.h2.map fun l => { l with offset := l.offset + n, pending := l.pending.drop n }
        writeStalledMs := 0 } →
      c'.history = .tlsWrite c.t.link.serial c.t.link.offset (c.t.link.pending.take chunkSize)
        (.wrote n) :: c.history → Move c c'
  | failed {result : Write} : result ≠ .wantRead → result ≠ .wantWrite →
      (∀ n, result = .wrote n → n = 0 ∨ c.t.link.pending.length < n) → c'.t.core = c.t.core →
      c'.history = .tlsWrite c.t.link.serial c.t.link.offset (c.t.link.pending.take chunkSize)
        result :: c.history → Move c c'
  | wait {result : Write} : result = .wantRead ∨ result = .wantWrite → c.t.link.pending ≠ [] →
      c.t.writeStalledMs ≠ 0 → c'.t.core = c.t.core →
      c'.history = .tlsWrite c.t.link.serial c.t.link.offset (c.t.link.pending.take chunkSize)
        result :: c.history → Move c c'
  | stall {result : Write} {now : Nat} : result = .wantRead ∨ result = .wantWrite →
      c.t.link.pending ≠ [] → c'.t.core = { c.t.core with writeStalledMs := now } →
      c'.history = .stalled now :: .tlsWrite c.t.link.serial c.t.link.offset
        (c.t.link.pending.take chunkSize) result :: c.history → Move c c'
  | link : c.t.h2 = none → c'.t.core = { c.t.core with h2 := some {} } → c'.history = c.history →
      Move c c'
  | close {l : Life} {notes : List Note} : (∀ n ∈ notes, n.plain = true) →
      c'.t.core = .closed l c.t.stopping → c'.history = .closeConnection :: (notes ++ c.history) →
      Move c c'
  | restart {l l' : Life} {stopping stopping' : Bool} : sinceClose c.history = [] →
      c.t.core = .closed l stopping → c'.t.core = .closed l' stopping' → c'.history = c.history →
      Move c c'

/-! ## Steps without a connection -/

section
variable {c c' : Ctx} {n : Note}

theorem Drift.frame (hcore : c'.t.core = c.t.core) (hhistory : c'.history = c.history) : Drift c c' :=
  ⟨⟨c.t.life, hcore, fun _ => rfl⟩, [], hhistory, by simp⟩

theorem Drift.note (hn : n.plain = true) (hcore : c'.t.core = c.t.core)
    (hhistory : c'.history = n :: c.history) : Drift c c' :=
  ⟨⟨c.t.life, hcore, fun _ => rfl⟩, [n], hhistory, by simpa using hn⟩

end

/-- A change of fields that the moves are not about. -/
theorem modify_steps {f : Tunnel → Tunnel} (hf : ∀ t, (f t).core = t.core) :
    Steps Drift (modifyTunnel f) :=
  .single fun c => .frame (hf c.t) rfl

theorem message_steps (text : String) : Steps Drift (message text) := modify_steps fun _ => rfl

theorem note_steps {n : Note} (hn : n.plain = true) : Steps Drift (note n) :=
  .single fun _ => .note hn rfl rfl

theorem nowMs_steps : Steps Drift nowMs := .single fun _ => .frame rfl rfl

theorem espRandom_steps : Steps Drift espRandom := .single fun _ => .frame rfl rfl

theorem outcome_steps : Steps Drift outcome := .single fun _ => .frame rfl rfl

theorem result_steps : Steps Drift result := .single fun _ => .frame rfl rfl

/-- The events that leave the configured flag alone. -/
theorem advance_configured {e : Event} (l : Life) (he : e ≠ .configApplied) (he' : e ≠ .authRejected) :
    (lifecycleAdvance l e).1.configured = l.configured := by
  rcases lifecycleAdvance_cases l e with heq | ⟨-, -, -, l', heq, ha⟩
  · rw [heq]
  · rw [heq]
    cases ha with
    | applied => exact absurd rfl he
    | authRejected => exact absurd rfl he'
    | _ => rfl

theorem advance_steps (site : Site) {e : Event} (he : e ≠ .configApplied) (he' : e ≠ .authRejected) :
    Steps Drift (advance site e) :=
  .single fun c => ⟨⟨_, rfl, fun _ => advance_configured c.t.life he he'⟩, [.lifecycle site _], rfl, by
    simp [Note.plain]⟩

theorem dnsSend_steps (name : Bytes) : Steps Drift (dnsSend name) := by
  refine .bind outcome_steps fun opened => .bind (modify_steps fun _ => rfl) fun _ => ?_
  refine .ite (fun _ => .ret) fun _ => .bind outcome_steps fun _ => .ite (fun _ => .ret) fun _ => ?_
  refine .bind espRandom_steps fun id => .bind (modify_steps fun _ => rfl) fun _ => ?_
  refine .bind outcome_steps fun _ => .ite (fun _ => .ret) fun _ => ?_
  refine .bind outcome_steps fun _ => .ite (fun _ => .ret) fun _ => ?_
  exact .bind nowMs_steps fun now => .bind (modify_steps fun _ => rfl) fun _ => .ret

theorem startAttempt_steps : Steps Drift startAttempt := by
  have hend : ∀ (text : String) (ok : Bool), Steps Drift (do message text; return some ok) :=
    fun text ok => .bind (message_steps text) fun _ => .ret
  have hload : Steps Drift loadCredentials :=
    .get_bind fun c => .bind (modify_steps fun _ => rfl) fun _ => .ret
  refine .bind outcome_steps fun _ => .ite (fun _ => .ret) fun _ => .bind hload fun ready => ?_
  refine .ite (fun _ => hend _ _) fun _ => .bind (modify_steps fun _ => rfl) fun _ => ?_
  refine .bind outcome_steps fun allocated => .bind (modify_steps fun _ => rfl) fun _ => ?_
  refine .ite (fun _ => hend _ _) fun _ => .bind (dnsSend_steps _) fun rc => ?_
  exact .ite (fun _ => hend _ _) fun _ => .bind (message_steps _) fun _ => .ret

theorem resolve_steps : Steps Drift resolve := by
  have hend : ∀ text : String, Steps Drift (do message text; return false) :=
    fun text => .bind (message_steps text) fun _ => .ret
  refine .get_bind fun c => ?_
  cases c.oracle.packet with
  | again =>
    refine .bind nowMs_steps fun now => .get_bind fun c => ?_
    exact .ite (fun _ => .ret) fun _ => hend _
  | failed => exact hend _
  | invalid => exact hend _
  | answer records =>
    refine .get_bind fun c => .ite (fun _ => ?_) fun _ => ?_
    · refine .bind espRandom_steps fun random => .get_bind fun c => ?_
      refine .bind (modify_steps fun _ => rfl) fun _ => .bind (dnsSend_steps _) fun rc => ?_
      exact .ite (fun _ => hend _) fun _ => .ret
    · refine .bind espRandom_steps fun random => .bind (modify_steps fun _ => rfl) fun _ => ?_
      refine .bind outcome_steps fun created => .bind (modify_steps fun _ => rfl) fun _ => ?_
      refine .ite (fun _ => hend _) fun _ => .bind nowMs_steps fun now => ?_
      refine .bind (modify_steps fun _ => rfl) fun _ => ?_
      refine .bind (advance_steps _ (by simp) (by simp)) fun _ => ?_
      exact .bind (message_steps _) fun _ => .ret

theorem discover_steps : Steps Drift discover := by
  refine .get_bind fun c => .ite (fun _ => resolve_steps) fun _ => ?_
  refine .bind startAttempt_steps fun ended => ?_
  cases ended with
  | some done => exact .ret
  | none => exact resolve_steps

/-! ## Callbacks -/

section
variable {call : Callback}

/-- The moves of a callback that lead to a state. -/
abbrev Called (call : Callback) : Ctx → Ctx → Prop := Relation.ReflTransGen (Call call)

theorem drifts {α : Type} {x : M α} (h : Steps Drift x) : Steps (Call call) x :=
  h.mono fun _ _ => .drift

theorem fault_steps : Steps (Call call) (modifyTunnel fun t => { t with fault := true }) :=
  .single fun _ => .fault rfl rfl

/-- A failure that is told. -/
theorem tell_steps (text : String) (rc : Result) : Steps (Call call) (do
    message text
    modifyTunnel fun t => { t with fault := true }
    return rc) :=
  .bind (drifts (message_steps text)) fun _ => .bind fault_steps fun _ => .ret

/-- `append_rpc` on a core. -/
theorem appendRpc_core (bytes : Bytes) (c : Ctx) :
    (appendRpc bytes c).2.t.core = c.t.core.append bytes ∧
      (appendRpc bytes c).2.history = c.t.core.appendNotes bytes ++ c.history := by
  unfold appendRpc Core.append Core.appendNotes
  rw [run_bind_eq (run_get c)]
  by_cases hfits : c.t.core.fits bytes
  · have hroom : ¬ bytes.length > queueSize - c.t.rpcQueued := Nat.not_lt.2 hfits
    rw [if_pos hfits, if_pos hfits]
    dsimp only
    rw [if_neg hroom]
    by_cases hcontrol : c.t.controlStream ≠ 0
    · have hcontrol' : c.t.core.controlStream ≠ 0 := hcontrol
      rw [if_pos hcontrol, if_pos hcontrol', if_pos hcontrol']
      exact ⟨rfl, rfl⟩
    · have hcontrol' : ¬ c.t.core.controlStream ≠ 0 := hcontrol
      rw [if_neg hcontrol, if_neg hcontrol', if_neg hcontrol']
      exact ⟨rfl, rfl⟩
  · have hroom : bytes.length > queueSize - c.t.rpcQueued := Nat.not_le.1 hfits
    rw [if_neg hfits, if_neg hfits]
    dsimp only
    rw [if_pos hroom]
    exact ⟨rfl, rfl⟩

theorem registerNow_steps : Steps (Call call) registerNow := by
  refine .of_triple fun c => .get_bind fun c' hc => ?_
  obtain rfl := hc
  obtain ⟨o, ho⟩ : ∃ o, o = Rpc.rpcRegister c'.t.rpc c'.t.credentials (registerOptions c'.t) zeros
    Rpc.txMax := ⟨_, rfl⟩
  dsimp only
  rw [← ho]
  refine .bind (Q := fun _ c => c.t.core = { c'.t.core with rpc := o.rpc } ∧ c.history = c'.history)
    ?_ fun _ => ?_
  · rintro _ ⟨rfl, -⟩
    exact ⟨rfl, rfl⟩
  refine .ite (fun hfailed => ?_) fun hok => ?_
  · refine .bind (Q := fun _ => Called call c') ?_ fun _ => .ret fun _ h => h
    rintro c ⟨hcore, hhistory⟩
    rw [ho, Rpc.rpcRegister_failed (by rw [← ho]; exact hfailed)] at hcore
    exact .single (.fault (congrArg (fun k : Core => { k with fault := true }) hcore) hhistory)
  refine .bind (Q := fun _ => Called call c') ?_ fun rc => ?_
  · rintro c ⟨hcore, hhistory⟩
    obtain ⟨hcore', hhistory'⟩ := appendRpc_core (Rpc.Outcome.bytes o) c
    rw [hcore] at hcore' hhistory'
    rw [hhistory] at hhistory'
    exact .single (.register ho (not_not.1 hok) rfl hcore' hhistory')
  refine Triple.ite (fun _ => ?_) fun _ => .ret fun _ h => h
  exact (Steps.bind fault_steps fun _ => .ret).triple c'

theorem registeredNow_steps : Steps (Call call) registeredNow := by
  refine .bind (drifts (advance_steps _ (by simp) (by simp))) fun _ => .get_bind fun c => ?_
  refine .bind (drifts (message_steps _)) fun _ => .bind (drifts nowMs_steps) fun now => ?_
  exact drifts (modify_steps fun _ => rfl)

theorem rpcMessage_steps (frame : Bytes) : Steps (Call call) (rpcMessage frame) := by
  refine .of_triple fun c => .get_bind fun c' hc => ?_
  obtain rfl := hc
  obtain ⟨o, ho⟩ : ∃ o, o = Rpc.rpcReceive c'.t.rpc frame zeros Rpc.txMax := ⟨_, rfl⟩
  dsimp only
  rw [← ho]
  refine .bind (Q := fun _ c => c = { c' with t := { c'.t with rpc := o.rpc } }) ?_ fun _ => ?_
  · rintro _ ⟨rfl, -⟩
    rfl
  refine .bind (Q := fun _ c => c.t.core = { c'.t.core with rpc := o.rpc } ∧
    c.history = .rpcReceive c'.t.rpc o.rpc o.result :: c'.history) ?_ fun _ => ?_
  · rintro _ rfl
    exact ⟨rfl, rfl⟩
  refine .bind (Q := fun _ => Called call c') ?_ fun rc => ?_
  · rintro c ⟨hcore, hhistory⟩
    obtain ⟨hcore', hhistory'⟩ := appendRpc_core (Rpc.Outcome.bytes o) c
    rw [hcore] at hcore' hhistory'
    rw [hhistory] at hhistory'
    exact .single (.receive ho rfl hcore' hhistory')
  refine Steps.triple (.ite (fun _ => tell_steps _ _) fun _ => .ite (fun _ => registerNow_steps)
    fun _ => ?_) c'
  refine .ite (fun _ => .bind registeredNow_steps fun _ => .ret) fun _ => .ite (fun _ => ?_) fun _ => .ret
  exact tell_steps _ _

/-- The begin of a registration. -/
theorem rpcBegin_ok : (Rpc.rpcBegin Rpc.rpcInit zeros Rpc.txMax).result = .ok := by decide +kernel

@[simp] theorem Core.append_controlStream (k : Core) (bytes : Bytes) :
    (k.append bytes).controlStream = k.controlStream := by
  unfold Core.append
  split <;> rfl

/-- `h2_request` for the control stream, on a task that is not stopping. -/
theorem controlRequest_called {c : Ctx} (hstopping : c.t.stopping = false) (r : H2.Request) :
    Called (.request r) c (controlRequest r c).2 := by
  have hspec : Triple (fun c' => c' = c) (controlRequest r) fun _ => Called (.request r) c := by
    refine .get_bind fun c' hc => ?_
    obtain rfl := hc
    refine .ite (fun _ => .ret ?_) fun hfree => ?_
    · rintro _ ⟨rfl, -⟩
      exact .refl
    obtain ⟨hcontrol, -⟩ := not_or.1 hfree
    -- The stream is taken, and the lifecycle may go on.
    let Taken : Rpc.Client → Ctx → Prop := fun rpc c => ∃ l notes,
      (c'.t.remote.valid = true → l.configured = c'.t.life.configured) ∧
        (∀ n ∈ notes, n.plain = true) ∧
        c.t.core = { c'.t.core with life := l, controlStream := r.stream, rpc := rpc } ∧
        c.history = notes ++ c'.history
    refine .bind (Q := fun _ c => c = { c' with t := { c'.t with controlStream := r.stream } }) ?_
      fun _ => ?_
    · rintro _ ⟨rfl, -⟩
      rfl
    refine .when (A := Taken c'.t.rpc) (fun _ => ?_) (fun _ => ?_) ?_
    · rintro _ rfl
      exact ⟨_, [.lifecycle .h2Request _], fun _ => advance_configured c'.t.life (by simp) (by simp),
        by simp [Note.plain], rfl, rfl⟩
    · rintro _ rfl
      exact ⟨c'.t.life, [], fun _ => rfl, by simp, rfl, rfl⟩
    refine .bind (Q := fun _ => Taken (Rpc.rpcBegin Rpc.rpcInit zeros Rpc.txMax).rpc) ?_ fun _ => ?_
    · rintro c ⟨l, notes, hkeep, hplain, hcore, hhistory⟩
      refine ⟨l, notes, hkeep, hplain, ?_, hhistory⟩
      exact congrArg (fun k : Core => { k with rpc := (Rpc.rpcBegin Rpc.rpcInit zeros Rpc.txMax).rpc })
        hcore
    refine .ite (fun hfailed => absurd rpcBegin_ok hfailed) fun _ => ?_
    let Begun : Ctx → Prop := fun c => Called (.request r) c' c ∧ c.t.controlStream = r.stream
    refine .bind (Q := fun _ => Begun) ?_ fun rc => ?_
    · rintro c ⟨l, notes, hkeep, hplain, hcore, hhistory⟩
      obtain ⟨hcore', hhistory'⟩ := appendRpc_core
        (Rpc.Outcome.bytes (Rpc.rpcBegin Rpc.rpcInit zeros Rpc.txMax)) c
      rw [hcore] at hcore' hhistory'
      rw [hhistory] at hhistory'
      refine ⟨.single (.begin rfl (not_not.1 hcontrol) hstopping hkeep hplain rfl hcore' hhistory'), ?_⟩
      exact (congrArg Core.controlStream hcore').trans (Core.append_controlStream _ _)
    refine .ite (fun _ => .ret fun _ h => h.1) fun _ => ?_
    refine .bind (Q := fun _ => Begun) ?_ fun now => .bind (Q := fun _ => Begun) ?_ fun _ => ?_
    · exact fun c h => ⟨h.1.trans (drifts nowMs_steps c), h.2⟩
    · exact fun c h => ⟨h.1.tail (.drift (.frame rfl rfl)), h.2⟩
    refine .bind (Q := fun _ => Begun) ?_ fun rc => ?_
    · exact fun c h => ⟨h.1.trans (drifts result_steps c), h.2⟩
    refine .when (A := Called (.request r) c') (fun _ => ?_) (fun _ _ h => h.1) (.ret fun _ h => h)
    exact fun c h => h.1.tail (.respond h.2.symm rfl rfl)
  exact hspec c rfl

theorem h2Request_steps (r : H2.Request) : Steps (Call (.request r)) (h2Request r) := by
  intro c
  unfold h2Request
  rw [run_bind_eq (run_get c)]
  by_cases hstopping : c.t.stopping = true
  · rw [if_pos hstopping]
    exact .refl
  rw [if_neg hstopping]
  cases r.kind with
  | control => exact controlRequest_called (Bool.eq_false_of_not_eq_true hstopping) r
  | config =>
    refine (Steps.get_bind fun c => Steps.ite (fun _ => .ret) fun _ => .bind ?_ fun _ => .ret) c
    exact .single fun c => .update rfl rfl
  | http =>
    refine (Steps.get_bind fun c => Steps.ite (fun _ => .ret) fun _ => .bind ?_ fun _ => ?_) c
    · exact drifts (note_steps rfl)
    · exact drifts result_steps

theorem feedControl_steps (data : Bytes) : Steps (Call call) (feedControl data) := by
  intro c
  have hframe : ∀ s frame, Called call c s → Called call c (onFrame s frame).1 :=
    fun s frame hs => hs.trans (rpcMessage_steps frame s)
  have hfed := Framing.capnpFeed_state hframe c.t.framer .refl data
  unfold feedControl
  obtain ⟨fed, heq⟩ : ∃ fed, fed = Framing.capnpFeed onFrame c.t.framer c data := ⟨_, rfl⟩
  rw [← heq] at hfed ⊢
  dsimp only
  generalize (if fed.result = .ok ∧ fed.consumed ≠ data.length then Result.state else fed.result) = rc
  refine hfed.tail ?_
  by_cases hrc : rc = .ok
  · refine .drift (.frame ?_ rfl)
    simp [Tunnel.core, hrc]
  · refine .fault ?_ rfl
    simp [Tunnel.core, hrc]

theorem h2Data_steps (id : Int) (data : Bytes) (endStream : Bool) :
    Steps (Call call) (h2Data id data endStream) := by
  refine .get_bind fun c => .ite (fun _ => .ite (fun _ => ?_) fun _ => ?_)
    fun _ => .ite (fun _ => ?_) fun _ => drifts result_steps
  · exact .bind fault_steps fun _ => .bind (drifts (message_steps _)) fun _ => .ret
  · exact .ite (fun _ => .ret) fun _ => feedControl_steps data
  · refine .get_bind fun c => .ite (fun _ => .ret) fun _ => .bind ?_ fun _ => .ret
    exact .single fun c => .update rfl rfl

/-- A reset of the stream of the callback. -/
theorem h2Reset_steps {id : Int} (hid : call.stream = id) : Steps (Call call) (h2Reset id) := by
  refine .bind (drifts outcome_steps) fun submitted => .ite (fun _ => .single fun c => ?_) fun _ => .ret
  change Call call c { c with
    t := if id = c.t.controlStream then c.t.mapLink fun l => { l with reset := true } else c.t }
  split
  · next hcontrol => exact .reset (hid.trans hcontrol) rfl rfl
  · exact .drift (.frame rfl rfl)

/-- `read_response` waits for more exactly if nothing is handed out and this is not the end. -/
theorem controlRead_defers (k : Core) (capacity : Nat) (eof : Bool) :
    Reply.defers ⟨if k.handedOut capacity ≠ 0 ∨ eof then .ok else .state,
      k.rpcQueue.read 0 (k.handedOut capacity), eof⟩ =
        decide (k.handedOut capacity = 0 ∧ eof = false) := by
  by_cases hn : k.handedOut capacity = 0
  · cases eof <;> simp [Reply.defers, hn]
  · have hbytes : k.rpcQueue.read 0 (k.handedOut capacity) ≠ [] := by
      intro h
      have := congrArg List.length h
      rw [Mem.length_read] at this
      exact hn this
    simp [Reply.defers, hn, hbytes]

theorem configRead_steps (capacity : Nat) : Steps Drift (configRead capacity) :=
  .get_bind fun _ => .ite (fun _ => .ret) fun _ => .bind (modify_steps fun _ => rfl) fun _ => .ret

theorem readResponse_steps (id : Int) (capacity : Nat) :
    Steps (Call (.read id capacity)) (readResponse id capacity) := by
  intro c
  unfold readResponse h2Read
  rw [run_bind_eq (run_get c)]
  by_cases hcontrol : id = c.t.controlStream
  · rw [if_pos hcontrol]
    by_cases hreset : c.t.link.reset = true
    · rw [if_neg (by simp [hreset])]
      exact .refl
    rw [if_pos (by simpa using hreset), run_bind, run_bind_eq (run_get c), if_pos hcontrol]
    refine .single (.read (by rw [hcontrol]) (by simpa using hreset) ?_ rfl)
    unfold Core.read
    rw [← controlRead_defers]
    rfl
  · rw [if_neg hcontrol, run_bind, run_bind_eq (run_get c), if_neg hcontrol]
    by_cases hconfig : id = c.t.configStream
    · rw [if_pos hconfig]
      exact drifts (configRead_steps capacity) c
    · rw [if_neg hconfig]
      exact drifts (Steps.bind result_steps fun _ => .ret) c

/-- `h2_closed` for the control stream. -/
theorem h2Closed_control {c : Ctx} {id : Int} (hcontrol : id = c.t.controlStream) :
    (h2Closed id c).2.t.core = { c.t.core with
      fault := c.t.fault || (!c.t.closing && (!c.t.stopping || c.t.rpc.state ≠ .closed))
      controlStream := 0 } ∧ (h2Closed id c).2.history = c.history := by
  unfold h2Closed
  rw [run_bind_eq (run_get c), if_pos hcontrol]
  have hflag : (!c.t.closing && (!c.t.stopping || decide (c.t.rpc.state ≠ .closed))) = true ↔
      (!c.t.closing) = true ∧ ((!c.t.stopping) = true ∨ c.t.rpc.state ≠ .closed) := by
    simp
  split
  · next h =>
    rw [hflag.2 h, Bool.or_true]
    exact ⟨rfl, rfl⟩
  · next h =>
    rw [Bool.eq_false_iff.2 fun hf => h (hflag.1 hf), Bool.or_false]
    exact ⟨rfl, rfl⟩

theorem closedStream_steps (id : Int) (error : Nat) :
    Steps (Call (.closed id error)) (closedStream id) := by
  intro c
  unfold closedStream
  rw [run_bind_eq (run_get c), run_bind]
  by_cases hcontrol : id = c.t.controlStream
  · obtain ⟨hcore, hhistory⟩ := h2Closed_control hcontrol
    rw [if_pos hcontrol]
    refine .single (.close ?_ hhistory)
    exact congrArg (fun k : Core => { k with
      h2 := k.h2.map fun l : Link =>
        { l with response := false, deferred := false, reset := false } }) hcore
  · rw [if_neg hcontrol]
    unfold h2Closed
    rw [run_bind_eq (run_get c), if_neg hcontrol]
    by_cases hconfig : id = c.t.configStream
    · rw [if_pos hconfig]
      exact .single (.update rfl rfl)
    · rw [if_neg hconfig]
      exact .refl

theorem handle_steps (call : Callback) : Steps (Call call) call.handle := by
  cases call with
  | request r =>
    exact .bind (h2Request_steps r) fun rc => .ite (fun _ => h2Reset_steps rfl) fun _ => .ret
  | data id bytes endStream =>
    exact .bind (h2Data_steps id bytes endStream) fun rc => .ite (fun _ => h2Reset_steps rfl) fun _ => .ret
  | read id capacity => exact readResponse_steps id capacity
  | closed id error => exact closedStream_steps id error
  | reset id => exact h2Reset_steps rfl

end

/-! ## What the moves of a callback keep -/

/-- The notes that a callback may leave. -/
def Note.inner : Note → Bool
  | .append _ _ _ | .handed _ _ _ => true
  | n => n.plain

theorem Note.inner_of_plain {n : Note} (h : n.plain = true) : n.inner = true := by
  cases n <;> first | rfl | cases h

theorem Note.inner_closes {n : Note} (h : n.inner = true) : n.closes = false := by
  cases n <;> first | rfl | cases h

theorem sinceClose_append {notes history : List Note} (h : ∀ n ∈ notes, n.closes = false) :
    sinceClose (notes ++ history) = notes ++ sinceClose history := by
  induction notes with
  | nil => rfl
  | cons n notes ih =>
    rw [List.cons_append, sinceClose_cons (h n List.mem_cons_self),
      ih fun m hm => h m (List.mem_cons_of_mem _ hm), List.cons_append]

theorem appendNotes_inner (k : Core) (bytes : Bytes) : ∀ n ∈ k.appendNotes bytes, n.inner = true := by
  unfold Core.appendNotes
  intro n hn
  split at hn
  · split at hn
    all_goals
      simp at hn
      rcases hn with rfl | rfl <;> rfl
  · simp at hn
    rcases hn with rfl
    rfl

/-- The notes of a callback. -/
theorem Call.history {call : Callback} {c c' : Ctx} (h : Call call c c') :
    ∃ notes, c'.history = notes ++ c.history ∧ ∀ n ∈ notes, n.inner = true := by
  have hnil : ∀ n ∈ ([] : List Note), n.inner = true := by simp
  cases h with
  | drift hd =>
    obtain ⟨notes, hhistory, hplain⟩ := hd.history
    exact ⟨notes, hhistory, fun n hn => Note.inner_of_plain (hplain n hn)⟩
  | fault _ hh | respond _ _ hh | reset _ _ hh | close _ hh | update _ hh =>
    exact ⟨[], hh, hnil⟩
  | @begin r l notes k _ _ _ _ hplain _ _ hh =>
    refine ⟨_ ++ notes, by rw [hh, List.append_assoc], ?_⟩
    intro n hn
    rcases List.mem_append.1 hn with hn | hn
    · exact appendNotes_inner _ _ n hn
    · exact Note.inner_of_plain (hplain n hn)
  | @receive frame o k _ _ _ hh =>
    refine ⟨k.appendNotes (Rpc.Outcome.bytes o) ++ [.rpcReceive c.t.rpc o.rpc o.result], by rw [hh]; simp, ?_⟩
    intro n hn
    rcases List.mem_append.1 hn with hn | hn
    · exact appendNotes_inner _ _ n hn
    · simp at hn
      rw [hn]
      rfl
  | register _ _ _ _ hh => exact ⟨_, hh, appendNotes_inner _ _⟩
  | read _ _ _ hh => exact ⟨[_], hh, by simp [Note.inner]⟩

theorem Call.mem {call : Callback} {c c' : Ctx} (h : Call call c c') {n : Note}
    (hn : n ∈ sinceClose c.history) : n ∈ sinceClose c'.history := by
  obtain ⟨notes, hhistory, hcloses⟩ := h.history
  rw [hhistory, sinceClose_append fun n hn => Note.inner_closes (hcloses n hn)]
  exact List.mem_append_right _ hn

/-- The output that is not sent yet and its place, whether there is a session, and since when a write
waits. -/
def Core.output (k : Core) : (Nat × Nat × Bytes) × Bool × Nat :=
  ((k.link.serial, k.link.offset, k.link.pending), k.h2.isSome, k.writeStalledMs)

theorem Core.link_map {h2 : Option Link} (h : h2.isSome = true) (f : Link → Link) :
    (h2.map f).getD {} = f (h2.getD {}) := by
  obtain ⟨l, rfl⟩ := Option.isSome_iff_exists.1 h
  rfl

theorem Core.output_mapLink (k : Core) {f : Link → Link}
    (hf : ∀ l, (f l).serial = l.serial ∧ (f l).offset = l.offset ∧ (f l).pending = l.pending) :
    { k with h2 := k.h2.map f }.output = k.output := by
  cases hh2 : k.h2 with
  | none => simp [Core.output, Core.link, hh2]
  | some l => simp [Core.output, Core.link, hh2, hf l]

theorem Link.resume_output (l : Link) : l.resume.serial = l.serial ∧ l.resume.offset = l.offset ∧
    l.resume.pending = l.pending := by
  unfold Link.resume
  split <;> exact ⟨rfl, rfl, rfl⟩

theorem Core.append_output (k : Core) (bytes : Bytes) : (k.append bytes).output = k.output := by
  unfold Core.append
  split
  · split
    · exact (Core.output_mapLink { k with
        rpcQueue := k.rpcQueue.write k.rpcQueued bytes, rpcQueued := k.rpcQueued + bytes.length }
        Link.resume_output)
    · rfl
  · rfl

/-- A callback does not touch the output. -/
theorem Call.output {call : Callback} {c c' : Ctx} (h : Call call c c') :
    c'.t.core.output = c.t.core.output := by
  cases h with
  | drift hd =>
    obtain ⟨l, hcore, -⟩ := hd.core
    rw [hcore]
    rfl
  | fault hcore _ | update hcore _ =>
    rw [hcore]
    rfl
  | begin _ _ _ _ _ hk hcore _ | receive _ hk hcore _ | register _ _ hk hcore _ =>
    rw [hcore, Core.append_output, hk]
    rfl
  | read _ _ hcore _ | respond _ hcore _ | reset _ hcore _ | close hcore _ =>
    rw [hcore]
    exact Core.output_mapLink { c.t.core with .. } fun _ => ⟨rfl, rfl, rfl⟩

/-! ## Serving a connection -/

/-- The moves that lead to a state. -/
abbrev Moved : Ctx → Ctx → Prop := Relation.ReflTransGen Move

section
variable {start : Ctx} {service : Bytes}

theorem drift_moved {α : Type} {x : M α} (h : Steps Drift x) :
    Triple (Moved start) x fun _ => Moved start :=
  (h.mono fun _ _ => .drift).triple start

theorem Called.moved {call : Callback} {c c' : Ctx} (hmem : .callback call ∈ sinceClose c.history)
    (h : Called call c c') : Moved c c' := by
  suffices Moved c c' ∧ .callback call ∈ sinceClose c'.history from this.1
  induction h with
  | refl => exact ⟨.refl, hmem⟩
  | tail _ hstep ih => exact ⟨ih.1.tail (.call ih.2 hstep), hstep.mem ih.2⟩

theorem Called.output {call : Callback} {c c' : Ctx} (h : Called call c c') :
    c'.t.core.output = c.t.core.output := by
  induction h with
  | refl => rfl
  | tail _ hstep ih => exact hstep.output.trans ih

theorem Tunnel.link_mapLink {t : Tunnel} {l : Link} (h : t.h2 = some l) {f : Link → Link} :
    (t.mapLink f).link = f l := by
  simp [Tunnel.link, Tunnel.mapLink, h]

/-- The output while a connection is served. -/
structure Serving (start : Ctx) (x : (Nat × Nat × Bytes) × Bool × Nat) (c : Ctx) : Prop where
  moved : Moved start c
  output : c.t.core.output = x

variable {x : (Nat × Nat × Bytes) × Bool × Nat}

theorem drift_serving {α : Type} {y : M α} (h : Steps Drift y) :
    Triple (Serving start x) y fun _ => Serving start x := by
  refine h.keeps fun c c' hd hc => ?_
  obtain ⟨l, hcore, -⟩ := hd.core
  refine ⟨hc.moved.tail (.drift hd), ?_⟩
  rw [hcore]
  exact hc.output

theorem run_serving (call : Callback) :
    Triple (Serving start x) call.run fun _ => Serving start x := by
  intro c hc
  have hnote : Moved start (note (.callback call) c).2 :=
    hc.moved.tail (.drift (.note (n := .callback call) rfl rfl rfl))
  have hmem : .callback call ∈ sinceClose (note (.callback call) c).2.history := by
    change _ ∈ sinceClose (_ :: c.history)
    rw [sinceClose_cons rfl]
    exact List.mem_cons_self
  have hcalled : Called call (note (.callback call) c).2 (call.handle (note (.callback call) c).2).2 :=
    handle_steps call _
  refine ⟨Relation.ReflTransGen.tail (hnote.trans (Called.moved hmem hcalled)) (.returned rfl rfl), ?_⟩
  exact (Called.output hcalled).trans hc.output

theorem runCallbacks_serving (calls : List Callback) :
    Triple (Serving start x) (runCallbacks calls) fun _ => Serving start x := by
  induction calls with
  | nil => exact .ret fun _ h => h
  | cons call rest ih => exact .bind (run_serving call) fun _ => ih

/-- A connection is served, with the output that is given. -/
def Linking (start : Ctx) (out : Option Bytes) (c : Ctx) : Prop :=
  Moved start c ∧ c.t.h2.isSome = true ∧ ∀ bytes, out = some bytes → bytes = c.t.link.pending

theorem Linking.serving {out : Option Bytes} {c : Ctx} (h : Linking start out c) :
    Serving start c.t.core.output c :=
  ⟨h.1, rfl⟩

/-- What keeps the output keeps the connection. -/
theorem serving_linking {α : Type} {y : M α}
    (h : ∀ x, Triple (Serving start x) y fun _ => Serving start x) {out : Option Bytes} :
    Triple (Linking start out) y fun _ => Linking start out := by
  intro c hc
  obtain ⟨hmoved, houtput⟩ := h _ c hc.serving
  refine ⟨hmoved, ?_, fun bytes hb => ?_⟩
  · exact (congrArg (fun p => p.2.1) houtput).trans hc.2.1
  · exact (hc.2.2 bytes hb).trans (congrArg (fun p => p.1.2.2) houtput).symm

theorem drift_linking {α : Type} {y : M α} (h : Steps Drift y) {out : Option Bytes} :
    Triple (Linking start out) y fun _ => Linking start out :=
  serving_linking fun _ => drift_serving h

theorem readLoop_linking (rounds : Nat) :
    Triple (Linking start none) (readLoop rounds) fun _ => Linking start none := by
  induction rounds with
  | zero => exact .ret fun _ h => h
  | succ rounds ih =>
    refine .get_bind fun c hc => .ite (fun _ => .ret fun _ h => h.2) fun hstalled => ?_
    refine .bind (Q := fun _ => Linking start none) ?_ fun _ => ?_
    · rintro c' ⟨rfl, -⟩
      refine ⟨hc.1.tail (.tlsRead (not_not.1 hstalled) rfl rfl), hc.2.1, by simp⟩
    refine .bind (Q := fun _ => Linking start none) ?_ fun read => ?_
    · exact drift_linking (.single fun _ => .frame rfl rfl)
    cases read with
    | wantRead | wantWrite => exact .ret fun _ h => h
    | ended n => exact .bind (drift_linking (message_steps _)) fun _ => .ret fun _ h => h
    | bytes callbacks ok =>
      refine .bind (serving_linking fun _ => runCallbacks_serving callbacks) fun _ => ?_
      refine .ite (fun _ => ?_) fun _ => ih
      exact .bind (drift_linking (message_steps _)) fun _ => .ret fun _ h => h

theorem h2Output_linking : Triple (Linking start none) h2Output (Linking start) := by
  refine .bind (drift_linking outcome_steps) fun ok => .ite (fun _ => .ret fun _ h => h) fun _ => ?_
  refine .get_bind fun c hc => .ite (fun _ => .ret ?_) fun hpending => ?_
  · rintro c' ⟨rfl, h⟩
    exact ⟨h.1, h.2.1, fun bytes hb => (Option.some.inj hb).symm⟩
  have hpending : c.t.link.pending = [] := not_not.1 hpending
  -- The callbacks leave the output as it is.
  let Clear : Ctx → Prop := Serving start c.t.core.output
  refine .bind (Q := fun _ => Clear) ?_ fun _ => ?_
  · rintro c' ⟨rfl, -⟩
    exact ⟨hc.1.tail (.memSend hpending rfl rfl), rfl⟩
  refine .bind (Q := fun _ => Clear) (drift_serving (.single fun _ => .frame rfl rfl)) fun out => ?_
  refine .bind (runCallbacks_serving out.1) fun _ => .bind (drift_serving outcome_steps) fun ok => ?_
  have hlinked : ∀ c', Clear c' → c'.t.h2.isSome = true ∧ c'.t.link.pending = [] := by
    intro c' h
    exact ⟨(congrArg (fun p => p.2.1) h.output).trans hc.2.1,
      (congrArg (fun p => p.1.2.2) h.output).trans hpending⟩
  refine .ite (fun _ => .ret fun c' h => ⟨h.moved, (hlinked c' h).1, by simp⟩) fun _ => ?_
  intro c' h
  obtain ⟨hh2, hpending'⟩ := hlinked c' h
  refine ⟨h.moved.tail (.output hh2 hpending' rfl rfl), ?_, fun bytes hb => ?_⟩
  · exact Option.isSome_map.trans hh2
  · obtain ⟨l, hl⟩ := Option.isSome_iff_exists.1 hh2
    obtain rfl := Option.some.inj hb
    exact (congrArg Link.pending (Tunnel.link_mapLink (f := fun l : Link =>
      { l with serial := l.serial + 1, offset := 0, pending := out.2 }) hl)).symm

/-- After a write has been noted. -/
structure Written (c₀ : Ctx) (result : Write) (c : Ctx) : Prop where
  core : c.t.core = c₀.t.core
  history : c.history = .tlsWrite c₀.t.link.serial c₀.t.link.offset
    (c₀.t.link.pending.take chunkSize) result :: c₀.history

/-- A write that has to wait. -/
theorem stall_linking {c₀ : Ctx} (h₀ : Linking start none c₀) (hpending : c₀.t.link.pending ≠ [])
    {result : Write} (hwait : result = .wantRead ∨ result = .wantWrite) :
    Triple (Written c₀ result) stall fun _ => Linking start none := by
  have hrest : Triple (Linking start none) waited fun _ => Linking start none := by
    refine .bind (drift_linking nowMs_steps) fun now => .get_bind fun c hc => Triple.pre ?_ fun _ h => h.2
    refine .ite (fun _ => ?_) fun _ => .ret fun _ h => h
    exact .bind (drift_linking (message_steps _)) fun _ => .ret fun _ h => h
  have hh2 : ∀ c : Ctx, c.t.core.h2 = c₀.t.core.h2 → c.t.h2.isSome = true := by
    intro c hc
    exact (congrArg Option.isSome hc).trans h₀.2.1
  refine .get_bind fun c hc => .ite (fun _ => ?_) fun hstalled => ?_
  · refine .bind (Q := fun _ => Written c₀ result) (fun c' h => ⟨h.2.core, h.2.history⟩) fun now => ?_
    refine .bind (Q := fun _ c => c.t.core = { c₀.t.core with writeStalledMs := now } ∧
      c.history = .tlsWrite c₀.t.link.serial c₀.t.link.offset (c₀.t.link.pending.take chunkSize)
        result :: c₀.history) ?_ fun _ => .bind (Q := fun _ => Linking start none) ?_ fun _ => ?_
    · exact fun c' h => ⟨congrArg (fun k : Core => { k with writeStalledMs := now }) h.core, h.history⟩
    · intro c' h
      exact ⟨h₀.1.tail (.stall hwait hpending h.1 (congrArg _ h.2)), hh2 c' (by rw [h.1]),
        by simp⟩
    exact hrest
  · refine Triple.pre (P := Linking start none) hrest ?_
    rintro c' ⟨rfl, h⟩
    refine ⟨h₀.1.tail (.wait hwait hpending ?_ h.core h.history), hh2 _ (congrArg Core.h2 h.core), by simp⟩
    rw [← show c'.t.writeStalledMs = c₀.t.writeStalledMs from congrArg Core.writeStalledMs h.core]
    exact hstalled

theorem writeChunk_linking {out : Bytes} (hpending : out ≠ []) :
    Triple (Linking start (some out)) (writeChunk out) fun _ => Linking start none := by
  refine .get_bind fun c hc => ?_
  obtain ⟨hmoved, hh2, hout⟩ := hc
  obtain rfl : out = c.t.link.pending := hout out rfl
  refine .bind (Q := fun _ c' => c'.t = c.t ∧ c'.history = c.history) ?_ fun written => ?_
  · rintro c' ⟨rfl, -⟩
    exact ⟨rfl, rfl⟩
  refine .bind (Q := fun _ => Written c written) ?_ fun _ => ?_
  · rintro c' ⟨ht, hhistory⟩
    exact ⟨congrArg Tunnel.core ht, congrArg _ hhistory⟩
  have hfailed : written ≠ .wantRead → written ≠ .wantWrite →
      (∀ n, written = .wrote n → n = 0 ∨ c.t.link.pending.length < n) → ∀ text : String,
      Triple (Written c written) (do message text; return some false) fun _ => Linking start none := by
    intro hread hwrite hwrote text
    refine .bind (Q := fun _ => Linking start none) ?_ fun _ => .ret fun _ h => h
    intro c' h
    refine drift_linking (message_steps text) c' ⟨hmoved.tail (.failed hread hwrite hwrote h.core h.history),
      (congrArg (fun k : Core => k.h2.isSome) h.core).trans hh2, by simp⟩
  cases written with
  | wantRead =>
    exact .bind (stall_linking ⟨hmoved, hh2, by simp⟩ hpending (Or.inl rfl)) fun _ => .ret fun _ h => h
  | wantWrite =>
    exact .bind (stall_linking ⟨hmoved, hh2, by simp⟩ hpending (Or.inr rfl)) fun _ => .ret fun _ h => h
  | failed n => exact hfailed nofun nofun nofun _
  | wrote n =>
    refine .ite (fun hn => hfailed nofun nofun (fun m hm => ?_) _) fun hn => ?_
    · obtain rfl := Write.wrote.inj hm
      exact hn
    obtain ⟨hzero, hle⟩ := not_or.1 hn
    refine .bind (Q := fun _ => Linking start none) ?_ fun _ => .ret fun _ h => h
    intro c' h
    refine ⟨hmoved.tail (.wrote hh2 hzero (Nat.not_lt.1 hle) ?_ h.history), ?_, by simp⟩
    · exact congrArg (fun k : Core => { k with
        h2 := k.h2.map fun l : Link => { l with offset := l.offset + n, pending := l.pending.drop n }
        writeStalledMs := 0 }) h.core
    · exact Option.isSome_map.trans ((congrArg (fun k : Core => k.h2.isSome) h.core).trans hh2)

theorem writeLoop_linking (rounds : Nat) :
    Triple (Linking start none) (writeLoop rounds) fun _ => Linking start none := by
  induction rounds with
  | zero => exact .ret fun _ h => h
  | succ rounds ih =>
    refine .bind h2Output_linking fun out => ?_
    cases out with
    | none => exact .bind (drift_linking (message_steps _)) fun _ => .ret fun _ h => h
    | some out =>
      refine .ite (fun _ => .ret fun _ h => ⟨h.1, h.2.1, by simp⟩) fun hpending => ?_
      refine .bind (writeChunk_linking hpending) fun ended => ?_
      cases ended with
      | none => exact ih
      | some ok => exact .ret fun _ h => h

/-- An update may be applied: the statistics have just been read. -/
structure Asking (ps : Bool) (before : List Note) (c : Ctx) : Prop where
  linked : Linked c.t.view c.history
  history : c.history = .stats ps :: before
  ready : ps = true → c.t.life.state ≠ .http2

theorem applyUpdate_linking {c : Ctx} (hc : Linking start none c) {ps : Bool} {before : List Note}
    (hask : Asking ps before c) (hpending : c.t.configPending = true) :
    Linking start none (applyUpdate c).2 := by
  have hspec : Triple (fun c' => c' = c) applyUpdate fun _ => Linking start none := by
    refine .get_bind fun c' hc' => ?_
    obtain rfl := hc'
    obtain ⟨applied, happlied⟩ : ∃ applied, applied = configApply c'.oracle.parse c'.t.remote
      (c'.t.configBytes.read 0 c'.t.configUsed) (cString c'.t.hostname) c'.t.service := ⟨_, rfl⟩
    have happlies := configApply_applies c'.oracle.parse c'.t.remote
      (c'.t.configBytes.read 0 c'.t.configUsed) (cString c'.t.hostname) c'.t.service
    dsimp only
    rw [← happlied] at happlies ⊢
    obtain ⟨e, he⟩ : ∃ e, e = if applied.result = .ok then Event.configApplied else .configRejected :=
      ⟨_, rfl⟩
    rw [← he]
    let Stored : Life → List Note → Ctx → Prop := fun l notes c => ∃ fault,
      (c'.t.fault = true → fault = true) ∧ c.t.core = { c'.t.core with
        remote := applied.config, configPending := false, fault := fault, life := l } ∧
        c.t.configReply = ((configResponse applied.config applied.result 128).toOption).getD [] ∧
        c.history = notes ++
          .configApply (cString c'.t.hostname) c'.t.service applied.result :: c'.history
    refine .bind (Q := fun _ c => c = { c' with
      history := .configApply (cString c'.t.hostname) c'.t.service applied.result :: c'.history }) ?_
      fun _ => ?_
    · rintro _ ⟨rfl, -⟩
      rfl
    refine .bind (Q := fun _ => Stored c'.t.life []) ?_ fun _ => ?_
    · rintro _ rfl
      exact ⟨c'.t.fault, id, rfl, rfl, rfl⟩
    refine .bind (Q := fun _ => Stored c'.t.life []) (fun _ h => h) fun rc => ?_
    refine .when (A := Stored c'.t.life []) (fun _ c h => ?_) (fun _ _ h => h) ?_
    · obtain ⟨fault, -, hcore, hrest⟩ := h
      exact ⟨true, fun _ => rfl, congrArg (fun k : Core => { k with fault := true }) hcore, hrest⟩
    refine .bind (Q := fun _ c => ∃ rc, Stored (lifecycleAdvance c'.t.life e).1
      [.lifecycle .applyConfig rc] c) ?_ fun _ => ?_
    · rintro c ⟨fault, hfault, hcore, hreply, hhistory⟩
      have hlife : c.t.life = c'.t.life := congrArg Core.life hcore
      refine ⟨(lifecycleAdvance c.t.life e).2, fault, hfault, ?_, hreply, congrArg _ hhistory⟩
      rw [← hlife]
      exact congrArg (fun k : Core => { k with life := (lifecycleAdvance c.t.life e).1 }) hcore
    refine .get_bind fun c₁ hc₁ => .bind (Q := fun _ => Linking start none) ?_
      fun _ => drift_linking (message_steps _)
    rintro c ⟨rfl, rc, fault, hfault, hcore, hreply, hhistory⟩
    have hnoted : (note (.configReply c.t applied.result) c).2.history =
        .configReply c.t applied.result :: .lifecycle .applyConfig rc ::
          .configApply (cString c'.t.hostname) c'.t.service applied.result :: c'.history :=
      congrArg _ hhistory
    refine ⟨hc.1.tail (.apply hask.linked hpending hask.history hask.ready happlies hfault ?_ rfl hreply
      hnoted),
      (congrArg (fun k : Core => k.h2.isSome) hcore).trans hc.2.1, by simp⟩
    rw [← he]
    exact hcore
  exact hspec c rfl

theorem applyConfig_linking {ps : Bool} {before : List Note} :
    Triple (fun c => Linking start none c ∧ Asking ps before c) applyConfig
      fun _ => Linking start none := by
  refine .get_bind fun c hc => .ite (fun hpending => ?_) fun _ => .ret fun _ h => h.2.1
  refine .bind (Q := fun _ c' => (Linking start none c' ∧ Asking ps before c') ∧
    c'.t.configPending = true) ?_ fun locked => .ite (fun _ => ?_) fun _ => .ret fun _ h => h.1.1
  · rintro c' ⟨rfl, h⟩
    exact ⟨⟨drift_linking outcome_steps c' h.1, h.2.linked, h.2.history, h.2.ready⟩, hpending⟩
  · exact fun c' h => applyUpdate_linking h.1.1 h.1.2 h.2

theorem shutdownWhenClosed_steps : Steps Drift shutdownWhenClosed :=
  .get_bind fun _ => .ite (fun _ => modify_steps fun _ => rfl) fun _ => .ret

theorem checkDeadlines_steps : Steps Drift checkDeadlines := by
  have hlate : ∀ text : String, Steps Drift (do
      if (← nowMs) ≥ (← get).t.deadlineMs then
        message text
        return false
      return true) := fun text => .bind nowMs_steps fun now => .get_bind fun c =>
    .ite (fun _ => .bind (message_steps text) fun _ => .ret) fun _ => .ret
  have hconfig : Steps Drift (do
      if (← get).t.life.state = .waitConfig then
        if (← nowMs) ≥ (← get).t.deadlineMs then
          message "No ingress configuration received. Check the tunnel public hostname."
          return false
      return true) := .get_bind fun c => .ite (fun _ => hlate _) fun _ => .ret
  refine .get_bind fun c => .ite (fun _ => ?_) fun _ => hconfig
  refine .bind nowMs_steps fun now => .get_bind fun c => .ite (fun _ => ?_) fun _ => hconfig
  exact .bind (message_steps _) fun _ => .ret

theorem communicate_linking : Triple (fun c => Live service c ∧ Linking start none c) communicate
    fun _ => Linking start none := by
  have hfail : ∀ text : String, Triple (Linking start none) (do message text; return false)
      fun _ => Linking start none := fun text => .bind (drift_linking (message_steps text)) fun _ => .ret fun _ h => h
  refine .bind ((readLoop_live 8).and (readLoop_linking 8)) fun ok => ?_
  refine .ite (fun _ => .ret fun _ h => h.2) fun _ => .get_bind fun c hc => ?_
  obtain ⟨ps, hps⟩ : ∃ ps, ps = c.oracle.stats.peerSettings := ⟨_, rfl⟩
  rw [← hps]
  -- Once the settings have come, the state is not `http2` any more.
  let Ready : Ctx → Prop := fun c => (Live service c ∧ Linking start none c) ∧
    (ps = true → c.t.life.state ≠ .http2)
  refine .when (A := Ready) (fun hs => ?_) (fun hs => ?_) ?_
  · rintro c' ⟨rfl, h⟩
    have hready : Triple (fun c => Live service c ∧ c.t.life.state = .http2)
        (advance .communicate .http2Ready) fun _ c => Live service c ∧ c.t.life.state ≠ .http2 :=
      http2Ready_live (by simp)
    obtain ⟨hlive, hstate⟩ := hready c' ⟨h.1, hs.2⟩
    exact ⟨⟨hlive, drift_linking (advance_steps _ (by simp) (by simp)) c' h.2⟩, fun _ => hstate⟩
  · rintro c' ⟨rfl, h⟩
    exact ⟨h, fun hp hstate => hs ⟨hp, hstate⟩⟩
  refine .bind (Q := fun _ c => Linking start none c ∧ ∃ before, Asking ps before c) ?_ fun _ => ?_
  · rintro c' ⟨⟨hlive, hlinking⟩, hready⟩
    exact ⟨drift_linking (note_steps rfl) c' hlinking, c'.history, hlive.linked.note rfl, rfl, hready⟩
  refine .ite (fun _ => (hfail _).pre fun _ h => h.1) fun _ => .ite (fun _ => .ret fun _ h => h.1)
    fun _ => .bind (Q := fun _ => Linking start none) ?_ fun _ => ?_
  · rintro c' ⟨h, before, hask⟩
    exact applyConfig_linking c' ⟨h, hask⟩
  refine .bind (drift_linking shutdownWhenClosed_steps) fun _ => ?_
  refine .bind (writeLoop_linking 8) fun ok => .ite (fun _ => .ret fun _ h => h) fun _ => ?_
  refine .bind (drift_linking checkDeadlines_steps) fun ok => .ite (fun _ => .ret fun _ h => h) fun _ => ?_
  refine .bind (drift_linking outcome_steps) fun ok => .ite (fun _ => ?_) fun _ => .ret fun _ h => h
  exact .bind h2Output_linking fun _ => .ret fun _ h => ⟨h.1, h.2.1, by simp⟩

/-! ## Closing -/

theorem closeConnection_core (c : Ctx) :
    (closeConnection c).2.t.core = .closed c.t.life c.t.stopping ∧
      (closeConnection c).2.history = .closeConnection :: c.history := by
  obtain ⟨hend, -⟩ := closeConnection_ending c
  have hclosed : (closeConnection c).2.t.core =
      .closed (closeConnection c).2.t.life (closeConnection c).2.t.stopping := by
    unfold closeConnection
    rw [run_bind, run_bind, run_bind, run_get]
    split <;> rfl
  rw [hclosed, hend.life, hend.stopping]
  exact ⟨rfl, hend.history⟩

/-- A connection is closed, after what the lifecycle does before. -/
theorem close_moves {c c₁ : Ctx} (h : ∃ l notes, c₁.t.core = { c.t.core with life := l } ∧
    c₁.history = notes ++ c.history ∧ ∀ n ∈ notes, n.plain = true) : Move c (closeConnection c₁).2 := by
  obtain ⟨l, notes, hcore, hhistory, hplain⟩ := h
  obtain ⟨hcore', hhistory'⟩ := closeConnection_core c₁
  rw [hhistory] at hhistory'
  refine .close (l := c₁.t.life) hplain ?_ hhistory'
  rw [hcore', show c₁.t.stopping = c.t.stopping from congrArg Core.stopping hcore]

theorem closeConnection_steps : Steps Move closeConnection :=
  .single fun c => close_moves ⟨c.t.life, [], rfl, rfl, by simp⟩

theorem retry_steps : Steps Move retry := by
  intro c
  unfold retry
  rw [run_bind_eq (run_get c)]
  by_cases hfinal : c.t.rpc.state = .rejected ∧ !c.t.rpc.shouldRetry
  · rw [if_pos hfinal]
    exact .single (close_moves ⟨_, [.lifecycle .retry _], rfl, rfl, by simp [Note.plain]⟩)
  · rw [if_neg hfinal]
    exact .single (close_moves ⟨_, [.retried _ _ _ _, .lifecycle .retry _], rfl, rfl, by simp [Note.plain]⟩)

/-! ## An iteration -/

/-- A connection is set up where there was none. -/
theorem startHttp2_moved {c : Ctx} (hnone : c.t.h2 = none) : Moved c (startHttp2 c).2 := by
  have hspec : Triple (fun c' => c' = c) startHttp2 fun _ => Moved c := by
    refine .bind (Q := fun _ c' => c'.t = c.t ∧ c'.history = c.history) ?_ fun created => ?_
    · rintro _ rfl
      exact ⟨rfl, rfl⟩
    refine .bind (Q := fun _ => Moved c) ?_ fun _ => ?_
    · rintro c' ⟨ht, hhistory⟩
      cases created with
      | true => exact .single (.link hnone (congrArg (fun t : Tunnel => { t.core with h2 := some {} }) ht) hhistory)
      | false =>
        refine .single (.drift (.frame ?_ hhistory))
        have hcore : c.t.core = { c.t.core with h2 := none } := by
          rw [Tunnel.core, hnone]
        rw [hcore]
        exact congrArg (fun t : Tunnel => { t.core with h2 := none }) ht
    refine .ite (fun _ => drift_moved (.bind (message_steps _) fun _ => .ret)) fun _ => ?_
    refine .bind (drift_moved (advance_steps _ (by simp) (by simp))) fun _ => ?_
    refine .bind (drift_moved nowMs_steps) fun now => ?_
    refine .bind (Q := fun _ => Moved c) (drift_moved (modify_steps fun _ => rfl)) fun _ => ?_
    exact .bind (drift_moved (message_steps _)) fun _ => .ret fun _ h => h
  exact hspec c rfl

theorem connectTls_moved : Triple (fun c => Moved start c ∧ c.t.h2 = none) connectTls
    fun _ => Moved start := by
  let Bare : Ctx → Prop := fun c => Moved start c ∧ c.t.h2 = none
  refine .get_bind fun c hc => ?_
  refine .when (A := Bare) (fun _ => ?_) (fun _ _ h => h.2) ?_
  · rintro c' ⟨rfl, h⟩
    exact ⟨drift_moved (advance_steps _ (by simp) (by simp)) c' h.1, h.2⟩
  refine .bind (Q := fun _ => Bare) (fun c h => ⟨drift_moved nowMs_steps c h.1, h.2⟩) fun now => ?_
  have hfail : ∀ text : String, Triple Bare (do message text; return false) fun _ => Moved start :=
    fun text => (drift_moved (.bind (message_steps text) fun _ => .ret)).pre fun _ h => h.1
  cases c.oracle.handshake with
  | failed stage handshaking => exact hfail _
  | pending handshaking => exact .ite (fun _ => hfail _) fun _ => .ret fun _ h => h.1
  | done => exact fun c h => h.1.trans (startHttp2_moved h.2)

theorem reload_steps : Steps Move reload := by
  intro c
  obtain ⟨hcore, hhistory⟩ := closeConnection_core c
  have hcore' : (reload c).2.t.core =
      .closed (lifecycleStart (lifecycleStop (closeConnection c).2.t.life)).1 false :=
    congrArg (fun k : Core => { k with
      life := (lifecycleStart (lifecycleStop (closeConnection c).2.t.life)).1, stopping := false }) hcore
  exact (closeConnection_steps c).tail (.restart (by rw [hhistory]; rfl) hcore hcore' rfl)

theorem finish_core (c : Ctx) :
    (finish c).2.t.core = .closed (lifecycleStop (closeConnection c).2.t.life) c.t.stopping ∧
      (finish c).2.history = .closeConnection :: c.history := by
  obtain ⟨hcore, hhistory⟩ := closeConnection_core c
  refine ⟨?_, hhistory⟩
  exact congrArg (fun k : Core => { k with life := lifecycleStop (closeConnection c).2.t.life }) hcore

theorem finish_steps : Steps Move finish := by
  intro c
  obtain ⟨hcore, hhistory⟩ := closeConnection_core c
  exact (closeConnection_steps c).tail (.restart (by rw [hhistory]; rfl) hcore (finish_core c).1 rfl)

theorem serveRequests_moved : Triple (Moved start) serveRequests fun _ => Moved start := by
  refine .get_bind fun c hc => .bind (Q := fun _ => Moved start) ?_ fun _ => ?_
  · exact fun c' h => h.2.tail (.drift (.frame rfl rfl))
  refine .when (A := Moved start) (fun _ => reload_steps.triple start) (fun _ _ h => h) ?_
  refine .get_bind fun c₁ hc₁ => .ite (fun _ => .ret fun _ h => h.2) fun _ => ?_
  refine .get_bind fun c₂ hc₂ => .ite (fun _ => .ret fun _ h => h.2.2) fun _ => ?_
  have hend : Triple (Moved start) (do
      let now ← nowMs
      modifyTunnel fun t => { t with
        stopping := true, shutdownMs := now + 2000, life := { t.life with state := .stopping } }
      return true) fun _ => Moved start := by
    refine .bind (drift_moved nowMs_steps) fun now => .bind (Q := fun _ => Moved start) ?_
      fun _ => .ret fun _ h => h
    exact fun c h => h.tail (.stop rfl rfl)
  obtain ⟨o, ho⟩ : ∃ o, o = Rpc.rpcUnregister c₂.t.rpc zeros Rpc.txMax := ⟨_, rfl⟩
  dsimp only
  rw [← ho]
  refine .bind (Q := fun _ c => c.t.core = { c₂.t.core with rpc := o.rpc } ∧ c.history = c₂.history)
    ?_ fun _ => ?_
  · rintro _ ⟨rfl, -⟩
    exact ⟨rfl, rfl⟩
  refine .ite (fun hok => .bind (Q := fun _ => Moved start) ?_ fun _ => hend) fun hfailed => ?_
  · rintro c ⟨hcore, hhistory⟩
    obtain ⟨hcore', hhistory'⟩ := appendRpc_core (Rpc.Outcome.bytes o) c
    rw [hcore] at hcore' hhistory'
    rw [hhistory] at hhistory'
    exact hc₂.2.tail (.unregister ho hok rfl hcore' hhistory')
  · refine hend.pre fun c h => hc₂.2.tail (.drift (.frame ?_ h.2))
    rw [h.1, ho, Rpc.rpcUnregister_failed (by rw [← ho]; exact hfailed)]
    rfl

/-- The lifecycle's part of the report, where it keeps the configured flag. -/
theorem report_moved {env : Environment} {c : Ctx} (hc : Moved start c)
    (hkeep : c.t.remote.valid = true → ∀ now, (lifecycleTick
      (lifecycleEnvironment c.t.life env.networkReady env.timeValid) now).configured =
        c.t.life.configured) : Moved start (report env c).2 :=
  hc.tail (.drift ⟨⟨_, rfl, fun hv => hkeep hv _⟩, [], rfl, by simp⟩)

theorem serveEnvironment_moved :
    Triple (fun c => Settled service c ∧ Moved start c) serveEnvironment fun _ => Moved start := by
  refine .get_bind fun c hc => ?_
  obtain ⟨env, henv⟩ : ∃ env, env = c.oracle.environment := ⟨_, rfl⟩
  dsimp only
  rw [← henv]
  let Now : Ctx → Prop := fun c' => c'.t.core = c.t.core ∧ c'.t.view = c.t.view ∧ Moved start c'
  refine .bind (Q := fun _ => Now) ?_ fun _ => .bind (Q := fun _ => Now) ?_ fun _ => ?_
  · rintro c' ⟨rfl, h⟩
    exact ⟨rfl, rfl, h.2.tail (.drift (.frame rfl rfl))⟩
  · rintro c' ⟨hcore, hview, h⟩
    exact ⟨hcore, hview, h.tail (.drift (.note (n := .environment _ _) rfl rfl rfl))⟩
  refine .ite (fun hlost => ?_) fun hready => ?_
  · refine .get_bind fun c₁ hc₁ => .ite (fun _ => .ret fun _ h => h.2.2.2) fun _ => ?_
    refine .ite (fun _ => ?_) fun hheld => ?_
    · refine .bind (Q := fun _ c' => Moved start c' ∧ c'.t.remote.valid = false) ?_ fun _ => ?_
      · rintro c' ⟨rfl, h⟩
        refine ⟨h.2.2.trans (closeConnection_steps c'), ?_⟩
        rw [show (closeConnection c').2.t.remote = configInit from
          congrArg Core.remote (closeConnection_core c').1]
        rfl
      · exact fun c' h => report_moved h.1 fun hv => absurd (h.2.symm.trans hv) (by simp)
    · rintro c' ⟨rfl, hcore, hview, h⟩
      refine report_moved h fun hv => ?_
      obtain ⟨htls, hdns⟩ := not_or.1 hheld
      have hempty := hc.1.phase.empty
        ((congrArg View.tls hview).symm.trans (Bool.eq_false_of_not_eq_true htls))
        ((congrArg View.dnsSocket hview).symm.trans (Bool.eq_false_of_not_eq_true hdns))
      rw [show c'.t.remote = configInit from (congrArg View.remote hview).trans hempty.remote] at hv
      cases hv
  · have hready : env.networkReady = true ∧ env.timeValid = true := by simpa using hready
    intro c' h
    refine report_moved h.2.2 fun _ now => ?_
    rw [hready.1, hready.2, report_ready_eq]

theorem serveState_moved : Triple (fun c => Reported service true c ∧ Moved start c) serveState
    fun _ => Moved start := by
  refine .get_bind fun c hc => ?_
  obtain ⟨⟨hsteady, hphase⟩, hmoved⟩ := hc
  obtain ⟨hphase, hsurveyed⟩ := hphase rfl
  have hretry : ∀ ok : Bool, Triple (Moved start) (if !ok then do retry; return true else return true)
      fun _ => Moved start := by
    intro ok
    exact .ite (fun _ => .bind (retry_steps.triple start) fun _ => .ret fun _ h => h) fun _ => .ret fun _ h => h
  refine .ite (fun _ => ?_) fun _ => .ite (fun hs => ?_) fun _ => .ite (fun hh2 => ?_) fun _ => .ret ?_
  · exact .bind ((drift_moved discover_steps).pre fun _ h => h.2.2) hretry
  · refine .bind (connectTls_moved.pre ?_) hretry
    rintro c' ⟨rfl, -, h⟩
    refine ⟨h, ?_⟩
    by_contra hnone
    have hlinked := (hphase.linked_of_h2 (Option.isSome_iff_ne_none.2 hnone)).state
    have hs : c'.t.view.life.state = .connect ∨ c'.t.view.life.state = .tls := hs
    rcases hs with hs | hs <;> rw [hs] at hlinked <;> simp [linkedState] at hlinked
  · refine .bind (Q := fun _ => Moved start) ?_ fun ok => ?_
    · rintro c' ⟨rfl, -, h⟩
      refine (communicate_linking c' ⟨⟨hsteady.sound, hsteady.service, hphase.linked_of_h2 hh2,
        hsurveyed hh2⟩, h, hh2, by simp⟩).1
    · refine .ite (fun _ => .get_bind fun c₁ _ => .ite (fun _ => .ret fun _ h => h.2) fun _ => ?_)
        fun _ => .ret fun _ h => h
      exact .bind ((retry_steps.triple start).pre fun _ h => h.2) fun _ => .ret fun _ h => h
  · rintro c' ⟨rfl, -, h⟩
    exact h

theorem serveShutdown_steps : Steps Drift serveShutdown :=
  .get_bind fun _ => .ite (fun _ => .bind nowMs_steps fun _ => .get_bind fun _ => .ret) fun _ => .ret

/-- An iteration makes moves only. -/
theorem iterate_moved {c : Ctx} (hc : Settled service c) : Moved c (iterate c).2 := by
  have hspec : Triple (fun c' => Settled service c' ∧ Moved c c') iterate fun _ => Moved c := by
    refine .bind (Q := fun _ c' => Settled service c' ∧ Moved c c') ?_ fun _ => ?_
    · rintro c' ⟨h, hmoved⟩
      exact ⟨⟨⟨⟨trivial, h.sound⟩, h.service⟩, h.phase.note rfl⟩, drift_moved (note_steps rfl) c' hmoved⟩
    refine .bind (serveRequests_spec.and serveRequests_moved) fun ok => ?_
    cases ok with
    | false => exact .ret fun _ h => h.2
    | true =>
    refine .bind (Q := fun ok c' => Reported service ok c' ∧ Moved c c') ?_ fun ok => ?_
    · rintro c' ⟨h, hmoved⟩
      have hsettled : Settled service c' := ⟨h.1, h.2 rfl⟩
      exact ⟨serveEnvironment_spec c' hsettled, serveEnvironment_moved c' ⟨hsettled, hmoved⟩⟩
    cases ok with
    | false => exact .ret fun _ h => h.2
    | true =>
    refine .bind serveState_moved fun ok => ?_
    cases ok with
    | false => exact .ret fun _ h => h
    | true => exact drift_moved serveShutdown_steps
  exact hspec c ⟨hc, .refl⟩

end

/-- A move adds to the history. -/
theorem Move.suffix {c c' : Ctx} (h : Move c c') : c.history <:+ c'.history := by
  cases h with
  | drift hd =>
    obtain ⟨notes, hhistory, -⟩ := hd.history
    exact ⟨notes, hhistory.symm⟩
  | call _ hcall =>
    obtain ⟨notes, hhistory, -⟩ := hcall.history
    exact ⟨notes, hhistory.symm⟩
  | stop _ hh | link _ _ hh | restart _ _ _ hh => exact ⟨[], hh.symm⟩
  | unregister _ _ _ _ hh => exact ⟨_, hh.symm⟩
  | returned _ hh | tlsRead _ _ hh | memSend _ _ hh | output _ _ _ hh | wrote _ _ _ _ hh
  | failed _ _ _ _ hh | wait _ _ _ _ hh => exact ⟨[_], hh.symm⟩
  | stall _ _ _ hh => exact ⟨[_, _], hh.symm⟩
  | apply _ _ _ _ _ _ _ _ _ hh => exact ⟨[_, _, _], hh.symm⟩
  | close _ _ hh => exact ⟨.closeConnection :: _, hh.symm⟩

/-! ## Runs -/

/-- A tunnel between iterations. -/
def World.ctx (w : World) : Ctx := { t := w.t, history := w.history }

/-- A task that does not run has no connection. -/
def World.Closed (w : World) : Prop :=
  (∃ l stopping, w.t.core = .closed l stopping) ∧ sinceClose w.history = []

theorem tunnelInit_closed {s : Setup} {t : Tunnel} (h : tunnelInit s = some t) : World.Closed { t } := by
  unfold tunnelInit at h
  split at h
  · cases h
  · obtain rfl := Option.some.inj h
    exact ⟨⟨_, _, rfl⟩, rfl⟩

theorem World.step_moved {service : Bytes} {w : World} (h : Inv service w) (hrunning : w.running = true)
    (o : Oracle) : Moved w.ctx (w.step o).ctx ∧ ((w.step o).running = false → (w.step o).Closed) := by
  have hask : Move w.ctx ⟨w.t.ask o, o, w.history⟩ := .drift (.frame rfl rfl)
  have hmoved := iterate_moved (c := ⟨w.t.ask o, o, w.history⟩)
    ⟨⟨h.sound, h.service⟩, h.running hrunning⟩
  unfold World.step
  generalize iterate ⟨w.t.ask o, o, w.history⟩ = p at hmoved
  obtain ⟨continues, c⟩ := p
  have hpath : Moved w.ctx c := Relation.ReflTransGen.head hask hmoved
  cases continues with
  | true => exact ⟨hpath.tail (.drift (.frame rfl rfl)), fun h => by cases h⟩
  | false =>
    obtain ⟨hcore, hhistory⟩ := finish_core c
    refine ⟨(hpath.trans (finish_steps c)).tail (.drift (.frame rfl rfl)), fun _ => ⟨⟨_, _, hcore⟩, ?_⟩⟩
    change sinceClose (finish c).2.history = []
    rw [hhistory]
    rfl

/-- A tunnel that is reached is reached by moves from one that is new. -/
theorem Reach.moved {s : Setup} {w : World} (h : Reach s w) :
    (∃ t, tunnelInit s = some t ∧ Moved { t } w.ctx) ∧ (w.running = false → w.Closed) := by
  induction h with
  | init ht => exact ⟨⟨_, ht, .refl⟩, fun _ => tunnelInit_closed ht⟩
  | @start w _ hrunning ih =>
    obtain ⟨⟨t, ht, hpath⟩, hclosed⟩ := ih
    obtain ⟨⟨l, stopping, hcore⟩, hsince⟩ := hclosed hrunning
    have hcore' : w.start.ctx.t.core = .closed (lifecycleStart w.t.life).1 false :=
      congrArg (fun k : Core => { k with life := (lifecycleStart w.t.life).1, stopping := false }) hcore
    exact ⟨⟨t, ht, hpath.tail (.restart hsince hcore hcore' rfl)⟩, fun h => by cases h⟩
  | step o hreach hrunning ih =>
    obtain ⟨⟨t, ht, hpath⟩, -⟩ := ih
    obtain ⟨hmoved, hclosed⟩ := World.step_moved hreach.inv hrunning o
    exact ⟨⟨t, ht, hpath.trans hmoved⟩, hclosed⟩

/-- What a new tunnel has and every move keeps holds of every tunnel that is reached. -/
theorem Reach.keeps {s : Setup} {w : World} (h : Reach s w) {K : Ctx → Prop}
    (hinit : ∀ t l stopping, t.core = .closed l stopping → K { t })
    (hmove : ∀ c c', Move c c' → K c → K c') : K w.ctx := by
  obtain ⟨⟨t, ht, hpath⟩, -⟩ := h.moved
  obtain ⟨⟨l, stopping, hcore⟩, -⟩ := tunnelInit_closed ht
  have hstart : K { t } := hinit t l stopping hcore
  generalize w.ctx = c at hpath
  induction hpath with
  | refl => exact hstart
  | tail _ hstep ih => exact hmove _ _ hstep ih

end EspCfTunnel.Task
