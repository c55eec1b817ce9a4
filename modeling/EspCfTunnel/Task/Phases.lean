import EspCfTunnel.Framing.Frames
import EspCfTunnel.Rpc.Trace
import EspCfTunnel.Task.Basic

/-!
# The phases of the task

The lifecycle reducer says in which state the task is, while the connection is held by handles and
the registration and the configuration are held by other modules. What ties them together is an
invariant over four phases: the task holds nothing (`Resting`), waits for a DNS answer
(`Discovering`), waits for TLS (`Connecting`), or has an HTTP/2 connection (`Linked`). Most fields of
a tunnel play no part, so a phase is about the `View` of a tunnel; a change of the other fields needs
no argument.
-/

namespace EspCfTunnel.Task

open EspCfTunnel StateLogic Lifecycle Config

/-! ## History -/

def Note.closes : Note → Bool
  | .closeConnection => true
  | _ => false

def Note.begins : Note → Bool
  | .iteration => true
  | _ => false

/-- What has happened since the last `close_connection`. -/
def sinceClose (history : List Note) : List Note := history.takeWhile fun n => !n.closes

/-- What has happened in the current iteration. -/
def sinceBegin (history : List Note) : List Note := history.takeWhile fun n => !n.begins

/-- `cf_rpc_receive` has accepted a registration success on this connection. -/
def Registered (history : List Note) : Prop :=
  ∃ before after, .rpcReceive before after .ok ∈ sinceClose history ∧
    before.state = .registering ∧ after.state = .registered

/-- `cf_config_apply_ex` has accepted an update for the hostname and the service on this
connection. -/
def Configured (history : List Note) (hostname service : Bytes) : Prop :=
  .configApply hostname service .ok ∈ sinceClose history

/-- Network and clock have been reported ready in this iteration. -/
def Surveyed (history : List Note) : Prop := .environment true true ∈ sinceBegin history

/-- The application may be asked about the request. -/
structure Permitted (service : Bytes) (t : Tunnel) (r : H2.Request) (history : List Note) : Prop where
  online : t.life.state = .online
  stopping : t.stopping = false
  registered : Registered history
  configured : Configured history (cString t.hostname) service
  surveyed : Surveyed history
  authority : H2.header r.headers (text ":authority") = cString t.hostname

/-- What holds of a note, with what has happened before it: the application is asked only about
permitted requests, the results that `retry`, `discover` and `connect_tls` drop are successes, and a
retry keeps to the hint of the client. -/
def Note.Sound (service : Bytes) (before : List Note) : Note → Prop
  | .request t r => Permitted service t r before
  | .lifecycle site result =>
    site = .retry ∨ site = .discover ∨ site = .connectTls → result = .ok
  | .retried t now random life =>
    lifecycleRetry t.life now (retryHint t.rpc) random = (life, .ok)
  | _ => True

/-- Every note of the history is sound. -/
def Sound (service : Bytes) : List Note → Prop
  | [] => True
  | n :: before => n.Sound service before ∧ Sound service before

theorem Sound.split {service : Bytes} {later before : List Note} {n : Note}
    (h : Sound service (later ++ n :: before)) : n.Sound service before := by
  induction later with
  | nil => exact h.1
  | cons m later ih => exact ih h.2

section
variable {history : List Note} {n : Note}

theorem sinceClose_cons (hn : n.closes = false) :
    sinceClose (n :: history) = n :: sinceClose history := by
  simp [sinceClose, hn]

theorem sinceBegin_cons (hn : n.begins = false) :
    sinceBegin (n :: history) = n :: sinceBegin history := by
  simp [sinceBegin, hn]

theorem Registered.cons (h : Registered history) (hn : n.closes = false) :
    Registered (n :: history) := by
  obtain ⟨before, after, hmem, hstates⟩ := h
  refine ⟨before, after, ?_, hstates⟩
  rw [sinceClose_cons hn]
  exact List.mem_cons_of_mem _ hmem

theorem Configured.cons {hostname service : Bytes} (h : Configured history hostname service)
    (hn : n.closes = false) : Configured (n :: history) hostname service := by
  rw [Configured, sinceClose_cons hn]
  exact List.mem_cons_of_mem _ h

theorem Surveyed.cons (h : Surveyed history) (hn : n.begins = false) : Surveyed (n :: history) := by
  rw [Surveyed, sinceBegin_cons hn]
  exact List.mem_cons_of_mem _ h

end

/-! ## Views and phases -/

/-- What the phases are about. -/
structure View where
  service : Bytes
  life : Life
  rpc : Rpc.Client
  remote : Remote
  linked : Bool
  tls : Bool
  credentials : Rpc.Credentials
  hostname : Bytes
  dnsAnswer : Bool
  dnsSocket : Bool
  attemptStarted : Bool
  stopping : Bool
  rpcQueue : Mem
  rpcQueued : Nat

def Tunnel.view (t : Tunnel) : View :=
  ⟨t.service, t.life, t.rpc, t.remote, t.h2.isSome, t.tls, t.credentials, t.hostname,
    t.dnsAnswer.isSome, t.dnsSocket, t.attemptStarted, t.stopping, t.rpcQueue, t.rpcQueued⟩

/-- The state of a task without a connection or an attempt. -/
def restingState (s : State) : Prop :=
  s = .waitNetwork ∨ s = .waitTime ∨ s = .backoff ∨ s = .authFailed ∨ s = .discovery

/-- The state of a task with an HTTP/2 connection. -/
def linkedState (s : State) : Prop :=
  s = .http2 ∨ s = .registering ∨ s = .waitConfig ∨ s = .online ∨ s = .configFailed ∨ s = .stopping

def Ready (l : Life) : Prop := l.networkReady = true ∧ l.timeReady = true

def Unflagged (l : Life) : Prop := l.registered = false ∧ l.configured = false

/-- No resource is held, and nothing is left of a connection. -/
structure Empty (v : View) : Prop where
  linked : v.linked = false
  tls : v.tls = false
  dnsSocket : v.dnsSocket = false
  dnsAnswer : v.dnsAnswer = false
  rpc : v.rpc = Rpc.rpcInit
  remote : v.remote = configInit
  credentials : v.credentials = noCredentials
  rpcQueue : v.rpcQueue = zeros
  rpcQueued : v.rpcQueued = 0
  attemptStarted : v.attemptStarted = false

/-- No attempt is under way. -/
structure Resting (v : View) : Prop where
  empty : Empty v
  state : restingState v.life.state
  ready : v.life.state = .discovery → Ready v.life
  unflagged : Unflagged v.life
  stopping : v.stopping = false

/-- An attempt has begun. -/
structure Probing (v : View) : Prop where
  linked : v.linked = false
  tls : v.tls = false
  rpc : v.rpc = Rpc.rpcInit
  remote : v.remote = configInit
  attemptStarted : v.attemptStarted = true
  state : v.life.state = .discovery
  ready : Ready v.life
  unflagged : Unflagged v.life
  stopping : v.stopping = false

/-- A DNS query is under way. -/
structure Discovering (v : View) : Prop extends Probing v where
  dnsSocket : v.dnsSocket = true

/-- A TLS connection is being set up. -/
structure Connecting (v : View) : Prop where
  linked : v.linked = false
  tls : v.tls = true
  dnsSocket : v.dnsSocket = false
  dnsAnswer : v.dnsAnswer = false
  rpc : v.rpc = Rpc.rpcInit
  remote : v.remote = configInit
  state : v.life.state = .connect ∨ v.life.state = .tls
  ready : Ready v.life
  unflagged : Unflagged v.life
  stopping : v.stopping = false

/-- There is an HTTP/2 connection. -/
structure Linked (v : View) (history : List Note) : Prop where
  linked : v.linked = true
  tls : v.tls = true
  dnsSocket : v.dnsSocket = false
  dnsAnswer : v.dnsAnswer = false
  state : linkedState v.life.state
  ready : Ready v.life
  stopping : v.stopping = true ↔ v.life.state = .stopping
  capability : v.rpc.state ≠ .failed → v.rpc.capability < 2 ^ 32
  http2 : v.life.state = .http2 → v.rpc.state = .idle ∧ Unflagged v.life
  rpcRegistered : v.rpc.state = .registered → Registered history
  registered : v.life.registered = true → Registered history
  configured : v.life.configured = true →
    Configured history (cString v.hostname) v.service ∧ v.remote.valid = true
  remote : v.remote.valid = true → v.remote.hostname = cString v.hostname
  online : v.life.state = .online → v.life.registered = true ∧ v.life.configured = true

/-- One of the four phases. -/
inductive Phase (v : View) (history : List Note) : Prop
  | resting : Resting v → Phase v history
  | discovering : Discovering v → Phase v history
  | connecting : Connecting v → Phase v history
  | linked : Linked v history → Phase v history

/-! ## Lifecycle events of a connection -/

/-- What an event of a connection rests on. -/
def Backed (v : View) (history : List Note) : Event → Prop
  | .http2Ready | .configRejected => True
  | .registered => Registered history
  | .configApplied =>
    Configured history (cString v.hostname) v.service ∧ v.remote.valid = true
  | _ => False

section
variable {v : View} {history : List Note}

theorem negotiating_iff {s : State} : negotiating s = true ↔
    s = .registering ∨ s = .waitConfig ∨ s = .online ∨ s = .configFailed := by
  simp [negotiating]

/-- The notes that a connection makes leave the phase as it is. -/
theorem Linked.note (h : Linked v history) {n : Note} (hn : n.closes = false) :
    Linked v (n :: history) :=
  { h with
    rpcRegistered := fun hr => (h.rpcRegistered hr).cons hn
    registered := fun hr => (h.registered hr).cons hn
    configured := fun hc => ⟨(h.configured hc).1.cons hn, (h.configured hc).2⟩ }

/-- A connection that goes on to another state, with the flags that the state needs. -/
theorem Linked.goto (h : Linked v history) {l : Life} (hactive : v.life.state ≠ .stopping)
    (hstate : negotiating l.state = true) (hready : Ready l)
    (hregistered : l.registered = true → Registered history)
    (hconfigured : l.configured = true →
      Configured history (cString v.hostname) v.service ∧ v.remote.valid = true)
    (honline : l.state = .online → l.registered = true ∧ l.configured = true) :
    Linked { v with life := l } history := by
  have hcases := negotiating_iff.1 hstate
  have hstopping : v.stopping = false := by
    rw [← Bool.not_eq_true, h.stopping]
    exact hactive
  refine { h with
    state := ?_, ready := hready, stopping := ?_, http2 := fun hs => ?_, registered := hregistered
    configured := hconfigured, online := honline }
  · unfold linkedState
    tauto
  · rw [hstopping]
    rcases hcases with hs | hs | hs | hs <;> simp [hs]
  · have hs : l.state = .http2 := hs
    rw [hs] at hcases
    simp at hcases

/-- An event that is backed leads to a phase of a connection again. -/
theorem Linked.advances (h : Linked v history) {e : Event} (hback : Backed v history e) {l : Life}
    (hopen : terminal v.life.state = false) (ha : Advances v.life e l) :
    Linked { v with life := l } history := by
  have hactive : v.life.state ≠ .stopping := by
    rintro hs
    rw [hs] at hopen
    cases hopen
  cases ha with
  | discovered | connected | tlsReady | authRejected => exact hback.elim
  | http2Ready hs =>
    obtain ⟨-, hreg, hconf⟩ := h.http2 hs
    exact h.goto hactive (by rfl) h.ready h.registered h.configured (fun hs => by cases hs)
  | online hs hc => exact h.goto hactive (by rfl) h.ready (fun _ => hback) h.configured fun _ => ⟨rfl, hc⟩
  | waitConfig hs hc =>
    exact h.goto hactive (by rfl) h.ready (fun _ => hback) h.configured (fun hs => by cases hs)
  | configFailed hs hc =>
    refine h.goto hactive (negotiating_iff.2 ?_) h.ready (fun _ => hback) h.configured fun ho => ?_
    · exact Or.inr (Or.inr (Or.inr hs))
    · have ho : v.life.state = .online := ho
      rw [hs] at ho
      cases ho
  | applied hs =>
    refine h.goto hactive ?_ h.ready h.registered (fun _ => hback) fun ho => ?_
    · cases v.life.registered <;> rfl
    · refine ⟨?_, rfl⟩
      by_contra hr
      rw [if_neg hr] at ho
      cases ho
  | rejected hs hc =>
    exact h.goto hactive (by rfl) h.ready h.registered h.configured (fun hs => by cases hs)
  | kept hs hc => exact h

end

/-! ## While a connection is served -/

/-- A connection in an iteration in which network and clock are ready. -/
structure Live (service : Bytes) (c : Ctx) : Prop where
  sound : Sound service c.history
  service : c.t.service = service
  linked : Linked c.t.view c.history
  surveyed : Surveyed c.history

section
variable {service : Bytes}

/-- A change of fields that the phases do not mention. -/
theorem modify_live {f : Tunnel → Tunnel} (hf : ∀ t, (f t).view = t.view) :
    Triple (Live service) (modifyTunnel f) fun _ => Live service := by
  intro c hc
  refine ⟨hc.sound, ?_, ?_, hc.surveyed⟩
  · exact (congrArg View.service (hf c.t)).trans hc.service
  · change Linked (f c.t).view c.history
    rw [hf]
    exact hc.linked

theorem message_live (text : String) : Triple (Live service) (message text) fun _ => Live service :=
  modify_live fun _ => rfl

theorem note_live {n : Note} (hcloses : n.closes = false) (hbegins : n.begins = false)
    (hn : ∀ c, Live service c → n.Sound service c.history) :
    Triple (Live service) (note n) fun _ => Live service :=
  fun c hc => ⟨⟨hn c hc, hc.sound⟩, hc.service, hc.linked.note hcloses, hc.surveyed.cons hbegins⟩

theorem nowMs_live : Triple (Live service) nowMs fun _ => Live service :=
  fun _ hc => ⟨hc.sound, hc.service, hc.linked, hc.surveyed⟩

theorem outcome_live : Triple (Live service) outcome fun _ => Live service :=
  fun _ hc => ⟨hc.sound, hc.service, hc.linked, hc.surveyed⟩

theorem result_live : Triple (Live service) result fun _ => Live service :=
  fun _ hc => ⟨hc.sound, hc.service, hc.linked, hc.surveyed⟩

/-- A lifecycle event of a connection, whose result may be anything. -/
theorem advance_live {site : Site} (hsite : site ≠ .retry ∧ site ≠ .discover ∧ site ≠ .connectTls)
    (e : Event) : Triple (fun c => Live service c ∧ Backed c.t.view c.history e) (advance site e)
      fun _ => Live service := by
  intro c hc
  obtain ⟨hc, hback⟩ := hc
  have hsound : ∀ rc, Note.Sound service c.history (.lifecycle site rc) := by
    intro rc hs
    exact (not_or.2 ⟨hsite.1, not_or.2 hsite.2⟩ hs).elim
  have hlinked : Linked { c.t.view with life := (lifecycleAdvance c.t.life e).1 } c.history := by
    rcases lifecycleAdvance_cases c.t.life e with heq | ⟨hopen, -, -, l', heq, ha⟩
    · rw [heq]
      exact hc.linked
    · rw [heq]
      exact hc.linked.advances hback hopen ha
  exact ⟨⟨hsound _, hc.sound⟩, hc.service, hlinked.note rfl, hc.surveyed.cons rfl⟩

end

/-! ## The registration on a connection -/

section
variable {r r' : Rpc.Client} {e : Rpc.Entry}

theorem acts_capability (h : Rpc.Acts r e r') (hcap : r.state ≠ .failed → r.capability < 2 ^ 32) :
    r'.state ≠ .failed → r'.capability < 2 ^ 32 := by
  intro hr
  cases h with
  | quiet _ => exact hcap hr
  | bootstrap hs | register hs | unregister hs => exact hcap (by simp [hs])
  | fail _ hs _ => exact absurd hs hr
  | exception _ _ hs _ => exact absurd hs hr
  | bootstrapped _ _ hc _ => exact Rpc.capabilityId_lt hc
  | registered hs _ hc _ =>
    rw [hc]
    exact hcap (by simp [hs])
  | closed hs _ hc _ =>
    rw [hc]
    exact hcap (by simp [hs])

/-- Only a begin wakes an idle client. -/
theorem acts_idle (h : Rpc.Acts r e r') (hop : e.op ≠ .begin) (hr : r.state = .idle) :
    r'.state = .idle := by
  cases h with
  | quiet _ => exact hr
  | bootstrap _ => exact absurd rfl hop
  | register hs | unregister hs | bootstrapped hs _ _ _ | registered hs _ _ _ | closed hs _ _ _ =>
    rw [hs] at hr
    cases hr
  | fail hs _ _ => exact absurd (by rw [hr]; rfl) hs
  | exception hs _ _ _ =>
    rw [hr] at hs
    simp [Rpc.State.waits] at hs

/-- A client becomes registered by a success that it receives while it waits for it. -/
theorem acts_registered (h : Rpc.Acts r e r') (hr : r'.state = .registered) :
    r.state = .registered ∨
      (r.state = .registering ∧ e.result = .ok ∧ ∃ frame, e.op = .receive frame) := by
  cases h with
  | quiet _ => exact Or.inl hr
  | bootstrap _ | register _ | unregister _ => cases hr
  | fail _ hs _ | exception _ _ hs _ | bootstrapped _ _ _ hs | closed _ _ _ hs =>
    rw [hs] at hr
    cases hr
  | registered hs _ _ _ => exact Or.inr ⟨hs, rfl, _, rfl⟩

end

section
variable {v : View} {history : List Note}

/-- A connection whose client is another one. -/
theorem Linked.setRpc (h : Linked v history) {r : Rpc.Client}
    (hcap : r.state ≠ .failed → r.capability < 2 ^ 32)
    (hidle : v.life.state = .http2 → r.state = .idle)
    (hregistered : r.state = .registered → Registered history) :
    Linked { v with rpc := r } history :=
  { h with
    capability := hcap
    http2 := fun hs => ⟨hidle hs, (h.http2 hs).2⟩
    rpcRegistered := hregistered }

/-- A call of the client, other than the one that begins, on a connection. -/
theorem Linked.acts (h : Linked v history) {e : Rpc.Entry} {r : Rpc.Client}
    (ha : Rpc.Acts v.rpc e r) (hop : e.op ≠ .begin)
    (hnew : v.rpc.state = .registering ∧ e.result = .ok ∧ (∃ frame, e.op = .receive frame) →
      r.state = .registered → Registered history) : Linked { v with rpc := r } history := by
  refine h.setRpc (acts_capability ha h.capability) (fun hs => acts_idle ha hop (h.http2 hs).1) ?_
  intro hr
  rcases acts_registered ha hr with hold | hold
  · exact h.rpcRegistered hold
  · exact hnew hold hr

end

section
variable {service : Bytes}

/-- A change that the phase of a connection does not mind. -/
theorem modify_linked {f : Tunnel → Tunnel} {P : Ctx → Prop}
    (hservice : ∀ t, (f t).service = t.service)
    (hf : ∀ c, Live service c → P c → Linked (f c.t).view c.history) :
    Triple (fun c => Live service c ∧ P c) (modifyTunnel f) fun _ => Live service :=
  fun c hc => ⟨hc.1.sound, (hservice c.t).trans hc.1.service, hf c hc.1 hc.2, hc.1.surveyed⟩

theorem view_mapLink (t : Tunnel) (f : Link → Link) : (t.mapLink f).view = t.view := by
  simp [Tunnel.view, Tunnel.mapLink]

/-- A change of what `cf_h2` holds. -/
theorem mapLink_live (f : Link → Link) :
    Triple (Live service) (modifyTunnel fun t => t.mapLink f) fun _ => Live service :=
  modify_live fun t => view_mapLink t f

/-- `append_rpc` changes the queue, and may resume the control stream. -/
theorem appendRpc_does (bytes : Bytes) (c : Ctx) :
    (∃ queue queued, (appendRpc bytes c).2.t.view =
      { c.t.view with rpcQueue := queue, rpcQueued := queued }) ∧
      ∃ rc, (appendRpc bytes c).2.history = .append c.t.fault bytes rc :: c.history ∨
        ∃ id, (appendRpc bytes c).2.history = .resume id :: .append c.t.fault bytes rc :: c.history := by
  have hspec : Triple (fun c' => c' = c) (appendRpc bytes) fun _ c' =>
      (∃ queue queued, c'.t.view = { c.t.view with rpcQueue := queue, rpcQueued := queued }) ∧
        ∃ rc, c'.history = .append c.t.fault bytes rc :: c.history ∨
          ∃ id, c'.history = .resume id :: .append c.t.fault bytes rc :: c.history := by
    refine .get_bind fun c' hc => ?_
    obtain rfl := hc
    refine .ite (fun _ => ?_) fun _ => ?_
    · rintro _ ⟨rfl, -⟩
      exact ⟨⟨_, _, rfl⟩, _, Or.inl rfl⟩
    refine .bind (Q := fun _ c'' => (∃ queue queued, c''.t.view =
      { c'.t.view with rpcQueue := queue, rpcQueued := queued }) ∧ c''.history = c'.history) ?_ fun _ => ?_
    · rintro _ ⟨rfl, -⟩
      exact ⟨⟨_, _, rfl⟩, rfl⟩
    refine .bind (Q := fun _ c'' => (∃ queue queued, c''.t.view =
      { c'.t.view with rpcQueue := queue, rpcQueued := queued }) ∧
        c''.history = .append c'.t.fault bytes .ok :: c'.history) ?_ fun _ => ?_
    · exact fun c'' h => ⟨h.1, congrArg _ h.2⟩
    refine .ite (fun _ => ?_) fun _ => .ret fun c'' h => ⟨h.1, _, Or.inl h.2⟩
    rintro c'' ⟨⟨queue, queued, hview⟩, hhistory⟩
    refine ⟨⟨queue, queued, (view_mapLink _ _).trans hview⟩, _, Or.inr ⟨_, congrArg _ hhistory⟩⟩
  exact hspec c rfl

theorem appendRpc_sound {bytes : Bytes} {c : Ctx} (h : Sound service c.history) :
    Sound service (appendRpc bytes c).2.history := by
  obtain ⟨-, rc, heq | ⟨id, heq⟩⟩ := appendRpc_does bytes c
  · rw [heq]
    exact ⟨trivial, h⟩
  · rw [heq]
    exact ⟨trivial, trivial, h⟩

theorem appendRpc_linked {bytes : Bytes} {c : Ctx} (h : Linked c.t.view c.history) :
    Linked (appendRpc bytes c).2.t.view (appendRpc bytes c).2.history := by
  obtain ⟨⟨queue, queued, hview⟩, rc, heq | ⟨id, heq⟩⟩ := appendRpc_does bytes c
  all_goals
    have hnew : Linked { c.t.view with rpcQueue := queue, rpcQueued := queued } c.history := { h with }
    rw [hview, heq]
  · exact hnew.note rfl
  · exact (hnew.note rfl).note rfl

theorem appendRpc_live (bytes : Bytes) {r : Rpc.Client} :
    Triple (fun c => Live service c ∧ c.t.rpc = r) (appendRpc bytes)
      fun _ c => Live service c ∧ c.t.rpc = r := by
  intro c hc
  obtain ⟨⟨queue, queued, hview⟩, rc, hhistory⟩ := appendRpc_does bytes c
  refine ⟨⟨appendRpc_sound hc.1.sound, ?_, appendRpc_linked hc.1.linked, ?_⟩, ?_⟩
  · exact (congrArg View.service hview).trans hc.1.service
  · rcases hhistory with heq | ⟨id, heq⟩ <;> rw [heq]
    · exact hc.1.surveyed.cons rfl
    · exact (hc.1.surveyed.cons rfl).cons rfl
  · exact (congrArg View.rpc hview).trans hc.2

/-- A message that the client takes. -/
theorem rpcReceive_live {c : Ctx} (hc : Live service c) (frame : Bytes) {o : Rpc.Outcome}
    (ho : o = Rpc.rpcReceive c.t.rpc frame zeros Rpc.txMax) :
    Live service { c with
      t := { c.t with rpc := o.rpc }, history := .rpcReceive c.t.rpc o.rpc o.result :: c.history } := by
  have ha := Rpc.rpcReceive_acts (r := c.t.rpc) zeros le_rfl hc.linked.capability frame
  rw [← ho] at ha
  refine ⟨⟨trivial, hc.sound⟩, hc.service, ?_, hc.surveyed.cons rfl⟩
  refine (hc.linked.note rfl).acts ha (fun h => by cases h) fun hold hr => ?_
  obtain ⟨hold, hok, -⟩ := hold
  have hok : o.result = .ok := hok
  refine ⟨c.t.rpc, o.rpc, ?_, hold, hr⟩
  rw [sinceClose_cons rfl, hok]
  exact List.mem_cons_self

theorem fault_live : Triple (Live service) (modifyTunnel fun t => { t with fault := true })
    fun _ => Live service :=
  modify_live fun _ => rfl

theorem registerNow_live : Triple (Live service) registerNow fun _ => Live service := by
  refine .get_bind fun c hc => .bind (Q := fun _ => Live service) ?_ fun _ => ?_
  · rintro c' ⟨rfl, -⟩
    have ha := Rpc.rpcRegister_acts (r := c'.t.rpc) zeros le_rfl hc.linked.capability
      c'.t.credentials (registerOptions c'.t)
    have hnew := hc.linked.acts ha (fun h => by cases h) fun hold _ => ?_
    · exact ⟨hc.sound, hc.service, { hnew with }, hc.surveyed⟩
    · obtain ⟨-, -, frame, hop⟩ := hold
      cases hop
  refine .ite (fun _ => .bind fault_live fun _ => .ret fun _ h => h) fun _ => ?_
  refine .bind (Q := fun _ => Live service) ?_ fun rc => ?_
  · exact fun c hc => (appendRpc_live _ c ⟨hc, rfl⟩).1
  exact .ite (fun _ => .bind fault_live fun _ => .ret fun _ h => h) fun _ => .ret fun _ h => h

theorem registeredNow_live : Triple (fun c => Live service c ∧ c.t.rpc.state = .registered)
    registeredNow fun _ => Live service := by
  refine .bind (Q := fun _ => Live service) ?_ fun _ => ?_
  · exact (advance_live (by simp) .registered).pre
      fun c hc => ⟨hc.1, hc.1.linked.rpcRegistered hc.2⟩
  refine .get_bind fun c _ => .bind (Q := fun _ => Live service) ?_ fun _ => ?_
  · exact (message_live _).pre fun _ h => h.2
  exact .bind nowMs_live fun now => modify_live fun _ => rfl

theorem rpcMessage_live (frame : Bytes) :
    Triple (Live service) (rpcMessage frame) fun _ => Live service := by
  refine .get_bind fun c hc => ?_
  obtain ⟨o, ho⟩ : ∃ o, o = Rpc.rpcReceive c.t.rpc frame zeros Rpc.txMax := ⟨_, rfl⟩
  dsimp only
  rw [← ho]
  refine .bind (Q := fun _ c' => c' = { c with t := { c.t with rpc := o.rpc } }) ?_ fun _ => ?_
  · rintro _ ⟨rfl, -⟩
    rfl
  refine .bind (Q := fun _ c' => Live service c' ∧ c'.t.rpc = o.rpc) ?_ fun _ => ?_
  · rintro _ rfl
    exact ⟨rpcReceive_live hc frame ho, rfl⟩
  refine .bind (appendRpc_live _) fun rc => .ite (fun _ => ?_) fun _ => ?_
  · refine Triple.pre ?_ fun _ h => h.1
    exact .bind (message_live _) fun _ => .bind fault_live fun _ => .ret fun _ h => h
  refine .ite (fun _ => registerNow_live.pre fun _ h => h.1)
    fun _ => .ite (fun hs => ?_) fun _ => .ite (fun _ => ?_) fun _ => .ret fun _ h => h.1
  · refine .bind (registeredNow_live.pre fun c h => ⟨h.1, ?_⟩) fun _ => .ret fun _ h => h
    rw [h.2]
    exact hs
  · refine Triple.pre ?_ fun _ h => h.1
    exact .bind (message_live _) fun _ => .bind fault_live fun _ => .ret fun _ h => h

/-! ## The callbacks of a connection -/

/-- The event that ends the HTTP/2 state is taken. -/
theorem http2Ready_live {site : Site}
    (hsite : site ≠ .retry ∧ site ≠ .discover ∧ site ≠ .connectTls) :
    Triple (fun c => Live service c ∧ c.t.life.state = .http2) (advance site .http2Ready)
      fun _ c => Live service c ∧ c.t.life.state ≠ .http2 := by
  intro c hc
  refine ⟨advance_live hsite .http2Ready c ⟨hc.1, trivial⟩, ?_⟩
  change (lifecycleAdvance c.t.life .http2Ready).1.state ≠ .http2
  rw [lifecycleAdvance_of_ready (l := c.t.life) (by rw [hc.2]; rfl) hc.1.linked.ready.1 hc.1.linked.ready.2
    (.http2Ready hc.2)]
  exact fun h => by cases h

theorem controlRequest_live (r : H2.Request) :
    Triple (Live service) (controlRequest r) fun _ => Live service := by
  refine .get_bind fun c hc => .ite (fun _ => .ret fun _ h => h.2) fun _ => ?_
  refine .bind (Q := fun _ c' => Live service c' ∧ c'.t.life = c.t.life) ?_ fun _ => ?_
  · rintro c' ⟨rfl, -⟩
    exact ⟨⟨hc.sound, hc.service, hc.linked, hc.surveyed⟩, rfl⟩
  refine .when (A := fun c' => Live service c' ∧ c'.t.life.state ≠ .http2)
    (fun hs => (http2Ready_live (by simp)).pre fun c' h => ⟨h.1, by rw [h.2, hs]⟩)
    (fun hs c' h => ⟨h.1, by rw [h.2]; exact hs⟩) ?_
  refine .bind (Q := fun _ => Live service) ?_ fun _ => ?_
  · refine modify_linked (fun _ => rfl) fun c' hc hs => ?_
    have ha := Rpc.rpcBegin_acts (r := Rpc.rpcInit) zeros (le_refl Rpc.txMax)
    have hnew := hc.linked.setRpc (acts_capability ha fun _ => by decide)
      (fun h => absurd h hs) fun hr => ?_
    · exact { hnew with }
    · rcases acts_registered ha hr with h | h
      · cases h
      · cases h.1
  refine .ite (fun _ => .ret fun _ h => h) fun _ => ?_
  refine .bind (Q := fun _ => Live service) ?_ fun rc => ?_
  · exact fun c hc => (appendRpc_live _ c ⟨hc, rfl⟩).1
  refine .ite (fun _ => .ret fun _ h => h) fun _ => .bind nowMs_live fun now => ?_
  refine .bind (Q := fun _ => Live service) (modify_live fun _ => rfl) fun _ => ?_
  refine .bind result_live fun rc => .when (A := Live service) (fun _ => mapLink_live _) (fun _ _ h => h) ?_
  exact .ret fun _ h => h

theorem configRequest_live (r : H2.Request) :
    Triple (Live service) (configRequest r) fun _ => Live service := by
  refine .get_bind fun c hc => .ite (fun _ => .ret fun _ h => h.2) fun _ => ?_
  refine .bind (Triple.pre ?_ fun _ h => h.2) fun _ => .ret fun _ h => h
  exact modify_live fun _ => rfl

/-- The application is asked about permitted requests only. -/
theorem Live.permitted {c : Ctx} (hc : Live service c) {r : H2.Request}
    (hstate : c.t.life.state = .online)
    (hauthority : H2.header r.headers (text ":authority") = c.t.remote.hostname) :
    Permitted service c.t r c.history := by
  obtain ⟨hregistered, hconfigured⟩ := hc.linked.online hstate
  obtain ⟨happlied, hvalid⟩ := hc.linked.configured hconfigured
  refine ⟨hstate, ?_, hc.linked.registered hregistered, ?_, hc.surveyed, ?_⟩
  · rw [← Bool.not_eq_true]
    intro hstopping
    have hs : c.t.life.state = .stopping := hc.linked.stopping.1 hstopping
    rw [hstate] at hs
    cases hs
  · rw [← hc.service]
    exact happlied
  · rw [hauthority]
    exact hc.linked.remote hvalid

theorem httpRequest_live (r : H2.Request) :
    Triple (Live service) (httpRequest r) fun _ => Live service := by
  refine .get_bind fun c hc => .ite (fun _ => .ret fun _ h => h.2) fun hno => ?_
  obtain ⟨hstate, hauthority⟩ := not_or.1 hno
  refine .bind (Q := fun _ => Live service) ?_ fun _ => result_live
  rintro c' ⟨rfl, -⟩
  have hpermitted := hc.permitted (not_not.1 hstate) (not_not.1 hauthority)
  exact ⟨⟨hpermitted, hc.sound⟩, hc.service, hc.linked.note rfl, hc.surveyed.cons rfl⟩

theorem h2Request_live (r : H2.Request) :
    Triple (Live service) (h2Request r) fun _ => Live service := by
  refine .get_bind fun c hc => .ite (fun _ => .ret fun _ h => h.2) fun _ => ?_
  refine Triple.pre ?_ fun _ h => h.2
  cases r.kind with
  | control => exact controlRequest_live r
  | config => exact configRequest_live r
  | http => exact httpRequest_live r

theorem feedControl_live (data : Bytes) :
    Triple (Live service) (feedControl data) fun _ => Live service := by
  intro c hc
  have hframe : ∀ s frame, Live service s → Live service (onFrame s frame).1 :=
    fun s frame hs => rpcMessage_live frame s hs
  have hfed := Framing.capnpFeed_state hframe c.t.framer hc data
  exact ⟨hfed.sound, hfed.service, hfed.linked, hfed.surveyed⟩

theorem h2Data_live (id : Int) (data : Bytes) (endStream : Bool) :
    Triple (Live service) (h2Data id data endStream) fun _ => Live service := by
  refine .get_bind fun c hc => Triple.pre ?_ fun _ h => h.2
  refine .ite (fun _ => .ite (fun _ => ?_) fun _ => ?_) fun _ => .ite (fun _ => ?_) fun _ => result_live
  · exact .bind fault_live fun _ => .bind (message_live _) fun _ => .ret fun _ h => h
  · exact .ite (fun _ => .ret fun _ h => h) fun _ => feedControl_live data
  · refine .get_bind fun c hc => .ite (fun _ => .ret fun _ h => h.2) fun _ => ?_
    refine .bind (Triple.pre ?_ fun _ h => h.2) fun _ => .ret fun _ h => h
    exact modify_live fun _ => rfl

theorem h2Read_live (id : Int) (capacity : Nat) :
    Triple (Live service) (h2Read id capacity) fun _ => Live service := by
  refine .get_bind fun c hc => Triple.pre ?_ fun _ h => h.2
  refine .ite (fun _ => ?_) fun _ => .ite (fun _ => ?_) fun _ => .bind result_live fun _ => .ret fun _ h => h
  · refine .get_bind fun c hc => .bind (Q := fun _ => Live service) ?_ fun _ => ?_
    · exact fun c' hc => ⟨hc.2.sound, hc.2.service, { hc.2.linked with }, hc.2.surveyed⟩
    · exact .bind (note_live rfl rfl fun _ _ => trivial) fun _ => .ret fun _ h => h
  · refine .get_bind fun c hc => .ite (fun _ => .ret fun _ h => h.2) fun _ => ?_
    refine .bind (Triple.pre ?_ fun _ h => h.2) fun _ => .ret fun _ h => h
    exact modify_live fun _ => rfl

theorem h2Closed_live (id : Int) : Triple (Live service) (h2Closed id) fun _ => Live service := by
  refine .get_bind fun c hc => Triple.pre ?_ fun _ h => h.2
  refine .ite (fun _ => .ite (fun _ => ?_) fun _ => modify_live fun _ => rfl)
    fun _ => .ite (fun _ => modify_live fun _ => rfl) fun _ => .ret fun _ h => h
  exact .bind fault_live fun _ => .bind (message_live _) fun _ => modify_live fun _ => rfl

theorem h2Reset_live (id : Int) : Triple (Live service) (h2Reset id) fun _ => Live service := by
  refine .bind outcome_live fun submitted => .ite (fun _ => modify_live fun t => ?_) fun _ => .ret fun _ h => h
  split
  · exact view_mapLink t _
  · rfl

theorem readResponse_live (id : Int) (capacity : Nat) :
    Triple (Live service) (readResponse id capacity) fun _ => Live service := by
  refine .get_bind fun c hc => Triple.pre ?_ fun _ h => h.2
  refine .ite (fun _ => .ite (fun _ => ?_) fun _ => .ret fun _ h => h) fun _ => ?_
  · exact .bind (h2Read_live id capacity) fun reply => mapLink_live _
  · exact .bind (h2Read_live id capacity) fun _ => .ret fun _ h => h

theorem closedStream_live (id : Int) : Triple (Live service) (closedStream id) fun _ => Live service := by
  refine .get_bind fun c hc => Triple.pre ?_ fun _ h => h.2
  refine .bind (h2Closed_live id) fun _ => ?_
  exact .ite (fun _ => mapLink_live _) fun _ => .ret fun _ h => h

theorem handle_live (call : Callback) : Triple (Live service) call.handle fun _ => Live service := by
  have hreset : ∀ (rc : Result) id, Triple (Live service) (if rc ≠ .ok then h2Reset id else pure ())
      fun _ => Live service := fun rc id => .ite (fun _ => h2Reset_live id) fun _ => .ret fun _ h => h
  cases call with
  | request r => exact .bind (h2Request_live r) fun rc => hreset rc _
  | data id bytes endStream => exact .bind (h2Data_live id bytes endStream) fun rc => hreset rc _
  | read id capacity => exact readResponse_live id capacity
  | closed id error => exact closedStream_live id
  | reset id => exact h2Reset_live id

theorem runCallbacks_live (calls : List Callback) :
    Triple (Live service) (runCallbacks calls) fun _ => Live service := by
  induction calls with
  | nil => exact .ret fun _ h => h
  | cons call rest ih =>
    refine .bind (Q := fun _ => Live service) ?_ fun _ => ih
    refine .bind (note_live rfl rfl fun _ _ => trivial) fun _ => .bind (handle_live call) fun _ => ?_
    refine .get_bind fun c hc => Triple.pre ?_ fun _ h => h.2
    exact note_live rfl rfl fun _ _ => trivial

/-! ## `communicate` -/

/-- The configuration after an update: it is valid for the hostname, and an accepted update makes it
valid. -/
theorem configApply_remote {parse : Parser} {remote : Remote} {update hostname service : Bytes}
    {applied : Applied} (h : Applies parse remote update hostname service applied) :
    (applied.config.valid = true → remote.valid = true ∨ applied.config.hostname = hostname) ∧
      (remote.valid = true → applied.config.valid = true) ∧
      (applied.config.hostname = remote.hostname ∨ applied.config.hostname = hostname) ∧
      (applied.result = .ok → applied.config.valid = true) := by
  cases h with
  | rejected hrc => exact ⟨Or.inl, id, Or.inl rfl, fun h => absurd h hrc⟩
  | accepted _ _ =>
    dsimp only [publish]
    split
    · exact ⟨fun _ => Or.inr rfl, fun _ => rfl, Or.inr rfl, fun _ => rfl⟩
    · next hold =>
      have hvalid : remote.valid = true := by
        by_contra hv
        exact hold (Or.inl (by simpa using hv))
      exact ⟨fun _ => Or.inl hvalid, id, Or.inl rfl, fun _ => hvalid⟩

/-- A connection whose configuration is what an update leaves. -/
theorem Linked.setRemote {v : View} {history : List Note} (h : Linked v history) {parse : Parser}
    {update : Bytes} {applied : Applied}
    (ha : Applies parse v.remote update (cString v.hostname) v.service applied) :
    Linked { v with remote := applied.config } history := by
  obtain ⟨hvalid, hkeep, hname, -⟩ := configApply_remote ha
  refine { h with
    configured := fun hc => ⟨(h.configured hc).1, hkeep (h.configured hc).2⟩
    remote := fun hv => ?_ }
  rcases hvalid hv with hold | hnew
  · rcases hname with hname | hname
    · exact hname.trans (h.remote hold)
    · exact hname
  · exact hnew

theorem applyUpdate_live : Triple (Live service) applyUpdate fun _ => Live service := by
  refine .get_bind fun c hc => ?_
  obtain ⟨applied, happlied⟩ : ∃ applied, applied = configApply c.oracle.parse c.t.remote
    (c.t.configBytes.read 0 c.t.configUsed) (cString c.t.hostname) c.t.service := ⟨_, rfl⟩
  have happlies := configApply_applies c.oracle.parse c.t.remote
    (c.t.configBytes.read 0 c.t.configUsed) (cString c.t.hostname) c.t.service
  dsimp only
  rw [← happlied] at happlies ⊢
  -- Once an update is accepted, the event that reports it is backed.
  let Q : Ctx → Prop := fun c' => Live service c' ∧ (applied.result = .ok →
    Backed c'.t.view c'.history .configApplied)
  refine .bind (Q := fun _ c' => c' = { c with
    history := .configApply (cString c.t.hostname) c.t.service applied.result :: c.history }) ?_
    fun _ => ?_
  · rintro c' ⟨rfl, -⟩
    rfl
  refine .bind (Q := fun _ => Q) ?_ fun _ => ?_
  · rintro c' rfl
    have hnew := (hc.linked.note (n := .configApply (cString c.t.hostname) c.t.service
      applied.result) rfl).setRemote happlies
    refine ⟨⟨⟨trivial, hc.sound⟩, hc.service, { hnew with }, hc.surveyed.cons rfl⟩, fun hok => ?_⟩
    refine ⟨?_, (configApply_remote happlies).2.2.2 hok⟩
    change _ ∈ sinceClose (_ :: c.history)
    rw [sinceClose_cons rfl, hok]
    exact List.mem_cons_self
  refine .bind (Q := fun _ => Q) (fun c' hc => ⟨result_live c' hc.1, hc.2⟩) fun rc => ?_
  refine .when (A := Q) (fun _ c' hc => ⟨fault_live c' hc.1, hc.2⟩) (fun _ _ h => h) ?_
  refine .bind (Q := fun _ => Live service) ?_ fun _ => ?_
  · refine (advance_live (by simp) _).pre fun c' hc => ⟨hc.1, ?_⟩
    split
    · next hok => exact hc.2 hok
    · trivial
  · refine .get_bind fun c hc => Triple.pre ?_ fun _ h => h.2
    exact .bind (note_live rfl rfl fun _ _ => trivial) fun _ => message_live _

theorem applyConfig_live : Triple (Live service) applyConfig fun _ => Live service := by
  refine .get_bind fun c hc => Triple.pre ?_ fun _ h => h.2
  refine .ite (fun _ => .bind outcome_live fun locked => ?_) fun _ => .ret fun _ h => h
  exact .ite (fun _ => applyUpdate_live) fun _ => .ret fun _ h => h

theorem readLoop_live (rounds : Nat) : Triple (Live service) (readLoop rounds) fun _ => Live service := by
  induction rounds with
  | zero => exact .ret fun _ h => h
  | succ rounds ih =>
    refine .get_bind fun c hc => .ite (fun _ => .ret fun _ h => h.2) fun _ => ?_
    refine Triple.pre ?_ fun _ h => h.2
    refine .bind (note_live rfl rfl fun _ _ => trivial) fun _ => ?_
    refine .bind (Q := fun _ => Live service) ?_ fun read => ?_
    · exact fun _ hc => ⟨hc.sound, hc.service, hc.linked, hc.surveyed⟩
    cases read with
    | wantRead | wantWrite => exact .ret fun _ h => h
    | ended n => exact .bind (message_live _) fun _ => .ret fun _ h => h
    | bytes callbacks ok =>
      refine .bind (runCallbacks_live callbacks) fun _ => .ite (fun _ => ?_) fun _ => ih
      exact .bind (message_live _) fun _ => .ret fun _ h => h

theorem h2Output_live : Triple (Live service) h2Output fun _ => Live service := by
  refine .bind outcome_live fun ok => .ite (fun _ => .ret fun _ h => h) fun _ => ?_
  refine .get_bind fun c hc => Triple.pre ?_ fun _ h => h.2
  refine .ite (fun _ => .ret fun _ h => h) fun _ => ?_
  refine .bind (note_live rfl rfl fun _ _ => trivial) fun _ => ?_
  refine .bind (Q := fun _ => Live service) ?_ fun out => ?_
  · exact fun _ hc => ⟨hc.sound, hc.service, hc.linked, hc.surveyed⟩
  refine .bind (runCallbacks_live out.1) fun _ => ?_
  refine .bind outcome_live fun ok => .ite (fun _ => .ret fun _ h => h) fun _ => ?_
  refine .bind (note_live rfl rfl fun _ _ => trivial) fun _ => ?_
  exact .bind (mapLink_live _) fun _ => .ret fun _ h => h

theorem waited_live : Triple (Live service) waited fun _ => Live service := by
  refine .bind nowMs_live fun now => .get_bind fun c hc => Triple.pre ?_ fun _ h => h.2
  exact .ite (fun _ => .bind (message_live _) fun _ => .ret fun _ h => h) fun _ => .ret fun _ h => h

theorem stall_live : Triple (Live service) stall fun _ => Live service := by
  refine .get_bind fun c hc => Triple.pre ?_ fun _ h => h.2
  refine .ite (fun _ => .bind nowMs_live fun now => ?_) fun _ => waited_live
  refine .bind (Q := fun _ => Live service) (modify_live fun _ => rfl) fun _ => ?_
  exact .bind (note_live rfl rfl fun _ _ => trivial) fun _ => waited_live

theorem writeChunk_live (out : Bytes) : Triple (Live service) (writeChunk out) fun _ => Live service := by
  refine .get_bind fun c hc => Triple.pre ?_ fun _ h => h.2
  refine .bind (Q := fun _ => Live service) ?_ fun written => ?_
  · exact fun _ hc => ⟨hc.sound, hc.service, hc.linked, hc.surveyed⟩
  refine .bind (note_live rfl rfl fun _ _ => trivial) fun _ => ?_
  cases written with
  | wantRead | wantWrite => exact .bind stall_live fun _ => .ret fun _ h => h
  | failed n => exact .bind (message_live _) fun _ => .ret fun _ h => h
  | wrote n =>
    refine .ite (fun _ => .bind (message_live _) fun _ => .ret fun _ h => h) fun _ => ?_
    refine .bind (Q := fun _ => Live service) (modify_live fun t => ?_) fun _ => .ret fun _ h => h
    simp [Tunnel.view]

theorem writeLoop_live (rounds : Nat) :
    Triple (Live service) (writeLoop rounds) fun _ => Live service := by
  induction rounds with
  | zero => exact .ret fun _ h => h
  | succ rounds ih =>
    refine .bind h2Output_live fun out => ?_
    cases out with
    | none => exact .bind (message_live _) fun _ => .ret fun _ h => h
    | some out =>
      refine .ite (fun _ => .ret fun _ h => h) fun _ => .bind (writeChunk_live out) fun ended => ?_
      cases ended with
      | none => exact ih
      | some ok => exact .ret fun _ h => h

theorem checkDeadlines_live : Triple (Live service) checkDeadlines fun _ => Live service := by
  refine .get_bind fun c hc => Triple.pre ?_ fun _ h => h.2
  refine .ite (fun _ => .bind nowMs_live fun now => .get_bind fun c hc => Triple.pre ?_ fun _ h => h.2)
    fun _ => ?_
  · refine .ite (fun _ => .bind (message_live _) fun _ => .ret fun _ h => h) fun _ => ?_
    refine .get_bind fun c hc => Triple.pre ?_ fun _ h => h.2
    refine .ite (fun _ => .bind nowMs_live fun now => .get_bind fun c hc => Triple.pre ?_ fun _ h => h.2)
      fun _ => .ret fun _ h => h
    exact .ite (fun _ => .bind (message_live _) fun _ => .ret fun _ h => h) fun _ => .ret fun _ h => h
  · refine .get_bind fun c hc => Triple.pre ?_ fun _ h => h.2
    refine .ite (fun _ => .bind nowMs_live fun now => .get_bind fun c hc => Triple.pre ?_ fun _ h => h.2)
      fun _ => .ret fun _ h => h
    exact .ite (fun _ => .bind (message_live _) fun _ => .ret fun _ h => h) fun _ => .ret fun _ h => h

theorem shutdownWhenClosed_live : Triple (Live service) shutdownWhenClosed fun _ => Live service := by
  refine .get_bind fun c hc => Triple.pre ?_ fun _ h => h.2
  exact .ite (fun _ => modify_live fun _ => rfl) fun _ => .ret fun _ h => h

theorem communicate_live : Triple (Live service) communicate fun _ => Live service := by
  have hfail : ∀ text : String, Triple (Live service) (do message text; return false)
      fun _ => Live service := fun text => .bind (message_live text) fun _ => .ret fun _ h => h
  refine .bind (readLoop_live 8) fun ok => .ite (fun _ => .ret fun _ h => h) fun _ => ?_
  refine .get_bind fun c hc => ?_
  refine .when (A := Live service) (fun hs => ?_) (fun _ _ h => h.2) ?_
  · exact (advance_live (by simp) .http2Ready).pre fun _ h => ⟨h.2, trivial⟩
  refine .bind (note_live rfl rfl fun _ _ => trivial) fun _ => ?_
  refine .ite (fun _ => hfail _) fun _ => .ite (fun _ => .ret fun _ h => h) fun _ => ?_
  refine .bind applyConfig_live fun _ => .bind shutdownWhenClosed_live fun _ => ?_
  refine .bind (writeLoop_live 8) fun ok => .ite (fun _ => .ret fun _ h => h) fun _ => ?_
  refine .bind checkDeadlines_live fun ok => .ite (fun _ => .ret fun _ h => h) fun _ => ?_
  refine .bind outcome_live fun ok => .ite (fun _ => ?_) fun _ => .ret fun _ h => h
  exact .bind h2Output_live fun _ => .ret fun _ h => h

end

end EspCfTunnel.Task
