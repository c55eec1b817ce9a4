import EspCfTunnel.Task.Phases

/-!
# Runs of the task

Every iteration of the loop of `run` leads from a phase to a phase, unless it ends the task: a
failed attempt or connection is closed and then rests, and a connection is served only in an
iteration that has found network and clock ready.
-/

namespace EspCfTunnel.Task

open EspCfTunnel StateLogic Lifecycle Config

/-- What holds while an iteration runs, whatever becomes of the connection. -/
structure Steady (service : Bytes) (c : Ctx) : Prop where
  sound : Sound service c.history
  service : c.t.service = service

/-- An attempt or a connection that may be given up. -/
structure Retryable (v : View) : Prop where
  state : terminal v.life.state = false ∧ v.life.state ≠ .backoff ∧ v.life.state ≠ .waitNetwork ∧
    v.life.state ≠ .waitTime
  ready : Ready v.life
  stopping : v.stopping = false
  rejected : v.rpc.state = .rejected → negotiating v.life.state = true

section
variable {service : Bytes}

/-! ## Closing -/

/-- While `close_connection` runs: what it does not touch. -/
structure Ending (start : Ctx) (c : Ctx) : Prop where
  history : c.history = .closeConnection :: start.history
  service : c.t.service = start.t.service
  life : c.t.life = start.t.life
  stopping : c.t.stopping = start.t.stopping
  dnsSocket : c.t.dnsSocket = false
  dnsAnswer : c.t.dnsAnswer = none

theorem h2Closed_ending (id : Int) {start : Ctx} :
    Triple (Ending start) (h2Closed id) fun _ => Ending start := by
  have hmodify : ∀ f : Tunnel → Tunnel, (∀ t, (f t).service = t.service ∧ (f t).life = t.life ∧
      (f t).stopping = t.stopping ∧ (f t).dnsSocket = t.dnsSocket ∧ (f t).dnsAnswer = t.dnsAnswer) →
      Triple (Ending start) (modifyTunnel f) fun _ => Ending start := by
    intro f hf c hc
    obtain ⟨h₁, h₂, h₃, h₄, h₅⟩ := hf c.t
    exact ⟨hc.history, h₁.trans hc.service, h₂.trans hc.life, h₃.trans hc.stopping,
      h₄.trans hc.dnsSocket, h₅.trans hc.dnsAnswer⟩
  refine .get_bind fun c hc => Triple.pre ?_ fun _ h => h.2
  refine .ite (fun _ => .ite (fun _ => ?_) fun _ => ?_)
    fun _ => .ite (fun _ => ?_) fun _ => .ret fun _ h => h
  · refine .bind (hmodify _ fun _ => ⟨rfl, rfl, rfl, rfl, rfl⟩) fun _ => ?_
    refine .bind (hmodify _ fun _ => ⟨rfl, rfl, rfl, rfl, rfl⟩) fun _ => ?_
    exact hmodify _ fun _ => ⟨rfl, rfl, rfl, rfl, rfl⟩
  · exact hmodify _ fun _ => ⟨rfl, rfl, rfl, rfl, rfl⟩
  · exact hmodify _ fun _ => ⟨rfl, rfl, rfl, rfl, rfl⟩

theorem h2Destroy_ending (orphans : List (Int × Nat)) {start : Ctx} :
    Triple (Ending start) (h2Destroy orphans) fun _ => Ending start := by
  induction orphans with
  | nil => exact .ret fun _ h => h
  | cons orphan rest ih => exact .bind (h2Closed_ending orphan.1) fun _ => ih

/-- `close_connection` leaves nothing of the connection. -/
theorem closeConnection_ending (c : Ctx) :
    Ending c (closeConnection c).2 ∧ Empty (closeConnection c).2.t.view := by
  have hspec : Triple (fun c' => c' = c) closeConnection fun _ c' =>
      Ending c c' ∧ Empty c'.t.view := by
    refine .bind (Q := fun _ c' => c' = { c with history := .closeConnection :: c.history }) ?_
      fun _ => ?_
    · rintro c' rfl
      rfl
    refine .bind (Q := fun _ => Ending c) ?_ fun _ => ?_
    · rintro c' rfl
      exact ⟨rfl, rfl, rfl, rfl, rfl, rfl⟩
    refine .get_bind fun c' _ => Triple.pre ?_ fun _ h => h.2
    refine .when (fun _ => h2Destroy_ending c'.oracle.orphans) (fun _ _ h => h) ?_
    intro c'' h
    refine ⟨⟨h.history, h.service, h.life, h.stopping, h.dnsSocket, h.dnsAnswer⟩,
      ⟨rfl, rfl, h.dnsSocket, ?_, rfl, rfl, rfl, rfl, rfl, rfl⟩⟩
    exact congrArg Option.isSome h.dnsAnswer
  exact hspec c rfl

theorem closeConnection_spec {c : Ctx} (hc : Steady service c) :
    Steady service (closeConnection c).2 ∧ Empty (closeConnection c).2.t.view ∧
      (closeConnection c).2.t.life = c.t.life ∧ (closeConnection c).2.t.stopping = c.t.stopping := by
  obtain ⟨hend, hempty⟩ := closeConnection_ending c
  refine ⟨⟨?_, hend.service.trans hc.service⟩, hempty, hend.life, hend.stopping⟩
  rw [hend.history]
  exact ⟨trivial, hc.sound⟩

/-- What `retry` does to the lifecycle before it closes the connection. -/
structure Abandoned (service : Bytes) (c : Ctx) : Prop extends Steady service c where
  state : c.t.life.state = .backoff ∨ c.t.life.state = .authFailed
  unflagged : Unflagged c.t.life
  stopping : c.t.stopping = false

theorem authRejected_abandoned {c : Ctx} (hc : Steady service c) (hr : Retryable c.t.view)
    (hrejected : c.t.rpc.state = .rejected) :
    Abandoned service (advance .retry .authRejected c).2 := by
  have htaken := lifecycleAdvance_of_ready (l := c.t.life) hr.state.1 hr.ready.1 hr.ready.2
    (.authRejected (hr.rejected hrejected))
  have heq : advance .retry .authRejected c = ((), { c with
      t := { c.t with life :=
        { c.t.life with registered := false, configured := false, state := .authFailed } }
      history := .lifecycle .retry .ok :: c.history }) := by
    change ((), _) = _
    rw [htaken]
  rw [heq]
  exact ⟨⟨⟨fun _ => rfl, hc.sound⟩, hc.service⟩, Or.inr rfl, ⟨rfl, rfl⟩, hr.stopping⟩

/-- `cf_lifecycle_retry` succeeds on what may be given up. -/
theorem lifecycleRetry_of_retryable {v : View} (h : Retryable v) (now hint random : Nat) :
    ∃ l, lifecycleRetry v.life now hint random = (l, .ok) ∧ l.state = .backoff ∧ Unflagged l := by
  refine ⟨_, if_neg ?_, rfl, rfl, rfl⟩
  rw [h.state.1]
  simp [h.state.2]

/-- `retryLater` computed. -/
theorem retryLater_run {c : Ctx} {l : Life}
    (hl : lifecycleRetry c.t.life (c.oracle.clock.headD 0) (retryHint c.t.rpc)
      (c.oracle.random.headD 0) = (l, .ok)) :
    (retryLater c).2.t = { c.t with life := l } ∧ (retryLater c).2.history =
      .retried c.t (c.oracle.clock.headD 0) (c.oracle.random.headD 0) l :: .lifecycle .retry .ok ::
        c.history := by
  have hspec : Triple (fun c' => c' = c) retryLater fun _ c' => c'.t = { c.t with life := l } ∧
      c'.history = .retried c.t (c.oracle.clock.headD 0) (c.oracle.random.headD 0) l ::
        .lifecycle .retry .ok :: c.history := by
    refine .bind (Q := fun now c' => now = c.oracle.clock.headD 0 ∧ c'.oracle.random = c.oracle.random ∧
      c'.t = c.t ∧ c'.history = c.history) ?_ fun now => ?_
    · rintro c' rfl
      exact ⟨rfl, rfl, rfl, rfl⟩
    refine .bind (Q := fun random c' => now = c.oracle.clock.headD 0 ∧
      random = c.oracle.random.headD 0 ∧ c'.t = c.t ∧ c'.history = c.history) ?_ fun random => ?_
    · rintro c' ⟨hnow, hrandom, ht, hhistory⟩
      exact ⟨hnow, congrArg (List.headD · 0) hrandom, ht, hhistory⟩
    rintro c' ⟨rfl, rfl, ht, hhistory⟩
    rw [← ht] at hl ⊢
    rw [← hhistory, run_bind, run_get]
    dsimp only
    rw [hl]
    exact ⟨rfl, rfl⟩
  exact hspec c rfl

theorem retryLater_abandoned {c : Ctx} (hc : Steady service c) (hr : Retryable c.t.view) :
    Abandoned service (retryLater c).2 := by
  obtain ⟨l, hl, hstate, hflags⟩ := lifecycleRetry_of_retryable hr (c.oracle.clock.headD 0)
    (retryHint c.t.rpc) (c.oracle.random.headD 0)
  obtain ⟨ht, hhistory⟩ := retryLater_run hl
  refine ⟨⟨?_, ?_⟩, ?_, ?_, ?_⟩
  · rw [hhistory]
    exact ⟨hl, fun _ => rfl, hc.sound⟩
  · rw [ht]
    exact hc.service
  · rw [ht]
    exact Or.inl hstate
  · rw [ht]
    exact hflags
  · rw [ht]
    exact hr.stopping

theorem closeConnection_abandoned : Triple (Abandoned service) closeConnection
    fun _ c => Steady service c ∧ Resting c.t.view := by
  intro c hc
  obtain ⟨hs, hempty, hlife, hstopping⟩ := closeConnection_spec hc.toSteady
  generalize (closeConnection c).2 = c' at hs hempty hlife hstopping
  have hstate : c'.t.life.state = .backoff ∨ c'.t.life.state = .authFailed := by
    rw [hlife]
    exact hc.state
  have hflags : Unflagged c'.t.life := by
    rw [hlife]
    exact hc.unflagged
  refine ⟨hs, hempty, ?_, fun (h : c'.t.life.state = .discovery) => ?_, hflags,
    hstopping.trans hc.stopping⟩
  · rcases hstate with h | h
    · exact Or.inr (Or.inr (Or.inl h))
    · exact Or.inr (Or.inr (Or.inr (Or.inl h)))
  · rw [h] at hstate
    simp at hstate

/-- After `retry` nothing is held, and the task waits or has given up. -/
theorem retry_spec : Triple (fun c => Steady service c ∧ Retryable c.t.view) retry
    fun _ c => Steady service c ∧ Resting c.t.view := by
  refine .get_bind fun c hc => .ite (fun hfinal => ?_) fun _ => ?_
  · refine .bind (Q := fun _ => Abandoned service) ?_ fun _ => closeConnection_abandoned
    rintro c' ⟨rfl, -⟩
    exact authRejected_abandoned hc.1 hc.2 hfinal.1
  · refine .bind (Q := fun _ => Abandoned service) ?_ fun _ => closeConnection_abandoned
    rintro c' ⟨rfl, -⟩
    exact retryLater_abandoned hc.1 hc.2

/-! ## Discovery -/

/-- What an attempt leaves: a phase, or something to give up. -/
def Attempted (service : Bytes) (ok : Bool) (c : Ctx) : Prop :=
  Steady service c ∧ (ok = true → Phase c.t.view c.history) ∧ (ok = false → Retryable c.t.view)

theorem Probing.retryable {v : View} (h : Probing v) : Retryable v := by
  refine ⟨?_, h.ready, h.stopping, fun hr => ?_⟩
  · rw [h.state]
    decide
  · rw [h.rpc] at hr
    cases hr

theorem Connecting.retryable {v : View} (h : Connecting v) : Retryable v := by
  refine ⟨?_, h.ready, h.stopping, fun hr => ?_⟩
  · rcases h.state with hs | hs <;> rw [hs] <;> decide
  · rw [h.rpc] at hr
    cases hr

theorem Linked.retryable {v : View} {history : List Note} (h : Linked v history)
    (hstopping : v.stopping = false) : Retryable v := by
  have hactive : v.life.state ≠ .stopping := by
    intro hs
    rw [h.stopping.2 hs] at hstopping
    cases hstopping
  refine ⟨?_, h.ready, hstopping, fun hr => negotiating_iff.2 ?_⟩
  · rcases h.state with hs | hs | hs | hs | hs | hs
    all_goals
      first
      | exact absurd hs hactive
      | rw [hs]; decide
  · have hidle : v.life.state ≠ .http2 := by
      intro hs
      rw [(h.http2 hs).1] at hr
      cases hr
    have hs := h.state
    unfold linkedState at hs
    tauto

/-- A steady context with a view of a kind. -/
structure Within (service : Bytes) (P : View → Prop) (c : Ctx) : Prop extends Steady service c where
  within : P c.t.view

/-- A program that changes nothing that the phases are about. -/
def Quiet {α : Type} (x : M α) : Prop := ∀ c, (x c).2.t.view = c.t.view ∧ (x c).2.history = c.history

theorem nowMs_quiet : Quiet nowMs := fun _ => ⟨rfl, rfl⟩

theorem espRandom_quiet : Quiet espRandom := fun _ => ⟨rfl, rfl⟩

theorem outcome_quiet : Quiet outcome := fun _ => ⟨rfl, rfl⟩

theorem message_quiet (text : String) : Quiet (message text) := fun _ => ⟨rfl, rfl⟩

section
variable {α : Type} {P Q : View → Prop}

theorem Quiet.within {x : M α} (hx : Quiet x) :
    Triple (Within service P) x fun _ => Within service P := by
  intro c hc
  obtain ⟨hview, hhistory⟩ := hx c
  refine ⟨⟨?_, ?_⟩, ?_⟩
  · rw [hhistory]
    exact hc.sound
  · exact (congrArg View.service hview).trans hc.service
  · rw [hview]
    exact hc.within

theorem modify_within {f : Tunnel → Tunnel} (hservice : ∀ t, (f t).service = t.service)
    (hf : ∀ t, P t.view → Q (f t).view) :
    Triple (Within service P) (modifyTunnel f) fun _ => Within service Q :=
  fun c hc => ⟨⟨hc.sound, (hservice c.t).trans hc.service⟩, hf c.t hc.within⟩

/-- A failure of an attempt. -/
theorem fail_within (hP : ∀ v, P v → Retryable v) (text : String) :
    Triple (Within service P) (do message text; return false) (Attempted service) :=
  .bind (message_quiet text).within fun _ => .ret fun _ h =>
    ⟨h.toSteady, fun h => by (cases h), fun _ => hP _ h.within⟩

theorem succeed_within (hP : ∀ v history, P v → Phase v history) :
    Triple (Within service P) (pure true) (Attempted service) :=
  .ret fun _ h => ⟨h.toSteady, fun _ => hP _ _ h.within, fun h => by cases h⟩

end

/-- A query that has been sent leaves an open socket. -/
theorem dnsSend_within (name : Bytes) : Triple (Within service Probing) (dnsSend name)
    fun rc => Within service fun v => Probing v ∧ (rc = .ok → Discovering v) := by
  have hlost : ∀ rc ≠ Result.ok, ∀ c, Within service Discovering c →
      Within service (fun v => Probing v ∧ (rc = .ok → Discovering v)) c :=
    fun rc hrc c hc => ⟨hc.toSteady, hc.within.toProbing, fun h => absurd h hrc⟩
  refine .bind outcome_quiet.within fun opened => ?_
  refine .bind (Q := fun _ => Within service fun v => Probing v ∧ v.dnsSocket = opened) ?_ fun _ => ?_
  · exact modify_within (fun _ => rfl) fun _ h => ⟨{ h with }, rfl⟩
  refine .ite (fun _ => .ret fun c hc => ⟨hc.toSteady, hc.within.1, fun h => by cases h⟩)
    fun hopened => Triple.pre (P := Within service Discovering) ?_
      fun c hc => ⟨hc.toSteady, hc.within.1, hc.within.2.trans (by simpa using hopened)⟩
  refine .bind outcome_quiet.within fun connected => .ite (fun _ => .ret (hlost _ (by simp))) fun _ => ?_
  refine .bind espRandom_quiet.within fun id => ?_
  refine .bind (Q := fun _ => Within service Discovering) ?_ fun _ => ?_
  · exact modify_within (fun _ => rfl) fun _ h => { h with }
  refine .bind outcome_quiet.within fun built => .ite (fun _ => .ret (hlost _ (by simp))) fun _ => ?_
  refine .bind outcome_quiet.within fun sent => .ite (fun _ => .ret (hlost _ (by simp))) fun _ => ?_
  refine .bind nowMs_quiet.within fun now => ?_
  refine .bind (Q := fun _ => Within service Discovering) ?_ fun _ => .ret fun c hc =>
    ⟨hc.toSteady, hc.within.toProbing, fun _ => hc.within⟩
  exact modify_within (fun _ => rfl) fun _ h => { h with }

/-- The credentials are taken over, or nothing is. -/
theorem loadCredentials_within :
    Triple (Within service fun v => Resting v ∧ v.life.state = .discovery) loadCredentials fun ready =>
      Within service fun v => v.life.state = .discovery ∧ (ready = false → Resting v) ∧
        Resting { v with credentials := noCredentials } := by
  refine .get_bind fun c hc => .bind (Q := fun _ c' => Within service (fun v =>
    v.life.state = .discovery ∧ (_ = false → Resting v) ∧
      Resting { v with credentials := noCredentials }) c') ?_ fun _ => .ret fun _ h => h
  rintro c' ⟨rfl, -⟩
  have hempty := hc.within.1.empty
  have hrest : Resting { c'.t.view with
      credentials := noCredentials, hostname := c'.oracle.credentials.2.2.take 254 } :=
    { hc.within.1 with empty := { hempty with credentials := rfl } }
  refine ⟨⟨hc.sound, hc.service⟩, hc.within.2, fun hready => ?_, hrest⟩
  refine { hrest with empty := { hrest.empty with credentials := ?_ } }
  exact if_neg (by rw [hready]; decide)

/-- An attempt begins, or the task goes on resting. -/
theorem startAttempt_spec :
    Triple (Within service fun v => Resting v ∧ v.life.state = .discovery) startAttempt fun ended c =>
      (ended = none → Within service Discovering c) ∧ ∀ ok, ended = some ok → Attempted service ok c := by
  have hended : ∀ {ok c}, Attempted service ok c → (some ok = none → Within service Discovering c) ∧
      ∀ ok', some ok = some ok' → Attempted service ok' c := by
    intro ok c h
    refine ⟨fun h => by (cases h), fun ok' heq => ?_⟩
    cases heq
    exact h
  have hrests : ∀ {c P}, Within service P c → Resting c.t.view → Attempted service true c :=
    fun hc hr => ⟨hc.toSteady, fun _ => .resting hr, fun h => by (cases h)⟩
  have hfail : ∀ text : String, Triple (Within service Probing) (do message text; return some false)
      fun ended c => (ended = none → Within service Discovering c) ∧
        ∀ ok, ended = some ok → Attempted service ok c :=
    fun text => .bind (message_quiet text).within fun _ => .ret fun c hc =>
      hended ⟨hc.toSteady, fun h => by (cases h), fun _ => hc.within.retryable⟩
  refine .bind outcome_quiet.within fun locked => .ite (fun _ => .ret fun c hc => ?_) fun _ => ?_
  · exact hended (hrests hc hc.within.1)
  refine .bind loadCredentials_within fun ready => .ite (fun hready => ?_) fun _ => ?_
  · refine .bind (message_quiet _).within fun _ => .ret fun c hc => ?_
    exact hended (hrests hc (hc.within.2.1 (by simpa using hready)))
  refine .bind (Q := fun _ => Within service Probing) ?_ fun _ => ?_
  · refine modify_within (fun _ => rfl) fun t h => ?_
    obtain ⟨hstate, -, hrest⟩ := h
    exact ⟨hrest.empty.linked, hrest.empty.tls, hrest.empty.rpc, hrest.empty.remote, rfl, hstate,
      hrest.ready hstate, hrest.unflagged, hrest.stopping⟩
  refine .bind outcome_quiet.within fun allocated => ?_
  refine .bind (Q := fun _ => Within service Probing) ?_ fun _ => ?_
  · exact modify_within (fun _ => rfl) fun _ h => { h with }
  refine .ite (fun _ => hfail _) fun _ => ?_
  refine .bind (dnsSend_within _) fun rc => .ite (fun _ => ?_) fun hrc => ?_
  · exact (hfail _).pre fun c hc => ⟨hc.toSteady, hc.within.1⟩
  · refine .bind (message_quiet _).within fun _ => .ret fun c hc => ⟨fun _ => ?_, fun ok h => by cases h⟩
    exact ⟨hc.toSteady, hc.within.2 (not_not.1 hrc)⟩

theorem chooseTarget_spec (records : Dns.Answer) :
    Triple (Within service Discovering) (chooseTarget records) (Attempted service) := by
  refine .bind espRandom_quiet.within fun random => .get_bind fun c hc => Triple.pre ?_ fun _ h => h.2
  refine .bind (Q := fun _ => Within service Probing) ?_ fun _ => ?_
  · exact modify_within (fun _ => rfl) fun _ h => { h with }
  refine .bind (dnsSend_within _) fun rc => .ite (fun _ => ?_) fun hrc => ?_
  · exact (fail_within (fun _ h => h.retryable) _).pre fun c hc => ⟨hc.toSteady, hc.within.1⟩
  · exact (succeed_within fun _ _ h => .discovering h).pre
      fun c hc => ⟨hc.toSteady, hc.within.2 (not_not.1 hrc)⟩

/-- A TLS connection with an edge is to be set up. -/
structure Dialling (v : View) : Prop extends Probing { v with tls := false } where
  dnsSocket : v.dnsSocket = false
  dnsAnswer : v.dnsAnswer = false

/-- A lifecycle event that is taken. -/
theorem advance_within {P Q : View → Prop} (site : Site) {e : Event}
    (hP : ∀ v, P v → ∃ l, terminal v.life.state = false ∧ Ready v.life ∧ Advances v.life e l ∧
      Q { v with life := l }) :
    Triple (Within service P) (advance site e) fun _ => Within service Q := by
  intro c hc
  obtain ⟨l, hopen, hready, hadvances, hq⟩ := hP _ hc.within
  have htaken := lifecycleAdvance_of_ready (l := c.t.life) hopen hready.1 hready.2 hadvances
  have heq : advance site e c = ((), { c with
      t := { c.t with life := l }, history := .lifecycle site .ok :: c.history }) := by
    change ((), _) = _
    rw [htaken]
  rw [heq]
  exact ⟨⟨⟨fun _ => rfl, hc.sound⟩, hc.service⟩, hq⟩

theorem startTls_spec (records : Dns.Answer) :
    Triple (Within service Discovering) (startTls records) (Attempted service) := by
  refine .bind espRandom_quiet.within fun random => ?_
  refine .bind (Q := fun _ => Within service Dialling) ?_ fun _ => ?_
  · exact modify_within (fun _ => rfl) fun _ h =>
      { h with tls := rfl, dnsSocket := rfl, dnsAnswer := rfl }
  refine .bind outcome_quiet.within fun created => ?_
  refine .bind (Q := fun _ => Within service fun v => Dialling v ∧ v.tls = created) ?_ fun _ => ?_
  · exact modify_within (fun _ => rfl) fun _ h => ⟨{ h with }, rfl⟩
  refine .ite (fun _ => ?_) fun hcreated => ?_
  · refine fail_within (fun v h => ?_) _
    exact { h.1.toProbing.retryable with }
  refine .bind nowMs_quiet.within fun now => ?_
  refine .bind (Q := fun _ => Within service fun v => Dialling v ∧ v.tls = created) ?_ fun _ => ?_
  · exact modify_within (fun _ => rfl) fun _ h => ⟨{ h.1 with }, h.2⟩
  refine .bind (Q := fun _ => Within service Connecting) (advance_within _ fun v h => ?_) fun _ => ?_
  · refine ⟨_, ?_, h.1.ready, .discovered h.1.state, ?_⟩
    · rw [show v.life.state = .discovery from h.1.state]
      rfl
    · exact ⟨h.1.linked, h.2.trans (by simpa using hcreated), h.1.dnsSocket, h.1.dnsAnswer, h.1.rpc,
        h.1.remote, Or.inl rfl, h.1.ready, h.1.unflagged, h.1.stopping⟩
  exact .bind (message_quiet _).within fun _ => succeed_within fun _ _ h => .connecting h

theorem resolve_spec : Triple (Within service Discovering) resolve (Attempted service) := by
  have hfail : ∀ text : String, Triple (Within service Discovering) (do message text; return false)
      (Attempted service) := fail_within fun _ h => h.toProbing.retryable
  refine .get_bind fun c hc => Triple.pre ?_ fun _ h => h.2
  cases c.oracle.packet with
  | again =>
    refine .bind nowMs_quiet.within fun now => .get_bind fun c hc => Triple.pre ?_ fun _ h => h.2
    exact .ite (fun _ => succeed_within fun _ _ h => .discovering h) fun _ => hfail _
  | failed => exact hfail _
  | invalid => exact hfail _
  | answer records =>
    refine .get_bind fun c hc => Triple.pre ?_ fun _ h => h.2
    exact .ite (fun _ => chooseTarget_spec records) fun _ => startTls_spec records

/-- `discover` goes on with an attempt or begins one. -/
theorem discover_spec :
    Triple (Within service fun v => (Resting v ∧ v.life.state = .discovery) ∨ Discovering v) discover
      (Attempted service) := by
  refine .get_bind fun c hc => .ite (fun hstarted => ?_) fun hstarted => ?_
  · refine resolve_spec.pre fun c' h => ⟨h.2.toSteady, ?_⟩
    obtain ⟨rfl, h⟩ := h
    rcases h.within with ⟨hrest, -⟩ | h
    · have hno : c'.t.attemptStarted = false := hrest.empty.attemptStarted
      rw [hno] at hstarted
      cases hstarted
    · exact h
  · refine .bind (startAttempt_spec.pre fun c' h => ⟨h.2.toSteady, ?_⟩) fun ended => ?_
    · obtain ⟨rfl, h⟩ := h
      rcases h.within with h | h
      · exact h
      · exact absurd h.attemptStarted hstarted
    · cases ended with
      | some ok => exact .ret fun c hc => hc.2 ok rfl
      | none => exact resolve_spec.pre fun c hc => hc.1 rfl

/-! ## Connecting -/

/-- A connection that is new: no stream has been opened on it. -/
theorem Connecting.linked_of_tls {v : View} (h : Connecting v) (history : List Note) :
    Linked { v with linked := true, life := { v.life with state := .http2 } } history := by
  obtain ⟨hregistered, hconfigured⟩ := h.unflagged
  refine ⟨rfl, h.tls, h.dnsSocket, h.dnsAnswer, Or.inl rfl, h.ready, ?_, fun _ => ?_, fun _ => ?_,
    fun hr => ?_, fun hr => ?_, fun hc => ?_, fun hv => ?_, fun hs => by cases hs⟩
  · change v.stopping = true ↔ State.http2 = .stopping
    rw [h.stopping]
    simp
  · change v.rpc.capability < 2 ^ 32
    rw [h.rpc]
    decide
  · exact ⟨by rw [h.rpc]; rfl, h.unflagged⟩
  · have hr : v.rpc.state = .registered := hr
    rw [h.rpc] at hr
    cases hr
  · exact absurd (hregistered.symm.trans hr) (by simp)
  · exact absurd (hconfigured.symm.trans hc) (by simp)
  · have hv : v.remote.valid = true := hv
    rw [h.remote] at hv
    cases hv

theorem startHttp2_spec :
    Triple (Within service fun v => Connecting v ∧ v.life.state = .tls) startHttp2
      (Attempted service) := by
  refine .bind outcome_quiet.within fun created => ?_
  refine .bind (Q := fun _ => Within service fun v =>
    Connecting { v with linked := false } ∧ v.life.state = .tls ∧ v.linked = created) ?_ fun _ => ?_
  · refine modify_within (fun _ => rfl) fun _ h => ⟨{ h.1 with linked := rfl }, h.2, ?_⟩
    cases created <;> rfl
  refine .ite (fun _ => ?_) fun hcreated => ?_
  · exact fail_within (fun _ h => { h.1.retryable with }) _
  have hcreated : created = true := by simpa using hcreated
  let Open : View → Prop := fun v => ∀ history, Linked v history
  refine .bind (Q := fun _ => Within service Open) (advance_within _ fun v h => ?_) fun _ => ?_
  · obtain ⟨hconnecting, hstate, hlinked⟩ := h
    refine ⟨_, ?_, hconnecting.ready, .tlsReady hstate, fun history => ?_⟩
    · rw [hstate]
      rfl
    · have hnew := hconnecting.linked_of_tls history
      rw [hcreated] at hlinked
      exact { hnew with linked := hlinked }
  refine .bind nowMs_quiet.within fun now => ?_
  refine .bind (Q := fun _ => Within service Open) ?_ fun _ => ?_
  · exact modify_within (fun _ => rfl) fun _ h history => { h history with }
  · exact .bind (message_quiet _).within fun _ => succeed_within fun _ history h => .linked (h history)

theorem connectTls_spec : Triple (Within service Connecting) connectTls (Attempted service) := by
  have hfail : ∀ text : String, Triple (Within service Connecting) (do message text; return false)
      (Attempted service) := fail_within fun _ h => h.retryable
  refine .get_bind fun c hc => ?_
  obtain ⟨handshake, hhandshake⟩ : ∃ handshake, c.oracle.handshake = handshake := ⟨_, rfl⟩
  rw [hhandshake]
  -- A handshake that is under way or done has left the state for the TCP connection.
  refine .when (A := Within service fun v =>
    Connecting v ∧ (handshake.reached = true → v.life.state = .tls)) (fun hreached => ?_)
    (fun hno c' h => ?_) ?_
  · refine Triple.pre (P := Within service fun v => Connecting v ∧ v.life.state = .connect)
      (advance_within _ fun v h => ?_) fun c' h => ?_
    · refine ⟨_, ?_, h.1.ready, .connected h.2, { h.1 with state := Or.inr rfl }, fun _ => rfl⟩
      rw [h.2]
      rfl
    · obtain ⟨rfl, h⟩ := h
      exact ⟨h.toSteady, h.within, hreached.1⟩
  · obtain ⟨rfl, h⟩ := h
    refine ⟨h.toSteady, h.within, fun hreached => h.within.state.resolve_left fun hs => ?_⟩
    exact hno ⟨hs, hreached⟩
  refine .bind nowMs_quiet.within fun now => ?_
  cases handshake with
  | failed stage handshaking => exact (hfail _).pre fun c h => ⟨h.toSteady, h.within.1⟩
  | pending handshaking =>
    refine Triple.pre (P := Within service Connecting) ?_ fun c h => ⟨h.toSteady, h.within.1⟩
    exact .ite (fun _ => hfail _) fun _ => succeed_within fun _ _ h => .connecting h
  | done => exact startHttp2_spec.pre fun c h => ⟨h.toSteady, h.within.1, h.within.2 rfl⟩

/-! ## An iteration -/

/-- Between the parts of an iteration the task is in a phase. -/
structure Settled (service : Bytes) (c : Ctx) : Prop extends Steady service c where
  phase : Phase c.t.view c.history

/-- What a part of an iteration leaves: a phase, unless it ends the task. -/
def Served (service : Bytes) (continues : Bool) (c : Ctx) : Prop :=
  Steady service c ∧ (continues = true → Phase c.t.view c.history)

/-- The state of a task that starts. -/
theorem waiting_resting (l : Life) : restingState (waiting l) ∧ (waiting l = .discovery → Ready l) := by
  unfold waiting Ready
  cases l.networkReady <;> cases l.timeReady <;> simp [restingState]

theorem lifecycleStart_stopped {l : Life} (h : l.state = .stopped) :
    (lifecycleStart l).1 =
      { l with registered := false, configured := false, failures := 0, retryAtMs := 0
               state := waiting l } := by
  rw [lifecycleStart, if_neg (not_not.2 h)]

/-- A task that holds nothing may start. -/
theorem Empty.start {v : View} (h : Empty v) {l : Life} (hl : l.state = .stopped) :
    Resting { v with life := (lifecycleStart l).1, stopping := false } := by
  rw [lifecycleStart_stopped hl]
  exact ⟨{ h with }, (waiting_resting l).1, (waiting_resting l).2, ⟨rfl, rfl⟩, rfl⟩

theorem reload_spec : Triple (Steady service) reload fun _ => Settled service := by
  intro c hc
  obtain ⟨hs, hempty, -, -⟩ := closeConnection_spec hc
  refine ⟨⟨hs.sound, hs.service⟩, .resting ?_⟩
  exact hempty.start (l := lifecycleStop (closeConnection c).2.t.life) rfl

theorem Phase.note {v : View} {history : List Note} (h : Phase v history) {n : Note}
    (hn : n.closes = false) : Phase v (n :: history) := by
  cases h with
  | resting h => exact .resting h
  | discovering h => exact .discovering h
  | connecting h => exact .connecting h
  | linked h => exact .linked (h.note hn)

/-- A task with a session is in the last phase. -/
theorem Phase.linked_of_h2 {v : View} {history : List Note} (h : Phase v history)
    (hlinked : v.linked = true) : Linked v history := by
  cases h with
  | resting h => exact absurd (h.empty.linked.symm.trans hlinked) (by simp)
  | discovering h => exact absurd (h.linked.symm.trans hlinked) (by simp)
  | connecting h => exact absurd (h.linked.symm.trans hlinked) (by simp)
  | linked h => exact h

/-- A connection that is being stopped. -/
theorem Linked.stop {v : View} {history : List Note} (h : Linked v history) :
    Linked { v with stopping := true, life := { v.life with state := .stopping } } history :=
  { h with
    state := Or.inr (Or.inr (Or.inr (Or.inr (Or.inr rfl))))
    stopping := ⟨fun _ => rfl, fun _ => rfl⟩
    http2 := fun hs => by cases hs
    online := fun hs => by cases hs }

theorem serveRequests_spec : Triple (Settled service) serveRequests (Served service) := by
  refine .get_bind fun c hc => ?_
  refine .bind (Q := fun _ => Settled service) ?_ fun _ => ?_
  · exact fun c' h => ⟨⟨h.2.sound, h.2.service⟩, h.2.phase⟩
  refine .when (A := Settled service) (fun _ => reload_spec.pre fun _ h => h.toSteady) (fun _ _ h => h) ?_
  refine .get_bind fun c₁ hc₁ => .ite (fun _ => .ret fun _ h => ⟨h.2.toSteady, fun _ => h.2.phase⟩) fun _ => ?_
  refine .get_bind fun c₂ hc₂ => .ite (fun _ => .ret fun _ h => ?_) fun hregistered => ?_
  · exact ⟨h.2.2.toSteady, fun h => by cases h⟩
  have hregistered : c₂.t.h2.isSome = true ∧ c₂.t.rpc.state = .registered := by
    simpa [Option.isSome_iff_ne_none] using hregistered
  let Connected : Ctx → Prop := fun c => Steady service c ∧ Linked c.t.view c.history
  refine .bind (Q := fun _ => Connected) ?_ fun _ => ?_
  · rintro c' ⟨rfl, -, hc'⟩
    have hlinked := hc'.phase.linked_of_h2 hregistered.1
    have ha := Rpc.rpcUnregister_acts (r := c'.t.rpc) zeros le_rfl hlinked.capability
    have hnew := hlinked.acts ha (fun h => by cases h) fun hold _ => ?_
    · exact ⟨⟨hc'.sound, hc'.service⟩, hnew⟩
    · obtain ⟨-, -, frame, hop⟩ := hold
      cases hop
  have hend : Triple Connected (do
      let now ← nowMs
      modifyTunnel fun t => { t with
        stopping := true, shutdownMs := now + 2000, life := { t.life with state := .stopping } }
      return true) (Served service) := by
    refine .bind (Q := fun _ => Connected) (fun c h => ⟨⟨h.1.sound, h.1.service⟩, h.2⟩) fun now => ?_
    refine .bind (Q := fun _ => Settled service) ?_ fun _ => .ret fun _ h => ⟨h.toSteady, fun _ => h.phase⟩
    exact fun c h => ⟨⟨h.1.sound, h.1.service⟩, .linked h.2.stop⟩
  refine .ite (fun _ => .bind (Q := fun _ => Connected) ?_ fun _ => hend) fun _ => hend
  intro c' h
  obtain ⟨queue, queued, hview⟩ := (appendRpc_does _ c').1
  exact ⟨⟨appendRpc_sound h.1.sound, (congrArg View.service hview).trans h.1.service⟩,
    appendRpc_linked h.2⟩

/-! ## The environment report -/

/-- A report that network and clock are ready, and a tick. -/
theorem report_ready_eq (l : Life) (now : Nat) :
    lifecycleTick (lifecycleEnvironment l true true) now =
      { l with
        networkReady := true, timeReady := true
        state := if l.state = .waitNetwork ∨ l.state = .waitTime ∨
          (l.state = .backoff ∧ l.retryAtMs ≤ now) then .discovery else l.state } := by
  obtain ⟨state, network, timeReady, registered, configured, failures, retryAtMs⟩ := l
  by_cases hnow : retryAtMs ≤ now <;> cases state <;>
    simp [lifecycleEnvironment, lifecycleTick, terminal, waiting, hnow]

/-- A report that network or clock is not ready, and a tick. -/
theorem report_lost_eq {l : Life} (hopen : terminal l.state = false) {network timeValid : Bool}
    (hlost : network = false ∨ timeValid = false) (now : Nat) :
    lifecycleTick (lifecycleEnvironment l network timeValid) now =
      { l with
        networkReady := network, timeReady := timeValid, registered := false, configured := false
        state := if l.state = .backoff ∧ now < l.retryAtMs then .backoff
          else if !network then .waitNetwork else .waitTime } := by
  obtain ⟨state, networkReady, timeReady, registered, configured, failures, retryAtMs⟩ := l
  have hnow : now < retryAtMs ↔ ¬ retryAtMs ≤ now := Nat.not_le.symm
  by_cases hlate : retryAtMs ≤ now <;> cases state <;> cases network <;> cases timeValid <;>
    simp_all [lifecycleEnvironment, lifecycleTick, terminal, waiting]

/-- A phase after a report that network and clock are ready. -/
theorem Phase.report_ready {v : View} {history : List Note} (h : Phase v history) (now : Nat) :
    Phase { v with life := lifecycleTick (lifecycleEnvironment v.life true true) now } history := by
  rw [report_ready_eq]
  cases h with
  | resting h =>
    refine .resting { h with empty := { h.empty with }, state := ?_, ready := fun _ => ⟨rfl, rfl⟩ }
    dsimp only
    split
    · exact Or.inr (Or.inr (Or.inr (Or.inr rfl)))
    · exact h.state
  | discovering h =>
    rw [if_neg (by simp [h.state])]
    exact .discovering { h with ready := ⟨rfl, rfl⟩ }
  | connecting h =>
    rw [if_neg (by rcases h.state with hs | hs <;> simp [hs])]
    exact .connecting { h with ready := ⟨rfl, rfl⟩ }
  | linked h =>
    rw [if_neg (by rcases h.state with hs | hs | hs | hs | hs | hs <;> simp [hs])]
    exact .linked { h with ready := ⟨rfl, rfl⟩ }

/-- A task without a connection after a report that network or clock is not ready. -/
theorem report_lost {v : View} (hempty : Empty v) (hstopping : v.stopping = false)
    (hopen : terminal v.life.state = false ∨ v.life.state = .authFailed ∧ Unflagged v.life)
    {network timeValid : Bool} (hlost : network = false ∨ timeValid = false) (now : Nat) :
    Resting { v with life := lifecycleTick (lifecycleEnvironment v.life network timeValid) now } := by
  rcases hopen with hopen | ⟨hfailed, hflags⟩
  · rw [report_lost_eq hopen hlost]
    refine ⟨{ hempty with }, ?_, fun hs => ?_, ⟨rfl, rfl⟩, hstopping⟩
    · dsimp only
      repeat' split
      all_goals simp [restingState]
    · dsimp only at hs
      repeat' split at hs
      all_goals cases hs
  · have heq : lifecycleTick (lifecycleEnvironment v.life network timeValid) now =
        { v.life with networkReady := network, timeReady := timeValid } := by
      simp [lifecycleEnvironment, lifecycleTick, terminal, hfailed]
    rw [heq]
    refine ⟨{ hempty with }, Or.inr (Or.inr (Or.inr (Or.inl hfailed))), fun hs => ?_, hflags, hstopping⟩
    exact absurd (hfailed.symm.trans hs) (by simp)

/-- The phases that hold nothing are those that need not be closed. -/
theorem Phase.empty {v : View} {history : List Note} (h : Phase v history) (htls : v.tls = false)
    (hdns : v.dnsSocket = false) : Empty v := by
  cases h with
  | resting h => exact h.empty
  | discovering h => exact absurd (h.dnsSocket.symm.trans hdns) (by simp)
  | connecting h => exact absurd (h.tls.symm.trans htls) (by simp)
  | linked h => exact absurd (h.tls.symm.trans htls) (by simp)

/-- A task that is not being stopped takes the events of the lifecycle, or has given up. -/
theorem Phase.terminal_or {v : View} {history : List Note} (h : Phase v history)
    (hstopping : v.stopping = false) :
    terminal v.life.state = false ∨ v.life.state = .authFailed ∧ Unflagged v.life := by
  cases h with
  | resting h =>
    rcases h.state with hs | hs | hs | hs | hs
    · exact Or.inl (by rw [hs]; rfl)
    · exact Or.inl (by rw [hs]; rfl)
    · exact Or.inl (by rw [hs]; rfl)
    · exact Or.inr ⟨hs, h.unflagged⟩
    · exact Or.inl (by rw [hs]; rfl)
  | discovering h => exact Or.inl h.toProbing.retryable.state.1
  | connecting h => exact Or.inl h.retryable.state.1
  | linked h => exact Or.inl (h.retryable hstopping).state.1

/-- What the report leaves: a connection only where network and clock are ready. -/
def Reported (service : Bytes) (continues : Bool) (c : Ctx) : Prop :=
  Steady service c ∧ (continues = true → Phase c.t.view c.history ∧
    (c.t.h2.isSome = true → Surveyed c.history))

/-- A task without a connection that the report of a loss may reach. -/
structure Unplugged (service : Bytes) (c : Ctx) : Prop extends Steady service c where
  empty : Empty c.t.view
  stopping : c.t.stopping = false
  terminal : terminal c.t.life.state = false ∨ c.t.life.state = .authFailed ∧ Unflagged c.t.life

/-- The lifecycle's part of the report. -/
def report (env : Environment) : M Bool := do
  let now ← nowMs
  modifyTunnel fun t => { t with
    life := lifecycleTick (lifecycleEnvironment t.life env.networkReady env.timeValid) now }
  return true

theorem report_spec_ready {env : Environment} (hnetwork : env.networkReady = true)
    (htime : env.timeValid = true) :
    Triple (fun c => Settled service c ∧ Surveyed c.history) (report env) (Reported service) := by
  refine .bind (Q := fun _ c => Settled service c ∧ Surveyed c.history)
    (fun c h => ⟨⟨⟨h.1.sound, h.1.service⟩, h.1.phase⟩, h.2⟩) fun now => ?_
  refine .bind (Q := fun _ c => Settled service c ∧ Surveyed c.history) ?_
    fun _ => .ret fun c h => ⟨h.1.toSteady, fun _ => ⟨h.1.phase, fun _ => h.2⟩⟩
  intro c h
  rw [hnetwork, htime]
  exact ⟨⟨⟨h.1.sound, h.1.service⟩, h.1.phase.report_ready now⟩, h.2⟩

theorem report_spec_lost {env : Environment}
    (hlost : env.networkReady = false ∨ env.timeValid = false) :
    Triple (Unplugged service) (report env) (Reported service) := by
  refine .bind (Q := fun _ => Unplugged service)
    (fun c h => ⟨⟨h.sound, h.service⟩, h.empty, h.stopping, h.terminal⟩) fun now => ?_
  refine .bind (Q := fun _ c => Steady service c ∧ Resting c.t.view) ?_ fun _ => .ret fun c h => ?_
  · exact fun c h => ⟨⟨h.sound, h.service⟩, report_lost h.empty h.stopping h.terminal hlost now⟩
  · refine ⟨h.1, fun _ => ⟨.resting h.2, fun hh2 => ?_⟩⟩
    exact absurd (h.2.empty.linked.symm.trans hh2) (by simp)

theorem serveEnvironment_spec : Triple (Settled service) serveEnvironment (Reported service) := by
  refine .get_bind fun c hc => ?_
  obtain ⟨env, henv⟩ : ∃ env, env = c.oracle.environment := ⟨_, rfl⟩
  dsimp only
  rw [← henv]
  refine .bind (Q := fun _ => Settled service) ?_ fun _ => ?_
  · exact fun c' h => ⟨⟨h.2.sound, h.2.service⟩, h.2.phase⟩
  refine .bind (Q := fun _ c' => Settled service c' ∧
    .environment env.networkReady env.timeValid ∈ sinceBegin c'.history) ?_ fun _ => ?_
  · intro c' h
    refine ⟨⟨⟨⟨trivial, h.sound⟩, h.service⟩, h.phase.note rfl⟩, ?_⟩
    change _ ∈ sinceBegin (_ :: c'.history)
    rw [sinceBegin_cons rfl]
    exact List.mem_cons_self
  refine .ite (fun hlost => ?_) fun hready => ?_
  · have hlost : env.networkReady = false ∨ env.timeValid = false := by simpa using hlost
    refine .get_bind fun c₁ hc₁ => .ite (fun _ => .ret fun _ h => ⟨h.2.1.toSteady, fun h => by cases h⟩)
      fun hstopping => ?_
    have hstopping : c₁.t.stopping = false := by simpa using hstopping
    have hterminal := hc₁.1.phase.terminal_or hstopping
    refine .when (A := Unplugged service) (fun _ => ?_) (fun hheld c' h => ?_) (report_spec_lost hlost)
    · rintro c' ⟨rfl, h, -⟩
      obtain ⟨hs, hempty, hlife, hstop⟩ := closeConnection_spec h.toSteady
      refine ⟨hs, hempty, hstop.trans hstopping, ?_⟩
      rw [hlife]
      exact hterminal
    · obtain ⟨rfl, h, -⟩ := h
      obtain ⟨htls, hdns⟩ := not_or.1 hheld
      exact ⟨h.toSteady, h.phase.empty (Bool.eq_false_of_not_eq_true htls)
        (Bool.eq_false_of_not_eq_true hdns), hstopping, hterminal⟩
  · have hready : env.networkReady = true ∧ env.timeValid = true := by simpa using hready
    refine (report_spec_ready hready.1 hready.2).pre fun c' h => ⟨h.1, ?_⟩
    rw [hready.1, hready.2] at h
    exact h.2

/-! ## The state's step -/

/-- An attempt that has failed is given up. -/
theorem retryUnless_spec {x : M Bool} {P : Ctx → Prop} (hx : Triple P x (Attempted service)) :
    Triple P (do
      if !(← x) then retry
      return true) (Served service) := by
  refine .bind hx fun ok => ?_
  cases ok with
  | true => exact .ret fun c h => ⟨h.1, fun _ => h.2.1 rfl⟩
  | false =>
    refine .bind (Q := fun _ c => Steady service c ∧ Resting c.t.view)
      (retry_spec.pre fun c h => ⟨h.1, h.2.2 rfl⟩) fun _ => .ret fun c h => ?_
    exact ⟨h.1, fun _ => .resting h.2⟩

theorem serveState_spec : Triple (fun c => Reported service true c) serveState (Served service) := by
  refine .get_bind fun c hc => ?_
  obtain ⟨hsteady, hphase⟩ := hc
  obtain ⟨hphase, hsurveyed⟩ := hphase rfl
  refine .ite (fun hs => ?_) fun hdiscovery => .ite (fun hs => ?_) fun hconnect => .ite (fun hh2 => ?_)
    fun _ => .ret ?_
  · refine (retryUnless_spec discover_spec).pre ?_
    rintro c' ⟨rfl, -⟩
    refine ⟨hsteady, ?_⟩
    cases hphase with
    | resting h => exact Or.inl ⟨h, hs⟩
    | discovering h => exact Or.inr h
    | connecting h =>
      exfalso
      rcases h.state with h | h <;> exact absurd (hs.symm.trans h) (by simp)
    | linked h =>
      exfalso
      rcases h.state with h | h | h | h | h | h <;> exact absurd (hs.symm.trans h) (by simp)
  · refine (retryUnless_spec connectTls_spec).pre ?_
    rintro c' ⟨rfl, -⟩
    refine ⟨hsteady, ?_⟩
    have hs : c'.t.view.life.state = .connect ∨ c'.t.view.life.state = .tls := hs
    cases hphase with
    | resting h =>
      exfalso
      have h := h.state
      rcases hs with hs | hs <;> rw [hs] at h <;> simp [restingState] at h
    | discovering h =>
      rw [h.state] at hs
      simp at hs
    | connecting h => exact h
    | linked h =>
      exfalso
      have h := h.state
      rcases hs with hs | hs <;> rw [hs] at h <;> simp [linkedState] at h
  · refine .bind (Q := fun _ => Live service) ?_ fun ok => ?_
    · rintro c' ⟨rfl, -⟩
      exact communicate_live c' ⟨hsteady.sound, hsteady.service, hphase.linked_of_h2 hh2, hsurveyed hh2⟩
    cases ok with
    | true => exact .ret fun c h => ⟨⟨h.sound, h.service⟩, fun _ => .linked h.linked⟩
    | false =>
      refine .get_bind fun c₁ hc₁ => .ite (fun _ => .ret fun c h => ?_) fun hstopping => ?_
      · exact ⟨⟨h.2.sound, h.2.service⟩, fun h => by cases h⟩
      refine .bind (Q := fun _ c => Steady service c ∧ Resting c.t.view) (retry_spec.pre ?_)
        fun _ => .ret fun c h => ⟨h.1, fun _ => .resting h.2⟩
      rintro c' ⟨rfl, h⟩
      exact ⟨⟨h.sound, h.service⟩, h.linked.retryable (Bool.eq_false_of_not_eq_true hstopping)⟩
  · rintro c' ⟨rfl, -⟩
    exact ⟨hsteady, fun _ => hphase⟩

theorem serveShutdown_spec : Triple (Settled service) serveShutdown (Served service) := by
  have hserved : ∀ ok c, Settled service c → Served service ok c :=
    fun _ _ h => ⟨h.toSteady, fun _ => h.phase⟩
  refine .get_bind fun c hc => Triple.pre ?_ fun _ h => h.2
  refine .ite (fun _ => .bind (Q := fun _ => Settled service) ?_ fun now => ?_) fun _ => .ret (hserved _)
  · exact fun c h => ⟨⟨h.sound, h.service⟩, h.phase⟩
  · exact .get_bind fun c hc => .ret fun c h => hserved _ c h.2

/-- An iteration leads from a phase to a phase, unless it ends the task. -/
theorem iterate_spec : Triple (Settled service) iterate (Served service) := by
  have hstop : ∀ {R : Bool → Ctx → Prop}, (∀ c, R false c → Steady service c) →
      Triple (R false) (pure false) (Served service) :=
    fun hR => .ret fun c h => ⟨hR c h, fun h => by cases h⟩
  refine .bind (Q := fun _ => Settled service) ?_ fun _ => ?_
  · exact fun c h => ⟨⟨⟨trivial, h.sound⟩, h.service⟩, h.phase.note rfl⟩
  refine .bind serveRequests_spec fun ok => ?_
  cases ok with
  | false => exact hstop fun c h => h.1
  | true =>
  refine .bind (serveEnvironment_spec.pre fun c h => ⟨h.1, h.2 rfl⟩) fun ok => ?_
  cases ok with
  | false => exact hstop fun c h => h.1
  | true =>
  refine .bind serveState_spec fun ok => ?_
  cases ok with
  | false => exact hstop fun c h => h.1
  | true => exact serveShutdown_spec.pre fun c h => ⟨h.1, h.2 rfl⟩

/-! ## Reachable tunnels -/

/-- What holds of a tunnel between iterations, and while its task does not run. -/
structure Inv (service : Bytes) (w : World) : Prop where
  sound : Sound service w.history
  service : w.t.service = service
  running : w.running = true → Phase w.t.view w.history
  stopped : w.running = false → Empty w.t.view ∧ w.t.life.state = .stopped

theorem finish_spec {c : Ctx} (hc : Steady service c) :
    Steady service (finish c).2 ∧ Empty (finish c).2.t.view ∧ (finish c).2.t.life.state = .stopped := by
  obtain ⟨hs, hempty, -, -⟩ := closeConnection_spec hc
  exact ⟨⟨hs.sound, hs.service⟩, { hempty with }, rfl⟩

theorem World.step_inv {w : World} (h : Inv service w) (hrunning : w.running = true) (o : Oracle) :
    Inv service (w.step o) := by
  have hsettled : Settled service ⟨w.t.ask o, o, w.history⟩ :=
    ⟨⟨h.sound, h.service⟩, h.running hrunning⟩
  have hserved := iterate_spec _ hsettled
  unfold World.step
  generalize iterate ⟨w.t.ask o, o, w.history⟩ = p at hserved
  obtain ⟨continues, c⟩ := p
  cases continues with
  | true => exact ⟨hserved.1.sound, hserved.1.service, fun _ => hserved.2 rfl, fun h => by cases h⟩
  | false =>
    obtain ⟨hs, hempty, hstate⟩ := finish_spec hserved.1
    exact ⟨hs.sound, hs.service, fun h => by (cases h), fun _ => ⟨hempty, hstate⟩⟩

end

theorem tunnelInit_inv {s : Setup} {t : Tunnel} (h : tunnelInit s = some t) :
    Inv s.service { t } := by
  unfold tunnelInit at h
  split at h
  · cases h
  · obtain rfl := Option.some.inj h
    exact ⟨trivial, rfl, fun h => by (cases h), fun _ =>
      ⟨⟨rfl, rfl, rfl, rfl, rfl, rfl, rfl, rfl, rfl, rfl⟩, rfl⟩⟩

theorem Reach.inv {s : Setup} {w : World} (h : Reach s w) : Inv s.service w := by
  induction h with
  | init ht => exact tunnelInit_inv ht
  | start _ hrunning ih =>
    obtain ⟨hempty, hstate⟩ := ih.stopped hrunning
    exact ⟨ih.sound, ih.service, fun _ => .resting (hempty.start hstate), fun h => by cases h⟩
  | step o _ hrunning ih => exact World.step_inv ih hrunning o

/-- The handles that the task holds are those of the lifecycle's state. -/
structure Consistent (t : Tunnel) : Prop where
  h2 : t.h2.isSome = true ↔ linkedState t.life.state
  tls : t.tls = true ↔ linkedState t.life.state ∨ t.life.state = .connect ∨ t.life.state = .tls
  dns : t.dnsSocket = true ∨ t.dnsAnswer.isSome = true →
    t.life.state = .discovery ∧ t.attemptStarted = true
  idle : t.life.state = .backoff ∨ t.life.state = .authFailed ∨ t.life.state = .waitNetwork ∨
      t.life.state = .waitTime →
    t.h2.isSome = false ∧ t.tls = false ∧ t.dnsSocket = false ∧ t.dnsAnswer.isSome = false ∧
      t.attemptStarted = false ∧ t.credentials = noCredentials ∧ t.rpcQueue = zeros ∧ t.rpcQueued = 0

theorem Resting.consistent {t : Tunnel} (h : Resting t.view) : Consistent t := by
  have hempty := h.empty
  have hstate : restingState t.life.state := h.state
  have hlinked : ¬ linkedState t.life.state := by
    rcases hstate with hs | hs | hs | hs | hs <;> simp [linkedState, hs]
  have hdial : ¬ (t.life.state = .connect ∨ t.life.state = .tls) := by
    rcases hstate with hs | hs | hs | hs | hs <;> simp [hs]
  have hh2 : t.h2.isSome = false := hempty.linked
  have htls : t.tls = false := hempty.tls
  have hsocket : t.dnsSocket = false := hempty.dnsSocket
  have hanswer : t.dnsAnswer.isSome = false := hempty.dnsAnswer
  refine ⟨?_, ?_, ?_, fun _ => ⟨hh2, htls, hsocket, hanswer, hempty.attemptStarted,
    hempty.credentials, hempty.rpcQueue, hempty.rpcQueued⟩⟩
  · simp [hh2, hlinked]
  · simp [htls, hlinked, hdial]
  · simp [hsocket, hanswer]

theorem Discovering.consistent {t : Tunnel} (h : Discovering t.view) : Consistent t := by
  have hs : t.life.state = .discovery := h.state
  have hh2 : t.h2.isSome = false := h.linked
  have htls : t.tls = false := h.tls
  exact ⟨by simp [hh2, hs, linkedState], by simp [htls, hs, linkedState],
    fun _ => ⟨hs, h.attemptStarted⟩, by simp [hs]⟩

theorem Connecting.consistent {t : Tunnel} (h : Connecting t.view) : Consistent t := by
  have hs : t.life.state = .connect ∨ t.life.state = .tls := h.state
  have hh2 : t.h2.isSome = false := h.linked
  have htls : t.tls = true := h.tls
  have hsocket : t.dnsSocket = false := h.dnsSocket
  have hanswer : t.dnsAnswer.isSome = false := h.dnsAnswer
  refine ⟨?_, by simp [htls, hs], by simp [hsocket, hanswer], ?_⟩
  · rcases hs with hs | hs <;> simp [hh2, hs, linkedState]
  · rcases hs with hs | hs <;> simp [hs]

theorem Linked.consistent {t : Tunnel} {history : List Note} (h : Linked t.view history) :
    Consistent t := by
  have hs : linkedState t.life.state := h.state
  have hh2 : t.h2.isSome = true := h.linked
  have htls : t.tls = true := h.tls
  have hsocket : t.dnsSocket = false := h.dnsSocket
  have hanswer : t.dnsAnswer.isSome = false := h.dnsAnswer
  refine ⟨by simp [hh2, hs], by simp [htls, hs], by simp [hsocket, hanswer], fun hidle => ?_⟩
  rcases hs with hs | hs | hs | hs | hs | hs <;> simp [hs] at hidle

/-- A sound history holds no failure of a lifecycle call of an attempt or a retry. -/
theorem Sound.lifecycle {service : Bytes} {history : List Note} (h : Sound service history)
    {site : Site} {rc : Result} (hmem : .lifecycle site rc ∈ history)
    (hsite : site = .retry ∨ site = .discover ∨ site = .connectTls) : rc = .ok := by
  obtain ⟨later, before, heq⟩ := List.append_of_mem hmem
  rw [heq] at h
  exact h.split hsite

/-- No handle outlives the state it belongs to: in every run, after each iteration the task holds
exactly what its lifecycle state needs, and the lifecycle calls whose results `retry`, `discover` and
`connect_tls` drop have succeeded. -/
theorem handles_follow_state {s : Setup} {w : World} (h : Reach s w) :
    (w.running = true → Consistent w.t) ∧
      ∀ site rc, .lifecycle site rc ∈ w.history →
        site = .retry ∨ site = .discover ∨ site = .connectTls → rc = .ok := by
  refine ⟨fun hrunning => ?_, fun site rc hmem hsite => h.inv.sound.lifecycle hmem hsite⟩
  cases h.inv.running hrunning with
  | resting hphase => exact hphase.consistent
  | discovering hphase => exact hphase.consistent
  | connecting hphase => exact hphase.consistent
  | linked hphase => exact hphase.consistent

/-! ### A run that comes online -/

/-- A tunnel for the service of the examples. -/
def sampleSetup : Setup := ⟨text "1", text "esp32", text "http://localhost:80", 2, zeros⟩

/-- An iteration with network and clock. -/
def sampleReady : Oracle := { environment := { networkReady := true, timeValid := true } }

/-- The Return that answers the Bootstrap: capability 7. -/
def sampleBootstrap : Bytes :=
  [0, 0, 0, 0, 10, 0, 0, 0] ++ [0, 0, 0, 0, 1, 0, 1, 0] ++ [3, 0, 0, 0, 0, 0, 0, 0] ++
    [0, 0, 0, 0, 1, 0, 1, 0] ++ [0, 0, 0, 0, 0, 0, 0, 0] ++ [0, 0, 0, 0, 0, 0, 2, 0] ++
    [3, 0, 0, 0, 0, 0, 0, 0] ++ [1, 0, 0, 0, 23, 0, 0, 0] ++ [4, 0, 0, 0, 1, 0, 1, 0] ++
    [1, 0, 0, 0, 7, 0, 0, 0] ++ [0, 0, 0, 0, 0, 0, 0, 0]

/-- The Return that answers the registration: a success. -/
def sampleRegistered : Bytes :=
  [0, 0, 0, 0, 16, 0, 0, 0] ++ [0, 0, 0, 0, 1, 0, 1, 0] ++ [3, 0, 0, 0, 0, 0, 0, 0] ++
    [0, 0, 0, 0, 1, 0, 1, 0] ++ [1, 0, 0, 0, 0, 0, 0, 0] ++ [0, 0, 0, 0, 0, 0, 2, 0] ++
    [4, 0, 0, 0, 0, 0, 1, 0] ++ [0, 0, 0, 0, 0, 0, 0, 0] ++ [0, 0, 0, 0, 1, 0, 1, 0] ++
    [1, 0, 0, 0, 0, 0, 0, 0] ++ [0, 0, 0, 0, 1, 0, 2, 0] ++ [1, 0, 0, 0, 0, 0, 0, 0] ++
    [5, 0, 0, 0, 130, 0, 0, 0] ++ [9, 0, 0, 0, 34, 0, 0, 0] ++ [1, 2, 3, 4, 5, 6, 7, 8] ++
    [1, 2, 3, 4, 5, 6, 7, 8] ++ [83, 79, 70, 0, 0, 0, 0, 0]

/-- An update for the hostname `a.b`. -/
def sampleUpdate : Json :=
  .object [(text "version", .number 1), (text "config", .object [(text "ingress", .array [
    .object [(text "hostname", .string (text "a.b")),
      (text "service", .string (text "http://localhost:80"))],
    .object [(text "service", .string (text "http_status:404"))]])])]

/-- The iterations up to an HTTP/2 connection. -/
def sampleConnect : List Oracle :=
  [{ sampleReady with
      credentials := (.ok, ⟨Mem.write zeros 0 (List.replicate 32 97), zeros, zeros, 32⟩, text "a.b" ++ [0])
      packet := .answer [{ target := text "edge" }] },
    { sampleReady with packet := .answer [{ ip := [192, 0, 2, 1] }] },
    { sampleReady with handshake := .done }]

/-- The iterations in which the tunnel is registered and configured, and then serves a request. -/
def sampleServe : List Oracle :=
  [{ sampleReady with
      reads := [.bytes [.request ⟨1, .control, [], false⟩, .data 1 sampleBootstrap false,
        .data 1 sampleRegistered false, .request ⟨3, .config, [], false⟩, .data 3 [32] false,
        .data 3 [] true] true]
      parse := fun _ => .ok sampleUpdate },
    { sampleReady with
      reads := [.bytes [.request ⟨5, .http, [⟨text ":authority", text "a.b"⟩], true⟩] true] }]

/-- The tunnel after some iterations of its first task. -/
def sampleWorld (os : List Oracle) : World :=
  ((({ t := (tunnelInit sampleSetup).getD { service := [], options := ⟨zeros, [], [], [], 0, 0, false, 0⟩ } } :
    World).start).run os)

theorem sampleWorld_reach (os : List Oracle) : Reach sampleSetup (sampleWorld os) :=
  Reach.run (.start (.init rfl) rfl) os

/-- A connection that the edge closes: the task is in backoff and holds nothing. -/
theorem handles_follow_state_backoff :
    let w := sampleWorld (sampleConnect ++ [{ sampleReady with reads := [.ended 0] }])
    w.running = true ∧ w.t.life.state = .backoff ∧ Consistent w.t := by
  intro w
  have hrunning : w.running = true := by decide +kernel
  exact ⟨hrunning, by decide +kernel, (handles_follow_state (sampleWorld_reach _)).1 hrunning⟩

/-- Application traffic gate: whatever has happened, the application is asked about a request only if
it is permitted. -/
theorem application_gate {s : Setup} {w : World} (h : Reach s w) {later before : List Note}
    {t : Tunnel} {r : H2.Request} (hrequest : w.history = later ++ .request t r :: before) :
    Permitted s.service t r before := by
  have hsound := h.inv.sound
  rw [hrequest] at hsound
  exact hsound.split

/-- The application is asked. -/
def Note.asks : Note → Bool
  | .request _ _ => true
  | _ => false

/-- A run in which the application is asked about a request. -/
theorem application_gate_online :
    ∃ w t r later before, Reach sampleSetup w ∧ w.history = later ++ .request t r :: before ∧
      Permitted sampleSetup.service t r before := by
  have hreach := sampleWorld_reach (sampleConnect ++ sampleServe)
  have hasks : (sampleWorld (sampleConnect ++ sampleServe)).history.any Note.asks = true := by
    decide +kernel
  obtain ⟨n, hmem, hn⟩ := List.any_eq_true.1 hasks
  obtain ⟨later, before, heq⟩ := List.append_of_mem hmem
  cases n with
  | request t r => exact ⟨_, t, r, later, before, hreach, heq, application_gate hreach heq⟩
  | _ => cases hn

end EspCfTunnel.Task
