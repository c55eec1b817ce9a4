import EspCfTunnel.Core

/-!
# The lifecycle reducer

`cf_lifecycle.c`: a pure reducer over the states of a tunnel, with no task, socket or timer. A call
returns the new `cf_lifecycle` and a result; null pointers are not modelled.
-/

namespace EspCfTunnel.Lifecycle

open EspCfTunnel

/-- `cf_state`. -/
inductive State
  | stopped | waitNetwork | waitTime | discovery | connect | tls | http2 | registering | waitConfig
  | online | backoff | authFailed | configFailed | stopping
  deriving DecidableEq, Repr

/-- `cf_lifecycle_event`. -/
inductive Event
  | discovered | connected | tlsReady | http2Ready | registered | configApplied | authRejected
  | configRejected
  deriving DecidableEq, Repr

/-- `cf_lifecycle`. -/
structure Life where
  state : State := .stopped
  networkReady : Bool := false
  timeReady : Bool := false
  registered : Bool := false
  configured : Bool := false
  failures : Nat := 0
  retryAtMs : Nat := 0
  deriving DecidableEq, Repr

/-- `waiting`. -/
def waiting (l : Life) : State :=
  if !l.networkReady then .waitNetwork else if !l.timeReady then .waitTime else .discovery

/-- `terminal`. -/
def terminal (s : State) : Bool := s = .stopped ∨ s = .stopping ∨ s = .authFailed

/-- `cf_lifecycle_init`. -/
def lifecycleInit : Life := {}

/-- `cf_lifecycle_start`. -/
def lifecycleStart (l : Life) : Life × Result :=
  if l.state ≠ .stopped then (l, .state)
  else ({ l with registered := false, configured := false, failures := 0, retryAtMs := 0
                 state := waiting l }, .ok)

/-- `cf_lifecycle_environment`. -/
def lifecycleEnvironment (l : Life) (network timeValid : Bool) : Life :=
  let l := { l with networkReady := network, timeReady := timeValid }
  if terminal l.state then l
  else if !network ∨ !timeValid then
    -- Keep an outstanding server retry deadline through network flaps.
    { l with registered := false, configured := false
             state := if l.state ≠ .backoff then waiting l else l.state }
  else if l.state = .waitNetwork ∨ l.state = .waitTime then { l with state := .discovery }
  else l

/-- The states from which the events of a registration are taken. -/
def negotiating (s : State) : Bool :=
  s = .registering ∨ s = .waitConfig ∨ s = .online ∨ s = .configFailed

/-- `cf_lifecycle_advance`. -/
def lifecycleAdvance (l : Life) (event : Event) : Life × Result :=
  if terminal l.state ∨ !l.networkReady ∨ !l.timeReady then (l, .state)
  else match event with
    | .discovered =>
      if l.state ≠ .discovery then (l, .state) else ({ l with state := .connect }, .ok)
    | .connected => if l.state ≠ .connect then (l, .state) else ({ l with state := .tls }, .ok)
    | .tlsReady => if l.state ≠ .tls then (l, .state) else ({ l with state := .http2 }, .ok)
    | .http2Ready =>
      if l.state ≠ .http2 then (l, .state) else ({ l with state := .registering }, .ok)
    | .registered =>
      if l.state ≠ .registering ∧ l.state ≠ .configFailed then (l, .state)
      else ({ l with registered := true
                     state := if l.configured then .online
                       else if l.state = .configFailed then .configFailed else .waitConfig }, .ok)
    | .configApplied =>
      if !negotiating l.state then (l, .state)
      else ({ l with configured := true
                     state := if l.registered then .online else .registering }, .ok)
    | .authRejected =>
      if !negotiating l.state then (l, .state)
      else ({ l with registered := false, configured := false, state := .authFailed }, .ok)
    | .configRejected =>
      if !negotiating l.state then (l, .state)
      -- A failed update does not revoke a previously valid config.
      else ({ l with state := if !l.configured then .configFailed else l.state }, .ok)

/-- The event of a number that is passed as `cf_lifecycle_event`. -/
def Event.ofCode : Nat → Option Event
  | 0 => some .discovered
  | 1 => some .connected
  | 2 => some .tlsReady
  | 3 => some .http2Ready
  | 4 => some .registered
  | 5 => some .configApplied
  | 6 => some .authRejected
  | 7 => some .configRejected
  | _ => none

/-- `cf_lifecycle_advance` on any number, its `default` included. -/
def advanceCode (l : Life) (code : Nat) : Life × Result :=
  match Event.ofCode code with
  | some event => lifecycleAdvance l event
  | none => if terminal l.state ∨ !l.networkReady ∨ !l.timeReady then (l, .state) else (l, .argument)

/-- The delay of `cf_lifecycle_retry`: equal jitter, and never less than the server's hint. -/
def retryDelay (failures hint random : Nat) : Nat :=
  let ceiling := min (1000 * 2 ^ min failures 6) 60000
  max (ceiling / 2 + random % (ceiling / 2 + 1)) hint

/-- `cf_lifecycle_retry`. -/
def lifecycleRetry (l : Life) (now hint random : Nat) : Life × Result :=
  if terminal l.state ∨ l.state = .backoff ∨ l.state = .waitNetwork ∨ l.state = .waitTime then
    (l, .state)
  else
    let delay := retryDelay l.failures hint random
    ({ l with
        retryAtMs := if now > 2 ^ 64 - 1 - delay then 2 ^ 64 - 1 else now + delay
        failures := if l.failures < 2 ^ 32 - 1 then l.failures + 1 else l.failures
        registered := false, configured := false, state := .backoff }, .ok)

/-- `cf_lifecycle_tick`. -/
def lifecycleTick (l : Life) (now : Nat) : Life :=
  if l.state = .backoff ∧ now ≥ l.retryAtMs then { l with state := waiting l } else l

/-- `cf_lifecycle_stop`. -/
def lifecycleStop (l : Life) : Life :=
  { l with registered := false, configured := false, state := .stopped, retryAtMs := 0 }

/-! ## What a call can do -/

/-- How an event that is taken changes the lifecycle. -/
inductive Advances (l : Life) : Event → Life → Prop
  | discovered : l.state = .discovery → Advances l .discovered { l with state := .connect }
  | connected : l.state = .connect → Advances l .connected { l with state := .tls }
  | tlsReady : l.state = .tls → Advances l .tlsReady { l with state := .http2 }
  | http2Ready : l.state = .http2 → Advances l .http2Ready { l with state := .registering }
  | online : l.state = .registering ∨ l.state = .configFailed → l.configured = true →
      Advances l .registered { l with registered := true, state := .online }
  | waitConfig : l.state = .registering → l.configured = false →
      Advances l .registered { l with registered := true, state := .waitConfig }
  | configFailed : l.state = .configFailed → l.configured = false →
      Advances l .registered { l with registered := true }
  | applied : negotiating l.state = true → Advances l .configApplied
      { l with configured := true, state := if l.registered then .online else .registering }
  | authRejected : negotiating l.state = true → Advances l .authRejected
      { l with registered := false, configured := false, state := .authFailed }
  | rejected : negotiating l.state = true → l.configured = false →
      Advances l .configRejected { l with state := .configFailed }
  | kept : negotiating l.state = true → l.configured = true → Advances l .configRejected l

/-- `cf_lifecycle_advance` refuses the event and changes nothing, or takes it. -/
theorem lifecycleAdvance_cases (l : Life) (e : Event) :
    lifecycleAdvance l e = (l, .state) ∨
      (terminal l.state = false ∧ l.networkReady = true ∧ l.timeReady = true ∧
        ∃ l', lifecycleAdvance l e = (l', .ok) ∧ Advances l e l') := by
  unfold lifecycleAdvance
  split
  · exact Or.inl rfl
  next hopen =>
  have hready : terminal l.state = false ∧ l.networkReady = true ∧ l.timeReady = true := by
    simpa using hopen
  cases e with
  | discovered | connected | tlsReady | http2Ready =>
    dsimp only
    split
    · exact Or.inl rfl
    next hstate =>
    refine Or.inr ⟨hready.1, hready.2.1, hready.2.2, _, rfl, ?_⟩
    constructor
    exact not_not.1 hstate
  | registered =>
    dsimp only
    split
    · exact Or.inl rfl
    next hstate =>
    have hstate : l.state = .registering ∨ l.state = .configFailed := by
      by_contra hno
      exact hstate (not_or.1 hno)
    refine Or.inr ⟨hready.1, hready.2.1, hready.2.2, ?_⟩
    by_cases hc : l.configured = true
    · exact ⟨_, by rw [if_pos hc], .online hstate hc⟩
    · have hfalse : l.configured = false := by simpa using hc
      rcases hstate with hs | hs
      · exact ⟨_, by rw [if_neg hc, if_neg (by rw [hs]; decide)], .waitConfig hs hfalse⟩
      · refine ⟨{ l with registered := true }, ?_, .configFailed hs hfalse⟩
        rw [if_neg hc, if_pos hs, ← hs]
  | configApplied | authRejected =>
    dsimp only
    split
    · exact Or.inl rfl
    next hstate =>
    refine Or.inr ⟨hready.1, hready.2.1, hready.2.2, _, rfl, ?_⟩
    constructor
    simpa using hstate
  | configRejected =>
    dsimp only
    split
    · exact Or.inl rfl
    next hstate =>
    have hstate : negotiating l.state = true := by simpa using hstate
    refine Or.inr ⟨hready.1, hready.2.1, hready.2.2, ?_⟩
    by_cases hc : l.configured = true
    · exact ⟨l, by rw [if_neg (by simp [hc])], .kept hstate hc⟩
    · exact ⟨_, by rw [if_pos (by simpa using hc)], .rejected hstate (by simpa using hc)⟩

/-- `cf_lifecycle_advance` takes an event of a state that it may come in. -/
theorem lifecycleAdvance_of_ready {l : Life} {e : Event} (hterminal : terminal l.state = false)
    (hnetwork : l.networkReady = true) (htime : l.timeReady = true) {l' : Life}
    (h : Advances l e l') : lifecycleAdvance l e = (l', .ok) := by
  unfold lifecycleAdvance
  rw [if_neg (by simp [hterminal, hnetwork, htime])]
  cases h with
  | discovered hs | connected hs | tlsReady hs | http2Ready hs => exact if_neg (not_not.2 hs)
  | online hs hc =>
    rcases hs with hs | hs <;> simp [hs, hc]
  | waitConfig hs hc => simp [hs, hc]
  | configFailed hs hc => simp [hs, hc]
  | applied hs | authRejected hs => simp [hs]
  | rejected hs hc => simp [hs, hc]
  | kept hs hc =>
    dsimp only
    rw [if_neg (by simp [hs]), if_neg (by simp [hc])]

end EspCfTunnel.Lifecycle
