import EspCfTunnel.Lifecycle

/-!
# Runs of the lifecycle reducer

Any sequence of calls, in any order and with any arguments. `Moves` says once what a call can do;
the invariant of the reachable states and what has happened before a tunnel is online are read off
from it.
-/

namespace EspCfTunnel.Lifecycle

open EspCfTunnel

/-- A call. -/
inductive Op
  | start
  | environment (network timeValid : Bool)
  | advance (code : Nat)
  | retry (now hint random : Nat)
  | tick (now : Nat)
  | stop
  deriving DecidableEq, Repr

/-- What a call leaves; one that returns nothing succeeds. -/
def Op.run (op : Op) (l : Life) : Life × Result :=
  match op with
  | .start => lifecycleStart l
  | .environment network timeValid => (lifecycleEnvironment l network timeValid, .ok)
  | .advance code => advanceCode l code
  | .retry now hint random => lifecycleRetry l now hint random
  | .tick now => (lifecycleTick l now, .ok)
  | .stop => (lifecycleStop l, .ok)

/-- A call with the lifecycle before and after it. -/
structure Entry where
  op : Op
  before : Life
  after : Life
  result : Result

/-- Runs from `cf_lifecycle_init`, with their calls, the last one first. -/
inductive Run : List Entry → Life → Prop
  | init : Run [] lifecycleInit
  | call {log : List Entry} {l : Life} (op : Op) :
      Run log l → Run (⟨op, l, (op.run l).1, (op.run l).2⟩ :: log) (op.run l).1

/-! ## What a call can do -/

/-- What a call can do to a lifecycle. -/
inductive Moves (l : Life) : Op → Life → Result → Prop
  | refused {op : Op} {rc : Result} : (∀ network timeValid, op ≠ .environment network timeValid) →
      rc ≠ .ok → Moves l op l rc
  | start : l.state = .stopped → Moves l .start
      { l with registered := false, configured := false, failures := 0, retryAtMs := 0
               state := waiting l } .ok
  | reported {network timeValid : Bool} :
      terminal l.state = true ∨ network = true ∧ timeValid = true ∧ l.state ≠ .waitNetwork ∧
        l.state ≠ .waitTime →
      Moves l (.environment network timeValid)
        { l with networkReady := network, timeReady := timeValid } .ok
  | lost {network timeValid : Bool} {s : State} : terminal l.state = false →
      network = false ∨ timeValid = false →
      s = (if l.state ≠ .backoff then if !network then .waitNetwork else .waitTime else .backoff) →
      Moves l (.environment network timeValid)
        { l with networkReady := network, timeReady := timeValid
                 registered := false, configured := false, state := s } .ok
  | found : l.state = .waitNetwork ∨ l.state = .waitTime → Moves l (.environment true true)
      { l with networkReady := true, timeReady := true, state := .discovery } .ok
  | advance {code : Nat} {e : Event} {l' : Life} : Event.ofCode code = some e →
      l.networkReady = true → l.timeReady = true → terminal l.state = false → Advances l e l' →
      Moves l (.advance code) l' .ok
  | retry {now hint random retryAtMs failures : Nat} : terminal l.state = false →
      l.state ≠ .backoff →
      Moves l (.retry now hint random)
        { l with retryAtMs, failures, registered := false, configured := false, state := .backoff } .ok
  | wait {now : Nat} : l.state ≠ .backoff ∨ now < l.retryAtMs → Moves l (.tick now) l .ok
  | wake {now : Nat} : l.state = .backoff → l.retryAtMs ≤ now →
      Moves l (.tick now) { l with state := waiting l } .ok
  | stop : Moves l .stop (lifecycleStop l) .ok

theorem environment_moves (l : Life) (network timeValid : Bool) :
    Moves l (.environment network timeValid) (lifecycleEnvironment l network timeValid) .ok := by
  unfold lifecycleEnvironment
  dsimp only
  split
  · next hterminal => exact .reported (Or.inl hterminal)
  next hopen =>
  have hopen : terminal l.state = false := by simpa using hopen
  split
  · next hlost =>
    have hlost : network = false ∨ timeValid = false := by simpa using hlost
    refine .lost hopen hlost ?_
    by_cases hs : l.state = .backoff
    · simp [hs]
    · rcases hlost with rfl | rfl
      · simp [hs, waiting]
      · cases network <;> simp [hs, waiting]
  next hready =>
  have hready : network = true ∧ timeValid = true := by simpa using hready
  obtain ⟨rfl, rfl⟩ := hready
  split
  · next hwait => exact .found hwait
  · next hwait => exact .reported (Or.inr ⟨rfl, rfl, not_or.1 hwait⟩)

theorem advanceCode_moves (l : Life) (code : Nat) :
    Moves l (.advance code) (advanceCode l code).1 (advanceCode l code).2 := by
  have hrefused : ∀ rc : Result, rc ≠ .ok → Moves l (.advance code) l rc :=
    fun rc hrc => .refused nofun hrc
  unfold advanceCode
  cases hcode : Event.ofCode code with
  | none =>
    dsimp only
    split
    · exact hrefused _ nofun
    · exact hrefused _ nofun
  | some e =>
    dsimp only
    rcases lifecycleAdvance_cases l e with heq | ⟨hopen, hnetwork, htime, l', heq, ha⟩
    · rw [heq]
      exact hrefused _ nofun
    · rw [heq]
      exact .advance hcode hnetwork htime hopen ha

theorem Op.moves (op : Op) (l : Life) : Moves l op (op.run l).1 (op.run l).2 := by
  cases op with
  | start =>
    unfold Op.run lifecycleStart
    dsimp only
    split
    · exact .refused nofun nofun
    · next hs => exact .start (not_not.1 hs)
  | environment network timeValid => exact environment_moves l network timeValid
  | advance code => exact advanceCode_moves l code
  | retry now hint random =>
    unfold Op.run lifecycleRetry
    dsimp only
    split
    · exact .refused nofun nofun
    · next hs =>
      obtain ⟨hopen, hs⟩ := not_or.1 hs
      exact .retry (by simpa using hopen) (not_or.1 hs).1
  | tick now =>
    unfold Op.run lifecycleTick
    dsimp only
    split
    · next h => exact .wake h.1 h.2
    · next h =>
      refine .wait ?_
      by_cases hs : l.state = .backoff
      · exact Or.inr (Nat.not_le.1 fun hle => h ⟨hs, hle⟩)
      · exact Or.inl hs
  | stop => exact .stop

/-! ## Reachable states -/

/-- The states of an attempt and of a connection. -/
def active (s : State) : Bool :=
  s = .discovery ∨ s = .connect ∨ s = .tls ∨ s = .http2 ∨ negotiating s

/-- What holds of every lifecycle that can be reached. -/
structure Good (l : Life) : Prop where
  online : l.registered = true ∧ l.configured = true ↔ l.state = .online
  flags : l.registered = true ∨ l.configured = true → negotiating l.state = true
  ready : active l.state = true → l.networkReady = true ∧ l.timeReady = true
  waitNetwork : l.state = .waitNetwork → l.networkReady = false
  waitTime : l.state = .waitTime → l.networkReady = true ∧ l.timeReady = false
  waitConfig : l.state = .waitConfig → l.registered = true
  configFailed : l.state = .configFailed → l.configured = false

theorem waiting_cases (l : Life) :
    (waiting l = .waitNetwork ∧ l.networkReady = false) ∨
      (waiting l = .waitTime ∧ l.networkReady = true ∧ l.timeReady = false) ∨
      (waiting l = .discovery ∧ l.networkReady = true ∧ l.timeReady = true) := by
  unfold waiting
  cases l.networkReady <;> cases l.timeReady <;> simp

/-- A lifecycle without flags in a state that is none of a registration. -/
theorem Good.of_unflagged {l : Life} (hregistered : l.registered = false)
    (hconfigured : l.configured = false) (hstate : negotiating l.state = false)
    (hready : active l.state = true → l.networkReady = true ∧ l.timeReady = true)
    (hnetwork : l.state = .waitNetwork → l.networkReady = false)
    (htime : l.state = .waitTime → l.networkReady = true ∧ l.timeReady = false) : Good l := by
  have hno : ∀ s, negotiating s = true → l.state ≠ s := by
    rintro s hs rfl
    rw [hs] at hstate
    cases hstate
  refine ⟨?_, ?_, hready, hnetwork, htime, fun hs => ?_, fun _ => hconfigured⟩
  · simp [hregistered, hno .online rfl]
  · simp [hregistered, hconfigured]
  · exact absurd hs (hno _ rfl)

theorem Good.waiting {l : Life} (hregistered : l.registered = false)
    (hconfigured : l.configured = false) (hstate : l.state = waiting l) : Good l := by
  rcases waiting_cases l with ⟨hs, hn⟩ | ⟨hs, hn, ht⟩ | ⟨hs, hn, ht⟩
  all_goals
    rw [hs] at hstate
    refine .of_unflagged hregistered hconfigured (by rw [hstate]; rfl) ?_ ?_ ?_
    all_goals
      rw [hstate]
      simp_all [active, negotiating]

/-- Outside a registration no flag is set. -/
theorem Good.unflagged {l : Life} (h : Good l) (hstate : negotiating l.state = false) :
    l.registered = false ∧ l.configured = false := by
  constructor
  · by_contra hr
    rw [h.flags (Or.inl (by simpa using hr))] at hstate
    cases hstate
  · by_contra hc
    rw [h.flags (Or.inr (by simpa using hc))] at hstate
    cases hstate

theorem Good.advances {l l' : Life} {e : Event} (h : Good l) (hnetwork : l.networkReady = true)
    (htime : l.timeReady = true) (ha : Advances l e l') : Good l' := by
  cases ha with
  | discovered hs | connected hs | tlsReady hs =>
    obtain ⟨hr, hc⟩ := h.unflagged (by rw [hs]; rfl)
    exact .of_unflagged hr hc rfl (fun _ => ⟨hnetwork, htime⟩) nofun nofun
  | authRejected hs => exact .of_unflagged rfl rfl rfl nofun nofun nofun
  | http2Ready hs =>
    obtain ⟨hr, hc⟩ := h.unflagged (by rw [hs]; rfl)
    refine ⟨?_, fun _ => rfl, fun _ => ⟨hnetwork, htime⟩, nofun, nofun, nofun, nofun⟩
    simp [hr]
  | online hs hc =>
    exact ⟨by simp [hc], fun _ => rfl, fun _ => ⟨hnetwork, htime⟩, nofun, nofun, nofun, nofun⟩
  | waitConfig hs hc =>
    exact ⟨by simp [hc], fun _ => rfl, fun _ => ⟨hnetwork, htime⟩, nofun, nofun, fun _ => rfl, nofun⟩
  | configFailed hs hc =>
    refine ⟨by simp [hc, hs], fun _ => by rw [hs]; rfl, fun _ => ⟨hnetwork, htime⟩, ?_, ?_, fun _ => rfl,
      fun _ => hc⟩
    · simp [hs]
    · simp [hs]
  | applied hs =>
    cases hr : l.registered with
    | true =>
      exact ⟨by simp, fun _ => rfl, fun _ => ⟨hnetwork, htime⟩, nofun, nofun, nofun, nofun⟩
    | false =>
      exact ⟨by simp, fun _ => rfl, fun _ => ⟨hnetwork, htime⟩, nofun, nofun, nofun, nofun⟩
  | rejected hs hc =>
    exact ⟨by simp [hc], fun _ => rfl, fun _ => ⟨hnetwork, htime⟩, nofun, nofun, nofun, fun _ => hc⟩
  | kept hs hc => exact h

theorem Good.moves {l l' : Life} {op : Op} {rc : Result} (h : Good l) (hm : Moves l op l' rc) :
    Good l' := by
  cases hm with
  | refused _ _ => exact h
  | start hs => exact .waiting rfl rfl rfl
  | reported hkeep =>
    rcases hkeep with hterminal | ⟨hn, ht, hnetwork, htime⟩
    · have hs : l.state = .stopped ∨ l.state = .stopping ∨ l.state = .authFailed := by
        simpa [terminal] using hterminal
      obtain ⟨hr, hc⟩ := h.unflagged (by rcases hs with hs | hs | hs <;> rw [hs] <;> rfl)
      refine .of_unflagged hr hc ?_ ?_ ?_ ?_
      all_goals rcases hs with hs | hs | hs <;> simp [hs, active, negotiating]
    · exact { h with
        ready := fun _ => ⟨hn, ht⟩
        waitNetwork := fun hs => absurd hs hnetwork
        waitTime := fun hs => absurd hs htime }
  | @lost network timeValid s hopen hlost hs =>
    have hcases : (s = .backoff) ∨ (s = .waitNetwork ∧ network = false) ∨
        (s = .waitTime ∧ network = true ∧ timeValid = false) := by
      rw [hs]
      by_cases hb : l.state = .backoff
      · simp [hb]
      · cases network <;> cases timeValid <;> simp_all
    rcases hcases with rfl | ⟨rfl, hn⟩ | ⟨rfl, hn, ht⟩
    · exact .of_unflagged rfl rfl rfl nofun nofun nofun
    · exact .of_unflagged rfl rfl rfl nofun (fun _ => hn) nofun
    · exact .of_unflagged rfl rfl rfl nofun nofun fun _ => ⟨hn, ht⟩
  | found hs =>
    obtain ⟨hr, hc⟩ := h.unflagged (by rcases hs with hs | hs <;> rw [hs] <;> rfl)
    exact .of_unflagged hr hc rfl (fun _ => ⟨rfl, rfl⟩) nofun nofun
  | advance _ hn ht _ ha => exact h.advances hn ht ha
  | retry _ _ => exact .of_unflagged rfl rfl rfl nofun nofun nofun
  | wait _ => exact h
  | wake hs _ =>
    obtain ⟨hr, hc⟩ := h.unflagged (by rw [hs]; rfl)
    exact .waiting hr hc rfl
  | stop => exact .of_unflagged rfl rfl rfl nofun nofun nofun

/-! ## History -/

/-- A call that enters a state. -/
def Entry.enters (e : Entry) (s : State) : Bool := e.before.state ≠ s ∧ e.after.state = s

/-- The calls since discovery was entered for the last time. -/
def sinceDiscovery (log : List Entry) : List Entry := log.takeWhile fun e => !e.enters .discovery

/-- The event has been taken since discovery was entered for the last time. -/
def Happened (e : Event) (log : List Entry) : Prop :=
  ∃ entry ∈ sinceDiscovery log, ∃ code, entry.op = .advance code ∧ Event.ofCode code = some e ∧
    entry.result = .ok

/-- Discovery has been entered. -/
def Discovered (log : List Entry) : Prop := ∃ e ∈ log, e.enters .discovery = true

/-- The events behind a state: a connection goes through its states in order. -/
def behind : State → List Event
  | .connect => [.discovered]
  | .tls => [.discovered, .connected]
  | .http2 => [.discovered, .connected, .tlsReady]
  | .registering | .waitConfig | .online | .configFailed =>
    [.discovered, .connected, .tlsReady, .http2Ready]
  | _ => []

/-- What the calls so far say about a lifecycle. -/
structure Told (log : List Entry) (l : Life) : Prop where
  discovered : active l.state = true → Discovered log
  state : ∀ e ∈ behind l.state, Happened e log
  registered : l.registered = true → Happened .registered log
  configured : l.configured = true → Happened .configApplied log

theorem Happened.cons {e : Event} {log : List Entry} (h : Happened e log) {entry : Entry}
    (hentry : entry.enters .discovery = false) : Happened e (entry :: log) := by
  obtain ⟨old, hmem, hold⟩ := h
  refine ⟨old, ?_, hold⟩
  rw [sinceDiscovery, List.takeWhile_cons_of_pos (by simp [hentry])]
  exact List.mem_cons_of_mem _ hmem

theorem Discovered.cons {log : List Entry} (h : Discovered log) (entry : Entry) :
    Discovered (entry :: log) := by
  obtain ⟨e, hmem, he⟩ := h
  exact ⟨e, List.mem_cons_of_mem _ hmem, he⟩

section
variable {log : List Entry} {l l' : Life} {op : Op} {rc : Result}

theorem Told.keep (h : Told log l) {entry : Entry} (hentry : entry.enters .discovery = false) :
    Told (entry :: log) l :=
  ⟨fun hs => (h.discovered hs).cons entry, fun e he => (h.state e he).cons hentry,
    fun hr => (h.registered hr).cons hentry, fun hc => (h.configured hc).cons hentry⟩

/-- Nothing is behind a lifecycle that waits or has stopped. -/
theorem Told.of_idle (hregistered : l.registered = false) (hconfigured : l.configured = false)
    (hstate : behind l.state = []) (hdiscovered : active l.state = true → Discovered log) :
    Told log l := by
  refine ⟨hdiscovered, ?_, ?_, ?_⟩
  · rw [hstate]
    nofun
  · rw [hregistered]
    nofun
  · rw [hconfigured]
    nofun

/-- An event that is taken now has happened. -/
theorem happened_now {code : Nat} {e : Event} (hcode : Event.ofCode code = some e)
    (hstate : l'.state ≠ .discovery) : Happened e (⟨.advance code, l, l', .ok⟩ :: log) := by
  refine ⟨⟨.advance code, l, l', .ok⟩, ?_, code, rfl, hcode, rfl⟩
  rw [sinceDiscovery, List.takeWhile_cons_of_pos (by simp [Entry.enters, hstate])]
  exact List.mem_cons_self

/-- A call that leads to where a tunnel waits or looks for an edge. -/
theorem Told.waiting (hregistered : l'.registered = false) (hconfigured : l'.configured = false)
    (hstate : l'.state = .waitNetwork ∨ l'.state = .waitTime ∨ l'.state = .discovery)
    (hbefore : l.state ≠ .discovery) : Told (⟨op, l, l', rc⟩ :: log) l' := by
  refine .of_idle hregistered hconfigured ?_ fun hactive => ⟨_, List.mem_cons_self, ?_⟩
  · rcases hstate with hs | hs | hs <;> rw [hs] <;> rfl
  · rcases hstate with hs | hs | hs
    · rw [hs] at hactive
      cases hactive
    · rw [hs] at hactive
      cases hactive
    · simp [Entry.enters, hbefore, hs]

omit log in
theorem behind_negotiating {s : State} (h : negotiating s = true) :
    behind s = [.discovered, .connected, .tlsReady, .http2Ready] := by
  cases s <;> first | rfl | cases h

/-- What an event that is taken adds to what is behind the lifecycle. -/
theorem Advances.adds {e : Event} (ha : Advances l e l') :
    (active l.state = true ∧ l'.state ≠ .discovery) ∧
      (∀ ev ∈ behind l'.state, ev = e ∨ ev ∈ behind l.state) ∧
      (l'.registered = true → e = .registered ∨ l.registered = true) ∧
      (l'.configured = true → e = .configApplied ∨ l.configured = true) := by
  cases ha with
  | discovered hs | connected hs | tlsReady hs | http2Ready hs =>
    refine ⟨⟨by rw [hs]; rfl, nofun⟩, ?_, Or.inr, Or.inr⟩
    simp [behind, hs]
  | online hs _ =>
    have hn : negotiating l.state = true := by rcases hs with hs | hs <;> rw [hs] <;> rfl
    refine ⟨⟨by simp [active, hn], nofun⟩, ?_, fun _ => Or.inl rfl, Or.inr⟩
    rw [behind_negotiating hn]
    exact fun _ => Or.inr
  | waitConfig hs _ =>
    refine ⟨⟨by rw [hs]; rfl, nofun⟩, ?_, fun _ => Or.inl rfl, Or.inr⟩
    rw [hs]
    exact fun _ => Or.inr
  | configFailed hs _ =>
    exact ⟨⟨by rw [hs]; rfl, by rw [hs]; nofun⟩, fun _ => Or.inr, fun _ => Or.inl rfl, Or.inr⟩
  | applied hs =>
    refine ⟨⟨by simp [active, hs], ?_⟩, ?_, Or.inr, fun _ => Or.inl rfl⟩
    · dsimp only
      split <;> nofun
    · rw [behind_negotiating hs]
      dsimp only
      split <;> exact fun _ => Or.inr
  | authRejected hs => exact ⟨⟨by simp [active, hs], nofun⟩, nofun, nofun, nofun⟩
  | rejected hs _ =>
    refine ⟨⟨by simp [active, hs], nofun⟩, ?_, Or.inr, Or.inr⟩
    rw [behind_negotiating hs]
    exact fun _ => Or.inr
  | kept hs _ =>
    refine ⟨⟨by simp [active, hs], fun hd => ?_⟩, fun _ => Or.inr, Or.inr, Or.inr⟩
    rw [hd] at hs
    cases hs

theorem Told.advances (h : Told log l) {code : Nat} {e : Event} (hcode : Event.ofCode code = some e)
    (ha : Advances l e l') : Told (⟨.advance code, l, l', .ok⟩ :: log) l' := by
  obtain ⟨⟨hactive, hstate⟩, hbehind, hregistered, hconfigured⟩ := ha.adds
  have hkeep : Told (⟨.advance code, l, l', .ok⟩ :: log) l :=
    h.keep (by simp [Entry.enters, hstate])
  have hnow : Happened e (⟨.advance code, l, l', .ok⟩ :: log) := happened_now hcode hstate
  refine ⟨fun _ => hkeep.discovered hactive, fun ev hev => ?_, fun hr => ?_, fun hc => ?_⟩
  · rcases hbehind ev hev with rfl | hold
    · exact hnow
    · exact hkeep.state ev hold
  · rcases hregistered hr with rfl | hold
    · exact hnow
    · exact hkeep.registered hold
  · rcases hconfigured hc with rfl | hold
    · exact hnow
    · exact hkeep.configured hold

theorem Told.moves (h : Told log l) (hgood : Good l) (hm : Moves l op l' rc) :
    Told (⟨op, l, l', rc⟩ :: log) l' := by
  cases hm with
  | refused _ _ => exact h.keep (by simp [Entry.enters])
  | wait _ => exact h.keep (by simp [Entry.enters])
  | start hs =>
    refine .waiting rfl rfl ?_ (by simp [hs])
    rcases waiting_cases l with ⟨hw, -⟩ | ⟨hw, -⟩ | ⟨hw, -⟩ <;> simp [hw]
  | wake hs _ =>
    obtain ⟨hr, hc⟩ := hgood.unflagged (by rw [hs]; rfl)
    refine .waiting hr hc ?_ (by simp [hs])
    rcases waiting_cases l with ⟨hw, -⟩ | ⟨hw, -⟩ | ⟨hw, -⟩ <;> simp [hw]
  | found hs =>
    obtain ⟨hr, hc⟩ := hgood.unflagged (by rcases hs with hs | hs <;> rw [hs] <;> rfl)
    exact .waiting hr hc (Or.inr (Or.inr rfl)) (by rcases hs with hs | hs <;> rw [hs] <;> decide)
  | reported hkeep => exact { h.keep (by simp [Entry.enters]) with }
  | @lost network timeValid s hopen hlost hs =>
    have hcases : s = .backoff ∨ s = .waitNetwork ∨ s = .waitTime := by
      rw [hs]
      split
      · split <;> simp
      · simp
    refine .of_idle rfl rfl ?_ fun hactive => ?_
    · rcases hcases with rfl | rfl | rfl <;> rfl
    · rcases hcases with rfl | rfl | rfl <;> cases hactive
  | advance hcode _ _ _ ha => exact h.advances hcode ha
  | retry _ _ => exact .of_idle rfl rfl rfl nofun
  | stop => exact .of_idle rfl rfl rfl nofun

end

theorem Run.good {log : List Entry} {l : Life} (h : Run log l) : Good l ∧ Told log l := by
  induction h with
  | init => exact ⟨.of_unflagged rfl rfl rfl nofun nofun nofun, .of_idle rfl rfl rfl nofun⟩
  | call op _ ih => exact ⟨ih.1.moves (op.moves _), ih.2.moves ih.1 (op.moves _)⟩

/-- What holds of every call of a run, with the calls before it. -/
structure Entry.Sound (before : List Entry) (e : Entry) : Prop where
  final : e.before.state = .authFailed → e.after.state ≠ .authFailed → e.op = .stop
  unchanged : e.result = .state ∨ e.result = .argument → e.after = e.before
  online : e.enters .online = true → Discovered (e :: before) ∧
    ∀ ev ∈ [Event.discovered, .connected, .tlsReady, .http2Ready, .registered, .configApplied],
      Happened ev (e :: before)

theorem Moves.final {l l' : Life} {op : Op} {rc : Result} (hm : Moves l op l' rc)
    (hs : l.state = .authFailed) (hs' : l'.state ≠ .authFailed) : op = .stop := by
  cases hm with
  | stop => rfl
  | refused _ _ | reported _ | wait _ => exact absurd hs hs'
  | start h | wake h _ =>
    rw [h] at hs
    cases hs
  | found h =>
    rw [hs] at h
    simp at h
  | lost hopen _ _ | retry hopen _ =>
    rw [hs] at hopen
    cases hopen
  | advance _ _ _ hopen _ =>
    rw [hs] at hopen
    cases hopen

theorem Moves.unchanged {l l' : Life} {op : Op} {rc : Result} (hm : Moves l op l' rc)
    (hrc : rc = .state ∨ rc = .argument) : l' = l := by
  cases hm with
  | refused _ _ => rfl
  | _ => simp at hrc

theorem Run.sound {log : List Entry} {l : Life} (h : Run log l) {later before : List Entry}
    {e : Entry} (hlog : log = later ++ e :: before) : e.Sound before := by
  induction h generalizing later with
  | init => simp at hlog
  | @call log l op hrun ih =>
    cases later with
    | cons _ later => exact ih (List.cons.inj hlog).2
    | nil =>
      obtain ⟨rfl, rfl⟩ := List.cons.inj hlog
      have hm := op.moves l
      refine ⟨hm.final, hm.unchanged, fun honline => ?_⟩
      obtain ⟨hgood, htold⟩ := (Run.call op hrun).good
      have hs : (op.run l).1.state = .online := by
        simp only [Entry.enters, decide_eq_true_eq] at honline
        exact honline.2
      obtain ⟨hr, hc⟩ := hgood.online.2 hs
      refine ⟨htold.discovered (by rw [hs]; rfl), ?_⟩
      have hstate := htold.state
      rw [hs] at hstate
      simpa [behind, htold.registered hr, htold.configured hc] using hstate

/-- Every state that a run reaches is good, and every call of it is sound. -/
theorem lifecycle_invariant {log : List Entry} {l : Life} (h : Run log l) :
    Good l ∧ ∀ later e before, log = later ++ e :: before → e.Sound before :=
  ⟨h.good.1, fun _ _ _ hlog => h.sound hlog⟩

/-- The calls of a tunnel that comes online, with a configuration before the registration. -/
theorem lifecycle_invariant_online : ∃ log l, Run log l ∧ l.state = .online ∧ Good l ∧
    ∀ later e before, log = later ++ e :: before → e.Sound before := by
  have hfound := Run.call (.environment true true) (Run.call .start .init)
  have hlinked := Run.call (.advance 2) (Run.call (.advance 1) (Run.call (.advance 0) hfound))
  have hready := Run.call (.advance 3) hlinked
  have honline := Run.call (.advance 4) (Run.call (.advance 5) hready)
  exact ⟨_, _, honline, rfl, lifecycle_invariant honline⟩

/-! ## Waiting out a retry -/

/-- The largest delay that `cf_lifecycle_retry` chooses by itself. -/
def retryCeiling (failures : Nat) : Nat := min 60000 (1000 * 2 ^ min failures 6)

theorem retryDelay_bounds (failures hint random : Nat) :
    hint ≤ retryDelay failures hint random ∧
      retryCeiling failures / 2 ≤ retryDelay failures hint random ∧
      retryDelay failures hint random ≤ max (retryCeiling failures) hint := by
  have heq : retryDelay failures hint random = max (retryCeiling failures / 2 +
      random % (retryCeiling failures / 2 + 1)) hint := by
    unfold retryDelay retryCeiling
    rw [min_comm 60000]
  rw [heq]
  generalize retryCeiling failures = ceiling
  have hmod : random % (ceiling / 2 + 1) < ceiling / 2 + 1 := Nat.mod_lt _ (Nat.succ_pos _)
  refine ⟨le_max_right _ _, le_max_of_le_left (Nat.le_add_right _ _), max_le ?_ (le_max_right _ _)⟩
  refine le_max_of_le_left ?_
  omega

/-- A retry that succeeds waits for its delay, up to the end of the clock. -/
theorem lifecycleRetry_ok {l l' : Life} {now hint random : Nat} (hhint : hint ≤ 2 ^ 32 - 1)
    (h : lifecycleRetry l now hint random = (l', .ok)) :
    l'.state = .backoff ∧ ∃ delay, l'.retryAtMs = min (2 ^ 64 - 1) (now + delay) ∧ hint ≤ delay ∧
      retryCeiling l.failures / 2 ≤ delay ∧ delay ≤ max (retryCeiling l.failures) hint := by
  unfold lifecycleRetry at h
  split at h
  · cases h
  dsimp only at h
  obtain ⟨hleast, hjitter, hmost⟩ := retryDelay_bounds l.failures hint random
  have hceiling : retryCeiling l.failures ≤ 60000 := min_le_left _ _
  generalize retryDelay l.failures hint random = delay at h hleast hjitter hmost
  obtain rfl := (congrArg Prod.fst h).symm
  refine ⟨rfl, delay, ?_, hleast, hjitter, hmost⟩
  have hdelay : delay ≤ 2 ^ 64 - 1 := hmost.trans (max_le (by omega) (by omega))
  dsimp only
  split
  · rw [min_eq_left (by omega)]
  · rw [min_eq_right (by omega)]

/-- Several calls. -/
def runOps : List Op → Life → Life
  | [], l => l
  | op :: rest, l => runOps rest (op.run l).1

/-- The last report of network and clock, after an earlier one. -/
def lastReport : List Op → Bool × Bool → Bool × Bool
  | [], report => report
  | .environment network timeValid :: rest, _ => lastReport rest (network, timeValid)
  | _ :: rest, report => lastReport rest report

/-- Where a tunnel goes on with what is reported. -/
def resume (report : Bool × Bool) : State :=
  if !report.1 then .waitNetwork else if !report.2 then .waitTime else .discovery

/-- A call that does not end the backoff that lasts until `until_`. -/
def Op.patient (until_ : Nat) : Op → Prop
  | .stop => False
  | .tick now => now < until_
  | _ => True

/-- One call in a backoff: the backoff stays, and a report is kept. -/
theorem Moves.patient {l l' : Life} {op : Op} {rc : Result} (hm : Moves l op l' rc)
    (hs : l.state = .backoff) (hop : op.patient l.retryAtMs) :
    l'.state = .backoff ∧ l'.retryAtMs = l.retryAtMs ∧
      (l'.networkReady, l'.timeReady) = lastReport [op] (l.networkReady, l.timeReady) := by
  cases hm with
  | refused hno _ =>
    refine ⟨hs, rfl, ?_⟩
    cases op with
    | environment network timeValid => exact absurd rfl (hno network timeValid)
    | _ => rfl
  | reported _ => exact ⟨hs, rfl, rfl⟩
  | lost _ _ hstate => exact ⟨by simp [hstate, hs], rfl, rfl⟩
  | wait _ => exact ⟨hs, rfl, rfl⟩
  | start h =>
    rw [h] at hs
    cases hs
  | found h =>
    rw [hs] at h
    simp at h
  | advance _ _ _ _ ha =>
    have hactive := ha.adds.1.1
    rw [hs] at hactive
    cases hactive
  | retry _ h => exact absurd hs h
  | wake _ hlate => exact absurd hop (Nat.not_lt.2 hlate)
  | stop => exact hop.elim

theorem lastReport_cons (op : Op) (rest : List Op) (report : Bool × Bool) :
    lastReport (op :: rest) report = lastReport rest (lastReport [op] report) := by
  cases op <;> rfl

/-- A backoff lasts, whatever is called, until a tick at its end or a stop. -/
theorem backoff_lasts {l : Life} (hs : l.state = .backoff) {ops : List Op}
    (hops : ∀ op ∈ ops, op.patient l.retryAtMs) :
    (runOps ops l).state = .backoff ∧ (runOps ops l).retryAtMs = l.retryAtMs ∧
      ((runOps ops l).networkReady, (runOps ops l).timeReady) =
        lastReport ops (l.networkReady, l.timeReady) := by
  induction ops generalizing l with
  | nil => exact ⟨hs, rfl, rfl⟩
  | cons op rest ih =>
    obtain ⟨hstate, huntil, hreport⟩ := (op.moves l).patient hs (hops op List.mem_cons_self)
    have hrest : ∀ op' ∈ rest, op'.patient (op.run l).1.retryAtMs := by
      intro op' hmem
      rw [huntil]
      exact hops op' (List.mem_cons_of_mem _ hmem)
    obtain ⟨hstate', huntil', hreport'⟩ := ih hstate hrest
    refine ⟨hstate', huntil'.trans huntil, ?_⟩
    rw [lastReport_cons, ← hreport]
    exact hreport'

/-- A tick at the end of a backoff goes on with what is reported. -/
theorem tick_resumes {l : Life} (hs : l.state = .backoff) {now : Nat} (hnow : l.retryAtMs ≤ now) :
    (lifecycleTick l now).state = resume (l.networkReady, l.timeReady) := by
  rw [lifecycleTick, if_pos ⟨hs, hnow⟩]
  rfl

end EspCfTunnel.Lifecycle
