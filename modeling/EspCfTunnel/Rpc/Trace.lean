import EspCfTunnel.Rpc.Receive

/-!
# The messages of a session

A run is any sequence of calls on one `cf_rpc`, with any frames received. Its log keeps, for each
call, the messages found in the output buffer and the result. What the log says about questions and
answers (`outstanding`, `Accepted`) is computed from messages and frames alone, without looking into
the client. The invariant ties the two: outside `failed`, the state says which part of one fixed
script has been sent, and which question is open.
-/

namespace EspCfTunnel.Rpc

open EspCfTunnel Framing Capnp StateLogic

/-! ## Runs -/

/-- A call on a `cf_rpc`. -/
inductive Op
  | begin
  | register (cred : Credentials) (opt : Options)
  | unregister
  | receive (frame : Bytes)

def Op.run (op : Op) (r : Client) (out : Mem) (cap : Nat) : Outcome :=
  match op with
  | .begin => rpcBegin r out cap
  | .register cred opt => rpcRegister r cred opt out cap
  | .unregister => rpcUnregister r out cap
  | .receive frame => rpcReceive r frame out cap

/-- The messages a call has written. -/
def Outcome.sent (o : Outcome) : List Message := messagesOf (o.out.read 0 o.n)

/-- A call, the messages it wrote and what it returned. -/
structure Entry where
  op : Op
  sent : List Message
  result : Result

/-- The logs of finite sequences of calls from `cf_rpc_init` on, with the client they leave. -/
inductive Run : List Entry → Client → Prop
  | init : Run [] rpcInit
  | call {log : List Entry} {r : Client} (op : Op) (out : Mem) {cap : Nat} : Run log r → txMax ≤ cap →
      Run (log ++ [⟨op, (op.run r out cap).sent, (op.run r out cap).result⟩]) (op.run r out cap).rpc

/-- All messages of a log. -/
def messages (log : List Entry) : List Message := log.flatMap Entry.sent

/-! ## What frames say -/

section
variable {σ V : Type} (S : Source σ V)

/-- A Return message: its answer id, the kind of its result, and its body. -/
def returnOf : StateM σ (Option (Nat × Nat × V)) := do
  let root ← requiredStruct S (← S.root)
  let kind ← S.uint root 0 2
  let ret ← requiredStruct S (← S.field root 0)
  let error ← S.error
  if error ≠ .ok ∨ kind ≠ 3 then return none
  let answer ← S.uint ret 0 4
  let which ← S.uint ret 6 2
  let error ← S.error
  if error ≠ .ok then return none
  return some (answer, which, ret)

/-- The first entry of the capability table of a payload: the id of a sender-hosted capability. -/
def tableEntry (payload : V) : StateM σ (Option Nat) := do
  let _ ← S.field payload 0
  let caps ← S.field payload 1
  let desc ← S.elem caps 0
  let kind ← S.uint desc 0 2
  if kind ≠ 1 then return none
  let id ← S.uint desc 4 4
  let error ← S.error
  if error ≠ .ok then return none
  return some id

/-- The capability that a Return with results carries. -/
def returnedCapability : StateM σ (Option Nat) := do
  match ← returnOf S with
  | none => return none
  | some (_, which, ret) =>
    if which ≠ 0 then return none
    let payload ← requiredStruct S (← S.field ret 0)
    tableEntry S payload

end

/-- The answer id of a frame that holds a Return. -/
def answerId (frame : Bytes) : Option Nat :=
  match cpReadInit frame with
  | .error _ => none
  | .ok g => (returnOf readerSource g).1.map (·.1)

/-- The capability id in a frame that holds a Return. -/
def capabilityId (frame : Bytes) : Option Nat :=
  match cpReadInit frame with
  | .error _ => none
  | .ok g => (returnedCapability readerSource g).1

/-! ## What a log says -/

/-- The id of a question. -/
def Message.question : Message → Option Nat
  | .bootstrap q => some q
  | .call q _ _ _ => some q
  | _ => none

/-- The question that is open after a call, if `open_` was before it: a question that the call asks,
and none once its Return has come. -/
def Entry.after (open_ : Option Nat) (e : Entry) : Option Nat :=
  match e.sent.findSome? Message.question with
  | some q => some q
  | none =>
    match e.op with
    | .receive frame => if answerId frame = open_ then none else open_
    | _ => open_

/-- The question that is open at the end of a log. -/
def outstanding (log : List Entry) : Option Nat := log.foldl Entry.after none

/-- The log has the call that accepted a bootstrap Return with the capability `c`. -/
def Accepted (log : List Entry) (c : Nat) : Prop :=
  ∃ e ∈ log, ∃ frame, e.op = .receive frame ∧ e.result = .ok ∧ .finish 0 false ∈ e.sent ∧
    answerId frame = some 0 ∧ capabilityId frame = some c

/-- Nothing is sent after a Release or an Abort. -/
def Message.isLast : Message → Bool
  | .release _ _ => true
  | .abort _ => true
  | _ => false

def Message.isFinish (q : Nat) : Message → Bool
  | .finish q' _ => q' = q
  | _ => false

def Message.isRelease : Message → Bool
  | .release _ _ => true
  | _ => false

/-- What a call may send after the calls of `log`. -/
structure Allowed (log : List Entry) (e : Entry) : Prop where
  question : ∀ m ∈ e.sent, m.question.isSome → outstanding log = none ∧ e.sent = [m]
  finish : ∀ q release, .finish q release ∈ e.sent → outstanding log = some q ∧
    (release = false ↔ q = 0 ∧ e.result = .ok) ∧ ∃ frame, e.op = .receive frame ∧ answerId frame = some q
  call : ∀ q interface method c, .call q interface method c ∈ e.sent → Accepted log c
  release : ∀ id n, .release id n ∈ e.sent → n = 1 ∧ Accepted log id ∧
    e.sent = [.finish 2 true, .release id 1]
  silent : (∃ m ∈ messages log, m.isLast) → e.sent = []

/-- The safety of a log: the questions are the three of a registration in their order, every
question is finished and the capability is released at most once, and every call sends only what
it may after the calls before it. -/
structure TraceSafe (log : List Entry) : Prop where
  questions : ∃ c, (messages log).filter (·.question.isSome) <+: [.bootstrap 0,
    .call 1 registrationInterface 0 c, .call 2 registrationInterface 1 c]
  finishOnce : ∀ q, ((messages log).filter (Message.isFinish q)).length ≤ 1
  releaseOnce : ((messages log).filter Message.isRelease).length ≤ 1
  known : .other ∉ messages log
  allowed : ∀ before e later, log = before ++ e :: later → Allowed before e

/-! ## What a received frame leads to -/

section
variable {σ V : Type} {S : Source σ V} {r r' : Client} {s : σ}

/-- The state waits for the Return of a question. -/
def State.waits (s : State) : Prop := s = .bootstrapping ∨ s = .registering ∨ s = .unregistering

/-- How `cf_rpc_receive` reads a Return to the open question with results that it accepts. -/
def ReadsResult (S : Source σ V) (r r' : Client) (ret : V) (s : σ) : Prop :=
  ∃ payload s₁ s₂, (S.field ret 0 >>= requiredStruct S) s = (payload, s₁) ∧
    questionResult S r payload s₁ = ((r', .ok), s₂)

theorem readReturn_cases {ret : V} {v : Verdict} (h : (readReturn S r ret s).1 = (r', v)) :
    (∃ e, v = .fail e true) ∨ (r.state.waits ∧ ∃ which s₁ s₂ s₃,
      S.uint ret 0 4 s = (expectedAnswer r.state, s₁) ∧ S.uint ret 6 2 s₁ = (which, s₂) ∧
      S.error s₂ = (.ok, s₃) ∧
      ((r' = r ∧ ∃ e, e ≠ .ok ∧ v = .exception (expectedAnswer r.state) e) ∨
        (which = 0 ∧ v = .done (expectedAnswer r.state) (r.state = .bootstrapping) ∧
          ReadsResult S r r' ret s₃))) := by
  unfold readReturn at h
  dsimp only at h
  by_cases hwait : (!decide (r.state = .bootstrapping)) = true ∧ r.state ≠ .registering ∧
      r.state ≠ .unregistering
  · rw [if_pos hwait] at h
    exact Or.inl ⟨_, (congrArg Prod.snd h).symm⟩
  rw [if_neg hwait] at h
  have hstate : r.state.waits := by
    unfold State.waits
    by_contra hno
    push Not at hno
    exact hwait ⟨by simp [hno.1], hno.2.1, hno.2.2⟩
  obtain ⟨answer, s₁, h₁⟩ : ∃ a s', S.uint ret 0 4 s = (a, s') := ⟨_, _, rfl⟩
  obtain ⟨which, s₂, h₂⟩ : ∃ a s', S.uint ret 6 2 s₁ = (a, s') := ⟨_, _, rfl⟩
  obtain ⟨error, s₃, h₃⟩ : ∃ a s', S.error s₂ = (a, s') := ⟨_, _, rfl⟩
  rw [run_bind_eq h₁, run_bind_eq h₂, run_bind_eq h₃] at h
  by_cases herr : error ≠ .ok
  · rw [if_pos herr] at h
    exact Or.inl ⟨_, (congrArg Prod.snd h).symm⟩
  rw [if_neg herr] at h
  obtain rfl : error = .ok := not_not.1 herr
  by_cases hans : answer ≠ expectedAnswer r.state
  · rw [if_pos hans] at h
    exact Or.inl ⟨_, (congrArg Prod.snd h).symm⟩
  rw [if_neg hans] at h
  obtain rfl : answer = expectedAnswer r.state := not_not.1 hans
  by_cases hone : which = 1
  · rw [if_pos hone] at h
    obtain ⟨ex, t₁, g₁⟩ : ∃ a s', S.field ret 0 s₃ = (a, s') := ⟨_, _, rfl⟩
    obtain ⟨ex', t₂, g₂⟩ : ∃ a s', requiredStruct S ex t₁ = (a, s') := ⟨_, _, rfl⟩
    obtain ⟨text, t₃, g₃⟩ : ∃ a s', S.field ex' 0 t₂ = (a, s') := ⟨_, _, rfl⟩
    obtain ⟨bs, t₄, g₄⟩ : ∃ a s', S.data text true t₃ = (a, s') := ⟨_, _, rfl⟩
    obtain ⟨error, t₅, g₅⟩ : ∃ a s', S.error t₄ = (a, s') := ⟨_, _, rfl⟩
    rw [run_bind_eq g₁, run_bind_eq g₂, run_bind_eq g₃, run_bind_eq g₄, run_bind_eq g₅] at h
    refine Or.inr ⟨hstate, which, s₁, s₂, s₃, h₁, h₂, h₃, Or.inl ⟨(congrArg Prod.fst h).symm, _, ?_,
      (congrArg Prod.snd h).symm⟩⟩
    split
    · exact Result.noConfusion
    · assumption
  rw [if_neg hone] at h
  by_cases hzero : which ≠ 0
  · rw [if_pos hzero] at h
    exact Or.inl ⟨_, (congrArg Prod.snd h).symm⟩
  rw [if_neg hzero] at h
  obtain ⟨payload₀, t₁, g₁⟩ : ∃ a s', S.field ret 0 s₃ = (a, s') := ⟨_, _, rfl⟩
  obtain ⟨payload, t₂, g₂⟩ : ∃ a s', requiredStruct S payload₀ t₁ = (a, s') := ⟨_, _, rfl⟩
  obtain ⟨⟨r₁, rc⟩, t₃, g₃⟩ : ∃ a s', questionResult S r payload t₂ = (a, s') := ⟨_, _, rfl⟩
  obtain ⟨error, t₄, g₄⟩ : ∃ a s', S.error t₃ = (a, s') := ⟨_, _, rfl⟩
  rw [run_bind_eq g₁, run_bind_eq g₂, run_bind_eq g₃] at h
  dsimp only at h
  rw [run_bind_eq g₄] at h
  by_cases hrc : (if error ≠ .ok then error else rc) ≠ .ok
  · rw [if_pos hrc] at h
    exact Or.inl ⟨_, (congrArg Prod.snd h).symm⟩
  rw [if_neg hrc] at h
  obtain rfl : rc = .ok := by
    by_cases he : error ≠ .ok
    · rw [if_pos he] at hrc
      exact absurd he hrc
    · rwa [if_neg he, not_not] at hrc
  obtain rfl : r₁ = r' := congrArg Prod.fst h
  refine Or.inr ⟨hstate, which, s₁, s₂, s₃, h₁, h₂, h₃, Or.inr ⟨not_not.1 hzero,
    (congrArg Prod.snd h).symm, payload, t₂, t₃, ?_, g₃⟩⟩
  rw [run_bind_eq g₁, g₂]

/-- What reading a message can come to: a failure; an exception or an accepted result of the open
question, both only for a Return to it. -/
theorem readMessage_cases {v : Verdict} (h : (readMessage S r s).1 = (r', v)) :
    (∃ e abortPeer, v = .fail e abortPeer) ∨ (r.state.waits ∧ ∃ which ret s',
      returnOf S s = (some (expectedAnswer r.state, which, ret), s') ∧
      ((r' = r ∧ ∃ e, e ≠ .ok ∧ v = .exception (expectedAnswer r.state) e) ∨
        (which = 0 ∧ v = .done (expectedAnswer r.state) (r.state = .bootstrapping) ∧
          ReadsResult S r r' ret s'))) := by
  unfold readMessage at h
  obtain ⟨root₀, t₁, g₁⟩ : ∃ a s', S.root s = (a, s') := ⟨_, _, rfl⟩
  obtain ⟨root, t₂, g₂⟩ : ∃ a s', requiredStruct S root₀ t₁ = (a, s') := ⟨_, _, rfl⟩
  obtain ⟨kind, t₃, g₃⟩ : ∃ a s', S.uint root 0 2 t₂ = (a, s') := ⟨_, _, rfl⟩
  obtain ⟨ret₀, t₄, g₄⟩ : ∃ a s', S.field root 0 t₃ = (a, s') := ⟨_, _, rfl⟩
  obtain ⟨ret, t₅, g₅⟩ : ∃ a s', requiredStruct S ret₀ t₄ = (a, s') := ⟨_, _, rfl⟩
  obtain ⟨error, t₆, g₆⟩ : ∃ a s', S.error t₅ = (a, s') := ⟨_, _, rfl⟩
  rw [run_bind_eq g₁, run_bind_eq g₂, run_bind_eq g₃, run_bind_eq g₄, run_bind_eq g₅,
    run_bind_eq g₆] at h
  by_cases herr : error ≠ .ok
  · rw [if_pos herr] at h
    exact Or.inl ⟨_, _, (congrArg Prod.snd h).symm⟩
  rw [if_neg herr] at h
  by_cases hone : kind = 1
  · rw [if_pos hone] at h
    exact Or.inl ⟨_, _, (congrArg Prod.snd h).symm⟩
  rw [if_neg hone] at h
  by_cases hthree : kind ≠ 3
  · rw [if_pos hthree] at h
    exact Or.inl ⟨_, _, (congrArg Prod.snd h).symm⟩
  rw [if_neg hthree] at h
  rcases readReturn_cases h with ⟨e, hfail⟩ | ⟨hwait, which, s₁, s₂, s₃, h₁, h₂, h₃, hrest⟩
  · exact Or.inl ⟨e, true, hfail⟩
  refine Or.inr ⟨hwait, which, ret, s₃, ?_, hrest⟩
  unfold returnOf
  rw [run_bind_eq g₁, run_bind_eq g₂, run_bind_eq g₃, run_bind_eq g₄, run_bind_eq g₅,
    run_bind_eq g₆, if_neg (not_or.2 ⟨herr, hthree⟩), run_bind_eq h₁, run_bind_eq h₂, run_bind_eq h₃,
    if_neg (by simp)]
  rfl

/-- An accepted bootstrap result gives the capability in the table of the payload. -/
theorem bootstrapResult_ok {payload : V} {s' : σ}
    (h : bootstrapResult S r payload s = ((r', .ok), s')) :
    (tableEntry S payload s).1 = some r'.capability ∧ r'.state = .ready := by
  unfold bootstrapResult at h
  obtain ⟨content, t₁, g₁⟩ : ∃ a s', S.field payload 0 s = (a, s') := ⟨_, _, rfl⟩
  obtain ⟨caps, t₂, g₂⟩ : ∃ a s', S.field payload 1 t₁ = (a, s') := ⟨_, _, rfl⟩
  obtain ⟨desc, t₃, g₃⟩ : ∃ a s', S.elem caps 0 t₂ = (a, s') := ⟨_, _, rfl⟩
  obtain ⟨kind, t₄, g₄⟩ : ∃ a s', S.uint desc 0 2 t₃ = (a, s') := ⟨_, _, rfl⟩
  obtain ⟨id, t₅, g₅⟩ : ∃ a s', S.uint desc 4 4 t₄ = (a, s') := ⟨_, _, rfl⟩
  obtain ⟨error, t₆, g₆⟩ : ∃ a s', S.error t₅ = (a, s') := ⟨_, _, rfl⟩
  have hreject : ∀ {r₁ : Client} {rc : Result} {t : σ}, rc ≠ .ok →
      ((r₁, rc), t) = ((r', .ok), s') → False := by
    intro r₁ rc t hrc heq
    exact hrc (congrArg (fun p => p.1.2) heq)
  rw [run_bind_eq g₁, run_bind_eq g₂] at h
  split at h
  · exact (hreject Result.noConfusion h).elim
  rw [run_bind_eq g₃, run_bind_eq g₄] at h
  by_cases hkind : kind ≠ 1
  · rw [if_pos hkind] at h
    exact (hreject Result.noConfusion h).elim
  rw [if_neg hkind, run_bind_eq g₅] at h
  dsimp only at h
  rw [run_bind_eq g₆] at h
  by_cases herr : error ≠ .ok
  · rw [if_pos herr] at h
    exact (hreject herr h).elim
  rw [if_neg herr] at h
  obtain rfl : _ = r' := congrArg (fun p => p.1.1) h
  refine ⟨?_, rfl⟩
  unfold tableEntry
  rw [run_bind_eq g₁, run_bind_eq g₂, run_bind_eq g₃, run_bind_eq g₄, if_neg hkind, run_bind_eq g₅,
    run_bind_eq g₆, if_neg herr]
  rfl

/-- Nothing is asked of the states before and after. -/
theorem any_triple {α : Type} (x : StateM σ α) : Triple (fun _ => True) x fun _ _ => True :=
  fun _ _ => trivial

/-- If the result is accepted, the capability is kept and the client is in one of the states. -/
def Keeps (r : Client) (states : List State) (p : Client × Result) : Prop :=
  p.2 = .ok → p.1.capability = r.capability ∧ p.1.state ∈ states

theorem keeps_error {states : List State} {rc : Result} (h : rc ≠ .ok) :
    Triple (fun _ : σ => True) (pure (r', rc)) fun p _ => Keeps r states p :=
  Triple.ret fun _ _ hrc => absurd hrc h

theorem registrationFailure_keeps (details : V) :
    Triple (fun _ => True) (registrationFailure S r details) fun p _ =>
      Keeps r [.registered, .rejected] p := by
  refine Triple.bind (any_triple _) fun ns => Triple.bind (any_triple _) fun cause => ?_
  refine Triple.bind (any_triple _) fun _ => Triple.bind (any_triple _) fun retry => ?_
  refine Triple.bind (any_triple _) fun error => Triple.ite (fun he => keeps_error he) fun _ => ?_
  exact Triple.ret fun _ _ _ => ⟨rfl, by simp⟩

theorem registrationSuccess_keeps (details : V) :
    Triple (fun _ => True) (registrationSuccess S r details) fun p _ =>
      Keeps r [.registered, .rejected] p := by
  refine Triple.bind (any_triple _) fun id => Triple.bind (any_triple _) fun id => ?_
  refine Triple.bind (any_triple _) fun loc => Triple.bind (any_triple _) fun location => ?_
  refine Triple.bind (any_triple _) fun managed => Triple.bind (any_triple _) fun error => ?_
  refine Triple.ite (fun he => keeps_error he) fun _ => ?_
  refine Triple.ite (fun _ => keeps_error Result.noConfusion) fun _ => ?_
  refine Triple.ite (fun _ => keeps_error Result.noConfusion) fun _ => ?_
  exact Triple.ret fun _ _ _ => ⟨rfl, by simp⟩

theorem registrationResult_keeps (payload : V) :
    Triple (fun _ => True) (registrationResult S r payload) fun p _ =>
      Keeps r [.registered, .rejected] p := by
  refine Triple.bind (any_triple _) fun _ => Triple.bind (any_triple _) fun results => ?_
  refine Triple.bind (any_triple _) fun _ => Triple.bind (any_triple _) fun response => ?_
  refine Triple.bind (any_triple _) fun kind => Triple.bind (any_triple _) fun _ => ?_
  refine Triple.bind (any_triple _) fun details => Triple.bind (any_triple _) fun error => ?_
  refine Triple.ite (fun he => keeps_error he) fun _ => ?_
  refine Triple.ite (fun _ => registrationFailure_keeps details) fun _ => ?_
  refine Triple.ite (fun _ => keeps_error Result.noConfusion) fun _ => ?_
  exact registrationSuccess_keeps details

theorem callResult_keeps (expected : Nat) (payload : V) :
    Triple (fun _ => True) (callResult S r expected payload) fun p _ =>
      Keeps r (if expected = 1 then [.registered, .rejected] else [.closed]) p := by
  refine Triple.bind (any_triple _) fun caps => ?_
  refine Triple.ite (fun _ => keeps_error Result.noConfusion) fun _ => ?_
  refine Triple.ite (fun he => ?_) fun he => ?_
  · rw [if_pos he]
    exact registrationResult_keeps payload
  · rw [if_neg he]
    exact Triple.bind (any_triple _) fun content => Triple.ret fun _ _ _ => ⟨rfl, by simp⟩

/-- What an accepted result does to the client. -/
theorem ReadsResult.client {which : Nat} {ret : V} {s₀ : σ} (h : ReadsResult S r r' ret s)
    (hzero : which = 0) (hret : returnOf S s₀ = (some (expectedAnswer r.state, which, ret), s)) :
    (r.state = .bootstrapping → (returnedCapability S s₀).1 = some r'.capability ∧
      r'.state = .ready) ∧
    (r.state = .registering → r'.capability = r.capability ∧ r'.state ∈ [.registered, .rejected]) ∧
    (r.state = .unregistering → r'.capability = r.capability ∧ r'.state = .closed) := by
  obtain ⟨payload, s₁, s₂, hpay, hres⟩ := h
  refine ⟨fun hs => ?_, fun hs => ?_, fun hs => ?_⟩
  · rw [questionResult, if_pos hs] at hres
    obtain ⟨hentry, hready⟩ := bootstrapResult_ok hres
    refine ⟨?_, hready⟩
    unfold returnedCapability
    rw [run_bind_eq hret]
    dsimp only
    rw [if_neg (not_not.2 hzero), ← hentry]
    obtain ⟨p₀, t₁, g₁⟩ : ∃ a s', S.field ret 0 s = (a, s') := ⟨_, _, rfl⟩
    rw [run_bind_eq g₁] at hpay ⊢
    rw [run_bind_eq hpay]
  · rw [questionResult, if_neg (by simp [hs]), hs] at hres
    have hkeep := callResult_keeps (S := S) (r := r) 1 payload s₁ trivial
    rw [show expectedAnswer .registering = 1 from rfl] at hres
    rw [hres] at hkeep
    exact hkeep rfl
  · rw [questionResult, if_neg (by simp [hs]), hs] at hres
    have hkeep := callResult_keeps (S := S) (r := r) 2 payload s₁ trivial
    rw [show expectedAnswer .unregistering = 2 from rfl] at hres
    rw [hres] at hkeep
    obtain ⟨hcap, hstate⟩ := hkeep rfl
    exact ⟨hcap, by simpa using hstate⟩

end

/-- A number of some bytes. -/
theorem cpUint_lt (v : Value) (byte width : Nat) (g : Reader) :
    (cpUint v byte width g).1 < 256 ^ width := by
  have hload : ∀ seg first, Triple (fun _ => True) (load seg first width) fun bs _ =>
      Bytes.le bs < 256 ^ width := by
    intro seg first g _
    have hle := Bytes.le_lt (load seg first width g).1
    rwa [show (load seg first width g).1.length = width from Mem.length_read _ _ _] at hle
  have hzero : Triple (fun _ : Reader => True) (pure 0) fun n _ => n < 256 ^ width :=
    Triple.ret fun _ _ => Nat.pow_pos (by simp)
  have huint : Triple (fun _ => True) (cpUint v byte width) fun n _ => n < 256 ^ width := by
    refine Triple.bind (any_triple _) fun _ => Triple.ite (fun _ => hzero) fun _ => ?_
    refine Triple.ite (fun _ => Triple.bind (any_triple _) fun _ => hzero) fun _ => ?_
    refine Triple.ite (fun _ => hzero) fun _ => ?_
    refine Triple.bind (any_triple _) fun _ => Triple.ite (fun _ => hzero) fun _ => ?_
    refine Triple.bind (any_triple _) fun _ => Triple.ite (fun _ => hzero) fun _ => ?_
    exact Triple.bind (hload _ _) fun bs => Triple.ret fun _ h => h
  exact huint g trivial

theorem tableEntry_lt {payload : Value} {g : Reader} {c : Nat}
    (h : (tableEntry readerSource payload g).1 = some c) : c < 2 ^ 32 := by
  have hnone : ∀ {P : Reader → Prop}, Triple P (pure (none : Option Nat)) fun o _ =>
      ∀ c ∈ o, c < 2 ^ 32 := Triple.ret fun _ _ c hc => by cases hc
  have huint : ∀ v byte, Triple (fun _ => True) (readerSource.uint v byte 4) fun n _ =>
      n < 2 ^ 32 ∧ True := fun v byte g _ => ⟨cpUint_lt v byte 4 g, trivial⟩
  have hentry : Triple (fun _ => True) (tableEntry readerSource payload) fun o _ =>
      ∀ c ∈ o, c < 2 ^ 32 := by
    refine Triple.bind (any_triple _) fun _ => Triple.bind (any_triple _) fun caps => ?_
    refine Triple.bind (any_triple _) fun desc => Triple.bind (any_triple _) fun kind => ?_
    refine Triple.ite (fun _ => hnone) fun _ => ?_
    refine Triple.bind (huint _ _) fun id => Triple.of_fact fun hid => ?_
    refine Triple.bind (any_triple _) fun error => Triple.ite (fun _ => hnone) fun _ => ?_
    refine Triple.ret fun _ _ c hc => ?_
    obtain rfl : id = c := Option.some.inj hc
    exact hid
  exact hentry g trivial c h

theorem capabilityId_lt {frame : Bytes} {c : Nat} (h : capabilityId frame = some c) : c < 2 ^ 32 := by
  unfold capabilityId at h
  split at h
  · cases h
  next g _ =>
  unfold returnedCapability at h
  obtain ⟨o, t₁, g₁⟩ : ∃ a s', returnOf readerSource g = (a, s') := ⟨_, _, rfl⟩
  rw [run_bind_eq g₁] at h
  match o, h with
  | some (_, which, ret), h =>
    dsimp only at h
    split at h
    · cases h
    obtain ⟨payload₀, t₂, g₂⟩ : ∃ a s', readerSource.field ret 0 t₁ = (a, s') := ⟨_, _, rfl⟩
    obtain ⟨payload, t₃, g₃⟩ : ∃ a s', requiredStruct readerSource payload₀ t₂ = (a, s') :=
      ⟨_, _, rfl⟩
    rw [run_bind_eq g₂, run_bind_eq g₃] at h
    exact tableEntry_lt h

/-! ## What a call does -/

/-- What one call can do to a client `r`, and what it sends. -/
inductive Acts (r : Client) : Entry → Client → Prop
  | quiet {op : Op} {result : Result} : (∀ frame, op = .receive frame → r.state.deaf) →
      Acts r ⟨op, [], result⟩ r
  | bootstrap {result : Result} : r.state = .idle →
      Acts r ⟨.begin, [.bootstrap 0], result⟩ { r with state := .bootstrapping }
  | register {cred : Credentials} {opt : Options} {result : Result} : r.state = .ready →
      Acts r ⟨.register cred opt, [.call 1 registrationInterface 0 r.capability], result⟩
        { r with state := .registering }
  | unregister {result : Result} : r.state = .registered →
      Acts r ⟨.unregister, [.call 2 registrationInterface 1 r.capability], result⟩
        { r with state := .unregistering }
  | fail {frame : Bytes} {sent : List Message} {result : Result} {r' : Client} :
      ¬ r.state.deaf → r'.state = .failed → sent = [] ∨ sent = [.abort reason] →
      Acts r ⟨.receive frame, sent, result⟩ r'
  | exception {frame : Bytes} {result : Result} {r' : Client} : r.state.waits →
      answerId frame = some (expectedAnswer r.state) → r'.state = .failed → result ≠ .ok →
      Acts r ⟨.receive frame, [.finish (expectedAnswer r.state) true], result⟩ r'
  | bootstrapped {frame : Bytes} {r' : Client} : r.state = .bootstrapping →
      answerId frame = some 0 → capabilityId frame = some r'.capability → r'.state = .ready →
      Acts r ⟨.receive frame, [.finish 0 false], .ok⟩ r'
  | registered {frame : Bytes} {r' : Client} : r.state = .registering → answerId frame = some 1 →
      r'.capability = r.capability → r'.state ∈ [.registered, .rejected] →
      Acts r ⟨.receive frame, [.finish 1 true], .ok⟩ r'
  | closed {frame : Bytes} {r' : Client} : r.state = .unregistering → answerId frame = some 2 →
      r'.capability = r.capability → r'.state = .closed →
      Acts r ⟨.receive frame, [.finish 2 true, .release r.capability 1], .ok⟩ r'

/-- The capability of a client that has not failed is a number of 32 bits. -/
theorem Acts.capability_lt {r r' : Client} {e : Entry} (h : Acts r e r')
    (hcap : r.state ≠ .failed → r.capability < 2 ^ 32) (hr' : r'.state ≠ .failed) :
    r'.capability < 2 ^ 32 := by
  cases h with
  | quiet => exact hcap hr'
  | bootstrap hs | register hs | unregister hs => exact hcap (by simp [hs])
  | fail _ hs _ | exception _ _ hs _ => exact absurd hs hr'
  | bootstrapped _ _ hid _ => exact capabilityId_lt hid
  | registered hs _ hkeep _ | closed hs _ hkeep _ =>
    rw [hkeep]
    exact hcap (by simp [hs])

theorem sent_zero (r : Client) (rc : Result) (out : Mem) : (⟨r, rc, out, 0⟩ : Outcome).sent = [] :=
  messagesOf_nil

/-- A call whose message is built, or that fails and leaves the client as it is. -/
theorem acts_of_built {r : Client} (out : Mem) {op : Op} {node : Node} {r' : Client} {x : StateM Builder Unit} {o : Outcome}
    (hnode : node.WellTyped) (hx : Does [.fill 0 node] x fun _ => [])
    (hop : ∀ frame, op ≠ .receive frame) (hsend : ∀ rc, Acts r ⟨op, [messageOf node], rc⟩ r')
    (hgood : ∀ n out', build out txMax x = ((.ok, n), out') → o = ⟨r', .ok, out', n⟩)
    (hbad : ∀ rc n out', build out txMax x = ((rc, n), out') → rc ≠ .ok →
      o.rpc = r ∧ o.result = rc ∧ o.n = n) :
    Acts r ⟨op, o.sent, o.result⟩ o.rpc := by
  have hbuilt := build_built hnode hx out (show 16 ≤ txMax by decide) (by decide)
  obtain ⟨⟨⟨rc, n⟩, out'⟩, heq⟩ : ∃ p, build out txMax x = p := ⟨_, rfl⟩
  rw [heq] at hbuilt
  rcases hbuilt.sent (by decide) with ⟨rfl, hsent⟩ | ⟨hrc, rfl⟩
  · obtain rfl := hgood n out' heq
    have := hsend .ok
    rwa [← hsent] at this
  · obtain ⟨hr, -, hn⟩ := hbad rc 0 out' heq hrc
    have hnothing : o.sent = [] := by
      rw [Outcome.sent, hn]
      exact messagesOf_nil
    rw [hr, hnothing]
    exact .quiet fun frame hf => absurd hf (hop frame)

section
variable {r : Client} (out : Mem) {cap : Nat} (hroom : txMax ≤ cap)
include hroom

theorem rpcBegin_acts :
    Acts r ⟨.begin, (rpcBegin r out cap).sent, (rpcBegin r out cap).result⟩ (rpcBegin r out cap).rpc := by
  have hquiet : ∀ result, Acts r ⟨.begin, [], result⟩ r :=
    fun result => .quiet fun frame hf => by cases hf
  by_cases hidle : r.state = .idle
  case neg =>
    rw [rpcBegin, if_neg (by omega), if_pos hidle, sent_zero]
    exact hquiet _
  have hnode : bootstrapNode.WellTyped := by
    simp [bootstrapNode, messageNode, Node.WellTyped, wellTypedAll, Field.Fits]
  have hsend : ∀ rc, Acts r ⟨.begin, [messageOf bootstrapNode], rc⟩
      { r with state := .bootstrapping } := by
    intro rc
    rw [messageOf, decode_bootstrap]
    exact .bootstrap hidle
  refine acts_of_built out hnode bootstrapBody_does (fun _ h => by cases h) hsend
    (fun n out' heq => ?_) fun rc n out' heq hrc => ?_
  · rw [rpcBegin, if_neg (by omega), if_neg (not_not.2 hidle), heq]
    rfl
  · rw [rpcBegin, if_neg (by omega), if_neg (not_not.2 hidle), heq]
    exact ⟨if_neg hrc, rfl, rfl⟩

theorem rpcRegister_acts (hcap : r.state ≠ .failed → r.capability < 2 ^ 32) (cred : Credentials) (opt : Options) :
    Acts r ⟨.register cred opt, (rpcRegister r cred opt out cap).sent,
      (rpcRegister r cred opt out cap).result⟩ (rpcRegister r cred opt out cap).rpc := by
  have hquiet : ∀ result, Acts r ⟨.register cred opt, [], result⟩ r :=
    fun result => .quiet fun frame hf => by cases hf
  by_cases hstate : r.state ≠ .ready ∨ !r.haveCapability
  · rw [rpcRegister, if_neg (by omega), if_pos hstate, sent_zero]
    exact hquiet _
  by_cases hargs : (!registerArguments cred opt) = true
  · rw [rpcRegister, if_neg (by omega), if_neg hstate, if_pos hargs, sent_zero]
    exact hquiet _
  have hready : r.state = .ready := not_not.1 (not_or.1 hstate).1
  have hsend : ∀ rc, Acts r ⟨.register cred opt,
      [messageOf (callNode r.capability 1 0 (registerNode cred opt))], rc⟩
      { r with state := .registering } := by
    intro rc
    rw [messageOf, decode_call (hcap (by simp [hready])) (by simp) (by simp)]
    exact .register hready
  refine acts_of_built out (wellTyped_callNode r.capability 1 0 (wellTyped_registerNode cred opt))
    (registerBody_does r.capability cred opt) (fun _ h => by cases h) hsend
    (fun n out' heq => ?_) fun rc n out' heq hrc => ?_
  · rw [rpcRegister, if_neg (by omega), if_neg hstate, if_neg hargs, heq]
    exact if_pos rfl
  · rw [rpcRegister, if_neg (by omega), if_neg hstate, if_neg hargs, heq]
    dsimp only
    rw [if_neg hrc]
    exact ⟨rfl, rfl, rfl⟩

theorem rpcUnregister_acts (hcap : r.state ≠ .failed → r.capability < 2 ^ 32) :
    Acts r ⟨.unregister, (rpcUnregister r out cap).sent, (rpcUnregister r out cap).result⟩
      (rpcUnregister r out cap).rpc := by
  have hquiet : ∀ result, Acts r ⟨.unregister, [], result⟩ r :=
    fun result => .quiet fun frame hf => by cases hf
  by_cases hstate : r.state ≠ .registered ∨ !r.haveCapability
  · rw [rpcUnregister, if_neg (by omega), if_pos hstate, sent_zero]
    exact hquiet _
  have hregistered : r.state = .registered := not_not.1 (not_or.1 hstate).1
  have hcontent : (Node.struct 0 [] []).WellTyped := by simp [Node.WellTyped, wellTypedAll]
  have hsend : ∀ rc, Acts r ⟨.unregister,
      [messageOf (callNode r.capability 2 1 (.struct 0 [] []))], rc⟩
      { r with state := .unregistering } := by
    intro rc
    rw [messageOf, decode_call (hcap (by simp [hregistered])) (by simp) (by simp)]
    exact .unregister hregistered
  refine acts_of_built out (wellTyped_callNode r.capability 2 1 hcontent)
    (unregisterBody_does r.capability) (fun _ h => by cases h) hsend
    (fun n out' heq => ?_) fun rc n out' heq hrc => ?_
  · rw [rpcUnregister, if_neg (by omega), if_neg hstate, heq]
    rfl
  · rw [rpcUnregister, if_neg (by omega), if_neg hstate, heq]
    exact ⟨if_neg hrc, rfl, rfl⟩

omit hroom in
/-- `cf_rpc_unregister` leaves the client as it is where it fails. -/
theorem rpcUnregister_failed {out : Mem} (h : (rpcUnregister r out cap).result ≠ .ok) :
    (rpcUnregister r out cap).rpc = r := by
  unfold rpcUnregister at h ⊢
  split
  · rfl
  split
  · rfl
  · next hcap hstate =>
    rw [if_neg hcap, if_neg hstate] at h
    obtain ⟨⟨⟨rc, n⟩, out'⟩, heq⟩ : ∃ p, build out txMax (unregisterBody r.capability) = p := ⟨_, rfl⟩
    rw [heq] at h ⊢
    exact if_neg h

omit hroom in
/-- `cf_rpc_register` leaves the client as it is where it fails. -/
theorem rpcRegister_failed {out : Mem} {cred : Credentials} {opt : Options}
    (h : (rpcRegister r cred opt out cap).result ≠ .ok) : (rpcRegister r cred opt out cap).rpc = r := by
  unfold rpcRegister at h ⊢
  split
  · rfl
  split
  · rfl
  split
  · rfl
  · next hcap hstate hargs =>
    rw [if_neg hcap, if_neg hstate, if_neg hargs] at h
    obtain ⟨⟨⟨rc, n⟩, out'⟩, heq⟩ : ∃ p, build out txMax (registerBody r.capability cred opt) = p :=
      ⟨_, rfl⟩
    rw [heq] at h ⊢
    dsimp only at h ⊢
    split at h
    · next hok => exact absurd hok h
    · next hrc => rw [if_neg hrc]

omit hroom in
/-- A failure is final, and may be told to the peer. -/
theorem fail_acts {r' : Client} (hdeaf : ¬ r.state.deaf) (frame : Bytes) (error : Result)
    (abortPeer : Bool) :
    Acts r ⟨.receive frame, (fail r' error abortPeer out).sent, (fail r' error abortPeer out).result⟩
      (fail r' error abortPeer out).rpc := by
  cases abortPeer with
  | false => exact .fail hdeaf rfl (Or.inl messagesOf_nil)
  | true =>
    obtain ⟨out', heq, hsent⟩ := fail_abort out r' error
    rw [heq]
    exact .fail hdeaf rfl (Or.inr hsent)

omit hroom in
theorem expectedAnswer_lt (s : State) : expectedAnswer s < 2 ^ 32 := by
  cases s <;> decide

theorem rpcReceive_acts (hcap : r.state ≠ .failed → r.capability < 2 ^ 32) (frame : Bytes) :
    Acts r ⟨.receive frame, (rpcReceive r frame out cap).sent, (rpcReceive r frame out cap).result⟩
      (rpcReceive r frame out cap).rpc := by
  rw [rpcReceive, if_neg (by omega)]
  by_cases hdeaf : r.state.deaf = true
  · rw [if_pos hdeaf, sent_zero]
    exact .quiet fun _ _ => hdeaf
  rw [if_neg hdeaf]
  cases hinit : cpReadInit frame with
  | error rc => exact fail_acts out hdeaf frame rc true
  | ok g =>
    dsimp only
    obtain ⟨⟨r', v⟩, hread⟩ : ∃ p, (readMessage readerSource r g).1 = p := ⟨_, rfl⟩
    rw [hread]
    rcases readMessage_cases hread with ⟨e, abortPeer, rfl⟩ | ⟨hwait, which, ret, g', hret, hrest⟩
    · exact fail_acts out hdeaf frame e abortPeer
    have hanswer : answerId frame = some (expectedAnswer r.state) := by
      rw [answerId, hinit]
      dsimp only
      rw [hret]
      rfl
    rcases hrest with ⟨rfl, e, he, rfl⟩ | ⟨hzero, rfl, hresult⟩
    · obtain ⟨out', heq, hsent⟩ := answer_exception out r' (expectedAnswer_lt r'.state) e
      rw [heq, Outcome.sent, hsent]
      exact .exception hwait hanswer rfl he
    obtain ⟨hboot, hreg, hunreg⟩ := hresult.client hzero hret
    rcases hwait with hs | hs | hs
    · obtain ⟨hid, hready⟩ := hboot hs
      obtain ⟨out', heq, hsent⟩ := answer_done out r' (expectedAnswer_lt r.state)
        (r.state = .bootstrapping) (by simp [hready])
      rw [heq, Outcome.sent, hsent, hs]
      rw [hs] at hanswer
      refine .bootstrapped hs hanswer ?_ hready
      rw [capabilityId, hinit]
      exact hid
    · obtain ⟨hkeep, hstate⟩ := hreg hs
      have hopen : r'.state ≠ .closed := by
        intro hclosed
        rw [hclosed] at hstate
        simp at hstate
      obtain ⟨out', heq, hsent⟩ := answer_done out r' (expectedAnswer_lt r.state)
        (r.state = .bootstrapping) hopen
      rw [heq, Outcome.sent, hsent, hs]
      rw [hs] at hanswer
      exact .registered hs hanswer hkeep hstate
    · obtain ⟨hkeep, hclosed⟩ := hunreg hs
      obtain ⟨out', heq, hsent⟩ := answer_closed out r' (expectedAnswer_lt r.state)
        (r.state = .bootstrapping) hclosed (by rw [hkeep]; exact hcap (by simp [hs]))
      rw [heq, Outcome.sent, hsent, hs, hkeep]
      rw [hs] at hanswer
      exact .closed hs hanswer rfl hclosed

omit hroom in
/-- An answer takes at most the bytes of an abort message. -/
theorem answer_length (r : Client) (v : Verdict) : (answer out (r, v)).n ≤ 88 := by
  cases v with
  | fail error abortPeer =>
    cases abortPeer with
    | false => exact Nat.zero_le _
    | true =>
      obtain ⟨out', heq, -⟩ := fail_abort out r error
      exact (congrArg Outcome.n heq).le
  | exception id error =>
    obtain ⟨out', heq, -⟩ := finish_built out id true
    unfold answer
    dsimp only
    rw [heq]
    show 40 ≤ 88
    decide
  | done id boot =>
    obtain ⟨out', heq, -⟩ := finish_built out id (!boot)
    unfold answer
    dsimp only
    rw [heq]
    dsimp only
    split
    · obtain ⟨tail, hrelease, -⟩ := releaseCap_built (tailMem out' 40) r
        (show 40 ≤ txMax - 40 by decide) (by decide)
      rw [hrelease]
      show 40 + 40 ≤ 88
      decide
    · show 40 ≤ 88
      decide

omit hroom in
theorem rpcReceive_length (frame : Bytes) : (rpcReceive r frame out cap).n ≤ 88 := by
  unfold rpcReceive
  split
  · exact Nat.zero_le _
  split
  · exact Nat.zero_le _
  split
  · next rc _ => exact answer_length out r (.fail rc true)
  · exact answer_length out _ _

omit hroom in
/-- A client that takes no message says nothing. -/
theorem rpcReceive_deaf (frame : Bytes) (hdeaf : r.state.deaf = true) :
    (rpcReceive r frame out cap).n = 0 ∧ (rpcReceive r frame out cap).rpc = r := by
  unfold rpcReceive
  rw [if_pos hdeaf]
  split <;> exact ⟨rfl, rfl⟩

omit hroom in
/-- A message that is built has room in the buffer. -/
theorem build_length {node : Node} (hnode : node.WellTyped) {x : StateM Builder Unit}
    (hx : Does [.fill 0 node] x fun _ => []) : (build out txMax x).1.2 ≤ txMax := by
  have hbuilt := build_built hnode hx out (show 16 ≤ txMax by decide) (by decide)
  generalize build out txMax x = o at hbuilt
  cases hbuilt with
  | frame hfits _ =>
    unfold txMax at hfits ⊢
    dsimp only
    omega
  | nothing => exact Nat.zero_le _

omit hroom in
/-- A registration that is begun. -/
theorem rpcBegin_sent (hok : (rpcBegin r out cap).result = .ok) :
    r.state = .idle ∧ (rpcBegin r out cap).rpc = { r with state := .bootstrapping } ∧
      (rpcBegin r out cap).n ≤ txMax := by
  have hnode : bootstrapNode.WellTyped := by
    simp [bootstrapNode, messageNode, Node.WellTyped, wellTypedAll, Field.Fits]
  have hlength := build_length out hnode bootstrapBody_does
  unfold rpcBegin at hok ⊢
  split at hok
  · cases hok
  split at hok
  · cases hok
  next hcap hstate =>
  rw [if_neg hcap, if_neg hstate]
  obtain ⟨⟨⟨rc, n⟩, out'⟩, heq⟩ : ∃ p, build out txMax (do let _ ← message 8 1 1) = p := ⟨_, rfl⟩
  rw [heq] at hok hlength ⊢
  exact ⟨not_not.1 hstate, if_pos hok, hlength⟩

omit hroom in
/-- A registration call that is made. -/
theorem rpcRegister_sent {cred : Credentials} {opt : Options}
    (hok : (rpcRegister r cred opt out cap).result = .ok) :
    r.state = .ready ∧ (rpcRegister r cred opt out cap).rpc = { r with state := .registering } ∧
      (rpcRegister r cred opt out cap).n ≤ txMax := by
  have hlength := build_length out (wellTyped_callNode r.capability 1 0 (wellTyped_registerNode cred opt))
    (registerBody_does r.capability cred opt)
  unfold rpcRegister at hok ⊢
  split at hok
  · cases hok
  split at hok
  · cases hok
  split at hok
  · cases hok
  next hcap hstate hargs =>
  rw [if_neg hcap, if_neg hstate, if_neg hargs]
  obtain ⟨⟨⟨rc, n⟩, out'⟩, heq⟩ : ∃ p, build out txMax (registerBody r.capability cred opt) = p := ⟨_, rfl⟩
  rw [heq] at hok hlength ⊢
  dsimp only at hok ⊢
  split at hok
  · next hrc =>
    rw [if_pos hrc]
    exact ⟨not_not.1 (not_or.1 hstate).1, rfl, hlength⟩
  · next hrc => exact absurd hok hrc

omit hroom in
/-- A call that ends a registration. -/
theorem rpcUnregister_sent (hok : (rpcUnregister r out cap).result = .ok) :
    r.state = .registered ∧ (rpcUnregister r out cap).rpc = { r with state := .unregistering } ∧
      (rpcUnregister r out cap).n ≤ txMax := by
  have hcontent : (Node.struct 0 [] []).WellTyped := by simp [Node.WellTyped, wellTypedAll]
  have hlength := build_length out (wellTyped_callNode r.capability 2 1 hcontent)
    (unregisterBody_does r.capability)
  unfold rpcUnregister at hok ⊢
  split at hok
  · cases hok
  split at hok
  · cases hok
  next hcap hstate =>
  rw [if_neg hcap, if_neg hstate]
  obtain ⟨⟨⟨rc, n⟩, out'⟩, heq⟩ : ∃ p, build out txMax (unregisterBody r.capability) = p := ⟨_, rfl⟩
  rw [heq] at hok hlength ⊢
  exact ⟨not_not.1 (not_or.1 hstate).1, if_pos hok, hlength⟩

/-- Every call does one of these things. -/
theorem Op.acts (hcap : r.state ≠ .failed → r.capability < 2 ^ 32) (op : Op) :
    Acts r ⟨op, (op.run r out cap).sent, (op.run r out cap).result⟩ (op.run r out cap).rpc := by
  cases op with
  | begin => exact rpcBegin_acts out hroom
  | register cred opt => exact rpcRegister_acts out hroom hcap cred opt
  | unregister => exact rpcUnregister_acts out hroom hcap
  | receive frame => exact rpcReceive_acts out hroom hcap frame

end

/-! ## The invariant -/

/-- The messages of a registration with capability `c`, from the first to the last. -/
def script (c : Nat) : List Message :=
  [.bootstrap 0, .finish 0 false, .call 1 registrationInterface 0 c, .finish 1 true,
    .call 2 registrationInterface 1 c, .finish 2 true, .release c 1]

/-- How much of the script has been sent in a state. -/
def State.progress : State → Nat
  | .idle | .failed => 0
  | .bootstrapping => 1
  | .ready => 2
  | .registering => 3
  | .registered | .rejected => 4
  | .unregistering => 5
  | .closed => 7

/-- The question that is open in a state. -/
def State.opens : State → Option Nat
  | .bootstrapping => some 0
  | .registering => some 1
  | .unregistering => some 2
  | _ => none

/-- A log that follows the script, and may end with an Abort or with the Finish of a question that
was not answered with results. -/
def Follows (log : List Entry) (c k : Nat) : Prop :=
  messages log = (script c).take k ∨ messages log = (script c).take k ++ [.abort reason] ∨
    ∃ q, k = 2 * q + 1 ∧ messages log = (script c).take k ++ [.finish q true]

/-- The invariant of a run. -/
structure Inv (log : List Entry) (r : Client) : Prop where
  capability : r.state ≠ .failed → r.capability < 2 ^ 32
  written : r.state ≠ .failed → messages log = (script r.capability).take r.state.progress
  failed : r.state = .failed → ∃ c k, k ≤ 5 ∧ Follows log c k
  outstanding : r.state ≠ .failed → outstanding log = r.state.opens
  accepted : 2 ≤ r.state.progress → Accepted log r.capability
  allowed : ∀ before e later, log = before ++ e :: later → Allowed before e

theorem messages_append (log : List Entry) (e : Entry) :
    messages (log ++ [e]) = messages log ++ e.sent := by
  simp [messages]

theorem outstanding_append (log : List Entry) (e : Entry) :
    outstanding (log ++ [e]) = e.after (outstanding log) := by
  simp [outstanding]

theorem Accepted.append {log : List Entry} {c : Nat} (h : Accepted log c) (e : Entry) :
    Accepted (log ++ [e]) c := by
  obtain ⟨e₀, hmem, hrest⟩ := h
  exact ⟨e₀, List.mem_append_left _ hmem, hrest⟩

/-- What is allowed in every position of a longer log. -/
theorem allowed_append {log : List Entry} {e : Entry}
    (h : ∀ before e later, log = before ++ e :: later → Allowed before e) (he : Allowed log e) :
    ∀ before e' later, log ++ [e] = before ++ e' :: later → Allowed before e' := by
  intro before e' later heq
  rcases List.eq_nil_or_concat later with rfl | ⟨later', last, rfl⟩
  · obtain ⟨rfl, hlast⟩ := List.append_inj' heq rfl
    obtain rfl : e = e' := List.singleton_inj.1 hlast
    exact he
  · rw [List.concat_eq_append, ← List.cons_append, ← List.append_assoc] at heq
    obtain ⟨hlog, -⟩ := List.append_inj' heq rfl
    exact h before e' later' hlog

/-- A silent call is allowed anywhere. -/
theorem Allowed.silence {log : List Entry} {op : Op} {result : Result} :
    Allowed log ⟨op, [], result⟩ :=
  ⟨by simp, by simp, by simp, by simp, fun _ => rfl⟩

/-- Before the script ends nothing that is sent is the last. -/
theorem not_last {log : List Entry} {c k : Nat} (hk : k ≤ 6) (h : messages log = (script c).take k) :
    ¬ ∃ m ∈ messages log, m.isLast := by
  rintro ⟨m, hm, hlast⟩
  rw [h] at hm
  have hsub : m ∈ (script c).take 6 := List.take_subset_take_left _ hk hm
  simp only [script, List.take_succ_cons, List.take_zero, List.mem_cons, List.not_mem_nil,
    or_false] at hsub
  rcases hsub with rfl | rfl | rfl | rfl | rfl | rfl <;> cases hlast

section
variable {log : List Entry} {r r' : Client} {e : Entry}

/-- A call that goes on with the script. -/
theorem Inv.advance (h : Inv log r) (hr : r.state ≠ .failed) (hr' : r'.state ≠ .failed)
    (hcap : r'.capability < 2 ^ 32)
    (hsent : (script r'.capability).take r'.state.progress =
      (script r.capability).take r.state.progress ++ e.sent)
    (hopen : e.after r.state.opens = r'.state.opens)
    (hacc : 2 ≤ r'.state.progress → Accepted (log ++ [e]) r'.capability) (hallow : Allowed log e) :
    Inv (log ++ [e]) r' := by
  refine ⟨fun _ => hcap, fun _ => ?_, fun hf => absurd hf hr', fun _ => ?_, hacc,
    allowed_append h.allowed hallow⟩
  · rw [messages_append, h.written hr, hsent]
  · rw [outstanding_append, h.outstanding hr, hopen]

/-- A call that sends nothing and changes nothing. -/
theorem Inv.quiet (h : Inv log r) {op : Op} {result : Result}
    (hdeaf : ∀ frame, op = .receive frame → r.state.deaf) : Inv (log ++ [⟨op, [], result⟩]) r := by
  have hmessages : messages (log ++ [⟨op, [], result⟩]) = messages log := by
    rw [messages_append, List.append_nil]
  refine ⟨h.capability, fun hr => ?_, fun hr => ?_, fun hr => ?_, fun ha => (h.accepted ha).append _,
    allowed_append h.allowed .silence⟩
  · rw [hmessages, h.written hr]
  · obtain ⟨c, k, hk, hfollows⟩ := h.failed hr
    refine ⟨c, k, hk, ?_⟩
    unfold Follows
    rw [hmessages]
    exact hfollows
  · rw [outstanding_append, h.outstanding hr, Entry.after]
    cases op with
    | receive frame =>
      have hnone : r.state.opens = none := by
        have := hdeaf frame rfl
        cases hs : r.state <;> simp_all [State.deaf, State.opens]
      rw [hnone]
      simp
    | _ => rfl

/-- A call that asks the next question. -/
theorem Inv.ask (h : Inv log r) {op : Op} {result : Result} {m : Message} {s : State} {q : Nat}
    (hr : r.state ≠ .failed) (hs : s ≠ .failed)
    (hsent : (script r.capability).take s.progress =
      (script r.capability).take r.state.progress ++ [m])
    (hnone : r.state.opens = none) (hq : m.question = some q) (hopen : s.opens = some q)
    (hacc : 2 ≤ s.progress → Accepted log r.capability)
    (hcall : ∀ q' i method c, m = .call q' i method c → Accepted log c)
    (hk : r.state.progress ≤ 6) :
    Inv (log ++ [⟨op, [m], result⟩]) { r with state := s } := by
  refine h.advance hr hs (h.capability hr) hsent ?_ (fun ha => (hacc ha).append _) ?_
  · rw [Entry.after, List.findSome?_cons, hq, hopen]
  refine ⟨fun m' hm' _ => ?_, fun q' rel hm' => ?_, fun q' i method c hm' => ?_, fun id n hm' => ?_,
    fun hlast => absurd hlast (not_last hk (h.written hr))⟩
  · rw [List.mem_singleton] at hm'
    rw [hm']
    exact ⟨(h.outstanding hr).trans hnone, rfl⟩
  · rw [List.mem_singleton] at hm'
    rw [← hm'] at hq
    cases hq
  · rw [List.mem_singleton] at hm'
    exact hcall q' i method c hm'.symm
  · rw [List.mem_singleton] at hm'
    rw [← hm'] at hq
    cases hq

/-- A Finish in answer to the Return of the open question. -/
theorem Inv.allow_finish (h : Inv log r) (hr : r.state ≠ .failed) {frame : Bytes} {q : Nat}
    (release : Bool) (result : Result) (hopen : r.state.opens = some q)
    (hanswer : answerId frame = some q) (hrel : release = false ↔ q = 0 ∧ result = .ok)
    (hk : r.state.progress ≤ 6) :
    Allowed log ⟨.receive frame, [.finish q release], result⟩ := by
  refine ⟨fun m hm hq => ?_, fun q' rel hm => ?_, fun q' i method c hm => ?_, fun id n hm => ?_,
    fun hlast => absurd hlast (not_last hk (h.written hr))⟩
  · rw [List.mem_singleton] at hm
    rw [hm] at hq
    cases hq
  · obtain ⟨rfl, rfl⟩ := Message.finish.inj (List.mem_singleton.1 hm)
    exact ⟨(h.outstanding hr).trans hopen, hrel, frame, rfl, hanswer⟩
  · cases List.mem_singleton.1 hm
  · cases List.mem_singleton.1 hm

/-- The open question is closed by its Return. -/
theorem after_return {frame : Bytes} {sent : List Message} {result : Result} {q : Nat}
    (hsent : sent.findSome? Message.question = none) (hanswer : answerId frame = some q) :
    Entry.after (some q) ⟨.receive frame, sent, result⟩ = none := by
  rw [Entry.after, hsent]
  exact if_pos hanswer

/-- A failure leaves what has been sent, and perhaps one more message. -/
theorem Inv.fall (h : Inv log r) (hr : r.state ≠ .failed) (hr' : r'.state = .failed)
    (hk : r.state.progress ≤ 5) (hallow : Allowed log e)
    (hsent : e.sent = [] ∨ e.sent = [.abort reason] ∨
      ∃ q, r.state.progress = 2 * q + 1 ∧ e.sent = [.finish q true]) : Inv (log ++ [e]) r' := by
  refine ⟨fun hn => absurd hr' hn, fun hn => absurd hr' hn, fun _ => ⟨r.capability, _, hk, ?_⟩,
    fun hn => absurd hr' hn, fun ha => ?_, allowed_append h.allowed hallow⟩
  · unfold Follows
    rw [messages_append, h.written hr]
    rcases hsent with hs | hs | ⟨q, hq, hs⟩
    · exact Or.inl (by rw [hs, List.append_nil])
    · exact Or.inr (Or.inl (by rw [hs]))
    · exact Or.inr (Or.inr ⟨q, hq, by rw [hs]⟩)
  · rw [hr'] at ha
    exact absurd ha (by decide)

/-- The invariant is kept by every call. -/
theorem Inv.step (h : Inv log r) (ha : Acts r e r') : Inv (log ++ [e]) r' := by
  cases ha with
  | quiet hdeaf => exact h.quiet hdeaf
  | bootstrap hs =>
    refine h.ask (q := 0) (by simp [hs]) (by simp) ?_ (by rw [hs]; rfl) rfl rfl
      (fun hp => absurd hp (by decide)) (fun _ _ _ _ hm => by cases hm) (by rw [hs]; decide)
    rw [hs]
    rfl
  | register hs =>
    have hacc := h.accepted (by rw [hs]; decide)
    refine h.ask (q := 1) (by simp [hs]) (by simp) ?_ (by rw [hs]; rfl) rfl rfl
      (fun _ => hacc) (fun _ _ _ c hm => ?_) (by rw [hs]; decide)
    · rw [hs]
      rfl
    · obtain ⟨-, -, -, rfl⟩ := Message.call.inj hm
      exact hacc
  | unregister hs =>
    have hacc := h.accepted (by rw [hs]; decide)
    refine h.ask (q := 2) (by simp [hs]) (by simp) ?_ (by rw [hs]; rfl) rfl rfl
      (fun _ => hacc) (fun _ _ _ c hm => ?_) (by rw [hs]; decide)
    · rw [hs]
      rfl
    · obtain ⟨-, -, -, rfl⟩ := Message.call.inj hm
      exact hacc
  | @fail frame sent result _ hdeaf hfailed hsent =>
    have hr : r.state ≠ .failed := fun hf => hdeaf (by rw [hf]; rfl)
    have hk : r.state.progress ≤ 5 := by
      cases hs : r.state <;> simp_all [State.deaf, State.progress]
    refine h.fall hr hfailed hk ?_ (hsent.imp id Or.inl)
    rcases hsent with rfl | rfl
    · exact .silence
    · refine ⟨by simp [Message.question], by simp, by simp, by simp, fun hlast => ?_⟩
      exact absurd hlast (not_last (hk.trans (by simp)) (h.written hr))
  | @exception frame result _ hwait hanswer hfailed hresult =>
    have hr : r.state ≠ .failed := by
      rintro hf
      rw [hf] at hwait
      simp [State.waits] at hwait
    have hopens : r.state.opens = some (expectedAnswer r.state) ∧ r.state.progress ≤ 5 ∧
        r.state.progress = 2 * expectedAnswer r.state + 1 := by
      rcases hwait with hs | hs | hs <;> rw [hs] <;> decide
    have hallow := h.allow_finish hr true result hopens.1 hanswer (by simp [hresult])
      (hopens.2.1.trans (by simp))
    exact h.fall hr hfailed hopens.2.1 hallow (Or.inr (Or.inr ⟨_, hopens.2.2, rfl⟩))
  | bootstrapped hs hanswer hid hready =>
    have hr : r.state ≠ .failed := by simp [hs]
    have hopens : r.state.opens = some 0 := by rw [hs]; rfl
    have hallow := h.allow_finish hr false .ok hopens hanswer (by simp) (by rw [hs]; decide)
    refine h.advance hr (by simp [hready]) (capabilityId_lt hid) ?_ ?_ (fun _ => ?_) hallow
    · rw [hs, hready]
      rfl
    · rw [hopens, hready]
      exact after_return rfl hanswer
    · exact ⟨_, List.mem_append_right _ (List.mem_singleton.2 rfl), _, rfl, rfl, by simp, hanswer, hid⟩
  | @registered frame _ hs hanswer hcap hdone =>
    have hr : r.state ≠ .failed := by simp [hs]
    have hopens : r.state.opens = some 1 := by rw [hs]; rfl
    have hallow := h.allow_finish hr true .ok hopens hanswer (by simp) (by rw [hs]; decide)
    have hafter : Entry.after (some 1) ⟨.receive frame, [.finish 1 true], .ok⟩ = none :=
      after_return rfl hanswer
    have hacc := (h.accepted (by rw [hs]; decide)).append ⟨.receive frame, [.finish 1 true], .ok⟩
    have hdone' : r'.state = .registered ∨ r'.state = .rejected := by simpa using hdone
    rcases hdone' with hd | hd
    all_goals
      refine h.advance hr (by simp [hd]) (hcap ▸ h.capability hr) ?_ ?_ (fun _ => ?_) hallow
      · rw [hcap, hs, hd]
        rfl
      · rw [hopens, hd]
        exact hafter
      · rw [hcap]
        exact hacc
  | closed hs hanswer hcap hclosed =>
    have hr : r.state ≠ .failed := by simp [hs]
    have hopens : r.state.opens = some 2 := by rw [hs]; rfl
    have hacc := h.accepted (by rw [hs]; decide)
    refine h.advance hr (by simp [hclosed]) (hcap ▸ h.capability hr) ?_ ?_ (fun _ => ?_) ?_
    · rw [hcap, hs, hclosed]
      rfl
    · rw [hopens, hclosed]
      exact after_return rfl hanswer
    · rw [hcap]
      exact hacc.append _
    · have hone := h.allow_finish hr true .ok hopens hanswer (by simp) (by rw [hs]; decide)
      refine ⟨by simp [Message.question], fun q rel hm => ?_, by simp, fun id n hm => ?_,
        fun hlast => absurd (hone.silent hlast) (by simp)⟩
      · refine hone.finish q rel ?_
        simpa using hm
      · obtain ⟨rfl, rfl⟩ : id = r.capability ∧ n = 1 := by simpa using hm
        exact ⟨rfl, hacc, rfl⟩

end

theorem Run.inv {log : List Entry} {r : Client} (h : Run log r) : Inv log r := by
  induction h with
  | init =>
    refine ⟨fun _ => by decide, fun _ => rfl, fun hf => ?_, fun _ => rfl, fun ha => ?_,
      fun before e later heq => ?_⟩
    · cases hf
    · exact absurd ha (by decide)
    · exact absurd heq (by simp)
  | @call log r op out cap _ hroom ih => exact ih.step (op.acts out hroom ih.capability)

/-! ## The main result -/

/-- What is sent is a part of the script and perhaps one more message. -/
theorem Inv.follows {log : List Entry} {r : Client} (h : Inv log r) :
    ∃ c k extra, messages log = (script c).take k ++ extra ∧ (extra = [] ∨ extra = [.abort reason] ∨
      ∃ q, k = 2 * q + 1 ∧ q ≤ 2 ∧ extra = [.finish q true]) := by
  by_cases hf : r.state = .failed
  · obtain ⟨c, k, hk, hm | hm | ⟨q, rfl, hm⟩⟩ := h.failed hf
    · exact ⟨c, k, [], by rw [hm, List.append_nil], Or.inl rfl⟩
    · exact ⟨c, k, _, hm, Or.inr (Or.inl rfl)⟩
    · exact ⟨c, _, _, hm, Or.inr (Or.inr ⟨q, rfl, by omega, rfl⟩)⟩
  · exact ⟨_, _, [], by rw [h.written hf, List.append_nil], Or.inl rfl⟩

/-- Messages picked from a part of the script are among those picked from the whole of it. -/
theorem length_filter_take (p : Message → Bool) (c k : Nat) :
    (((script c).take k).filter p).length ≤ ((script c).filter p).length :=
  ((List.take_prefix k (script c)).filter p).length_le

theorem finish_once (q c k : Nat) {extra : List Message}
    (h : extra = [] ∨ extra = [.abort reason] ∨ ∃ q, k = 2 * q + 1 ∧ q ≤ 2 ∧ extra = [.finish q true]) :
    (((script c).take k ++ extra).filter (Message.isFinish q)).length ≤ 1 := by
  have hscript : ((script c).filter (Message.isFinish q)).length ≤ 1 := by
    by_cases h0 : 0 = q
    · simp [script, Message.isFinish, ← h0]
    by_cases h1 : 1 = q
    · simp [script, Message.isFinish, ← h1]
    by_cases h2 : 2 = q
    · simp [script, Message.isFinish, ← h2]
    simp [script, Message.isFinish, h0, h1, h2]
  have htake := (length_filter_take (Message.isFinish q) c k).trans hscript
  rcases h with rfl | rfl | ⟨q', rfl, hq', rfl⟩
  · rwa [List.append_nil]
  · rwa [List.filter_append, show [Message.abort reason].filter (Message.isFinish q) = [] from rfl,
      List.append_nil]
  · -- The questions finished before are the ones before the open one.
    by_cases heq : q' = q
    · subst heq
      obtain rfl | rfl | rfl : q' = 0 ∨ q' = 1 ∨ q' = 2 := by omega
      all_goals simp [script, Message.isFinish]
    · have hnone : [Message.finish q' true].filter (Message.isFinish q) = [] := by
        simp [Message.isFinish, heq]
      rwa [List.filter_append, hnone, List.append_nil]

/-- **Trace safety.** In every run the questions are Bootstrap 0, Call 1 of method 0 and Call 2 of
method 1, in this order, each at most once and none while another is open; a Finish is sent at most
once for each question, only when its Return comes while it is open, and releases the result
capabilities except for an accepted bootstrap result; calls go to the capability of that result; a
Release is sent at most once, of that capability with count one, directly after Finish 2; and nothing
follows a Release or an Abort. -/
theorem trace_safe {log : List Entry} {r : Client} (h : Run log r) : TraceSafe log := by
  obtain ⟨c, k, extra, hmessages, hextra⟩ := h.inv.follows
  have hquiet : ∀ p : Message → Bool, p (.abort reason) = false → (∀ q, p (.finish q true) = false) →
      extra.filter p = [] := by
    intro p habort hfinish
    rcases hextra with rfl | rfl | ⟨q, -, -, rfl⟩
    · rfl
    · simp [habort]
    · simp [hfinish]
  refine ⟨⟨c, ?_⟩, fun q => ?_, ?_, ?_, h.inv.allowed⟩
  · rw [hmessages, List.filter_append, hquiet _ rfl fun _ => rfl, List.append_nil]
    exact (List.take_prefix k (script c)).filter _
  · rw [hmessages]
    exact finish_once q c k hextra
  · rw [hmessages, List.filter_append, hquiet _ rfl fun _ => rfl, List.append_nil]
    exact length_filter_take _ c k
  · rw [hmessages, List.mem_append, not_or]
    refine ⟨fun hm => ?_, fun hm => ?_⟩
    · have := List.mem_of_mem_take hm
      simp [script] at this
    · rcases hextra with rfl | rfl | ⟨q, -, -, rfl⟩
      · cases hm
      · simp at hm
      · simp at hm

/-- A run that asks the first question and gets a frame that is none. -/
theorem trace_safe_abort :
    ∃ log r, Run log r ∧ messages log = [.bootstrap 0, .abort reason] ∧ TraceSafe log := by
  have h1 := Run.call .begin (fun _ => 0) .init (le_refl txMax)
  have h2 := Run.call (.receive []) (fun _ => 0) h1 (le_refl txMax)
  refine ⟨_, _, h2, ?_, trace_safe h2⟩
  have hsent : (Op.begin.run rpcInit (fun _ => 0) txMax).sent = [.bootstrap 0] := by decide +kernel
  have hrpc : (Op.begin.run rpcInit (fun _ => 0) txMax).rpc =
      { rpcInit with state := .bootstrapping } := by decide +kernel
  obtain ⟨out, hfail, habort⟩ := fail_abort (fun _ => 0) { rpcInit with state := .bootstrapping } .truncated
  have hreceive : (Op.receive []).run { rpcInit with state := .bootstrapping } (fun _ => 0) txMax =
      fail { rpcInit with state := .bootstrapping } .truncated true fun _ => 0 := rfl
  have hnil : messages [] = [] := rfl
  rw [messages_append, messages_append, hsent, hrpc, hreceive, hfail, Outcome.sent, habort, hnil]
  rfl

end EspCfTunnel.Rpc
