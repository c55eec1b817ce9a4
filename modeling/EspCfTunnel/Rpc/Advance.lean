import EspCfTunnel.Rpc.Trace

/-!
# Every received frame advances or fails closed

What `cf_rpc_receive` may do with a frame is to move on to the next state of a registration, or to
fail for good with the error it returns. Errors of the reader show up late: results are kept in the
client while the message is still being read, and the error is looked at again before anything is
answered. The postconditions below follow what a part of the client survives that (`Kept`).
-/

namespace EspCfTunnel.Rpc

open EspCfTunnel Framing Capnp StateLogic

/-! ## The error of a frame -/

theorem capnpSegment_error {frame : Bytes} {index : Nat} {rc : Result}
    (h : capnpSegment frame index = .error rc) : rc ≠ .ok := by
  unfold capnpSegment at h
  dsimp only at h
  split at h
  · cases h; simp
  split at h
  · cases h; simp
  split at h
  · cases h; simp
  split at h
  · cases h; simp
  split at h
  · next htotal =>
    cases h
    exact totalSize_error htotal
  split at h
  · cases h
    split <;> simp
  · cases h

/-- Where an error comes from. -/
theorem bind_error {ε α β : Type} {x : Except ε α} {f : α → Except ε β} {e : ε}
    (h : x >>= f = .error e) : x = .error e ∨ ∃ a, x = .ok a ∧ f a = .error e := by
  cases x with
  | error e' =>
    cases h
    exact Or.inl rfl
  | ok a => exact Or.inr ⟨a, rfl, h⟩

theorem readSegments_error {frame : Bytes} {k i : Nat} {rc : Result}
    (h : readSegments frame k i = .error rc) : rc ≠ .ok := by
  induction k generalizing i with
  | zero => cases h
  | succ k ih =>
    rw [readSegments] at h
    rcases bind_error h with hseg | ⟨s, -, h⟩
    · exact capnpSegment_error hseg
    rcases bind_error h with hrest | ⟨rest, -, h⟩
    · exact ih hrest
    · cases h

theorem cpReadInit_error {frame : Bytes} {rc : Result} (h : cpReadInit frame = .error rc) :
    rc ≠ .ok := by
  rcases bind_error h with hseg | ⟨s, -, h⟩
  · exact capnpSegment_error hseg
  rcases bind_error h with hrest | ⟨rest, -, h⟩
  · exact readSegments_error hrest
  · cases h

/-! ## What survives an error -/

/-- The parts of the client that only an accepted result changes. -/
structure Kept (r r' : Client) : Prop where
  haveCapability : r'.haveCapability = r.haveCapability
  connectionId : r'.connectionId = r.connectionId
  location : r'.location = r.location

theorem Kept.refl (r : Client) : Kept r r := ⟨rfl, rfl, rfl⟩

section
variable {r : Client}

/-- A result is accepted only while the reader has no error; any other result keeps the client. -/
def Guarded (r : Client) (p : Client × Result) (g : Reader) : Prop :=
  (p.2 = .ok ∧ g.error = .ok) ∨ Kept r p.1

theorem kept_guarded {P : Reader → Prop} {r' : Client} {rc : Result} (h : Kept r r') :
    Triple P (pure (r', rc)) (Guarded r) :=
  Triple.ret fun _ _ => Or.inr h

/-- The idiom that returns the error of the reader, if there is one. -/
theorem error_guarded {r' : Client} (h : Kept r r') {k : StateM Reader (Client × Result)}
    (hk : Triple (fun g => g.error = .ok) k (Guarded r)) :
    Triple (fun _ => True)
      (readerSource.error >>= fun e => if e ≠ .ok then pure (r', e) else k) (Guarded r) := by
  refine Triple.bind (Q := fun e g => g.error = e) (fun _ _ => rfl) fun e => ?_
  refine Triple.ite (fun _ => kept_guarded h) fun he => ?_
  obtain rfl : e = .ok := not_not.1 he
  exact hk

theorem bootstrapResult_guarded (payload : Value) :
    Triple (fun _ => True) (bootstrapResult readerSource r payload) (Guarded r) := by
  refine Triple.bind (any_triple _) fun content => Triple.bind (any_triple _) fun caps => ?_
  refine Triple.ite (fun _ => kept_guarded (.refl r)) fun _ => ?_
  refine Triple.bind (any_triple _) fun desc => Triple.bind (any_triple _) fun kind => ?_
  refine Triple.ite (fun _ => kept_guarded (.refl r)) fun _ => ?_
  refine Triple.bind (any_triple _) fun capability => error_guarded ?_ ?_
  · exact ⟨rfl, rfl, rfl⟩
  · exact Triple.ret fun _ hg => Or.inl ⟨rfl, hg⟩

theorem registrationFailure_guarded (details : Value) :
    Triple (fun _ => True) (registrationFailure readerSource r details) (Guarded r) := by
  refine Triple.bind (any_triple _) fun ns => Triple.bind (any_triple _) fun cause => ?_
  refine Triple.bind (any_triple _) fun _ => Triple.bind (any_triple _) fun retry => ?_
  refine error_guarded ?_ ?_
  · exact ⟨rfl, rfl, rfl⟩
  · exact Triple.ret fun _ hg => Or.inl ⟨rfl, hg⟩

theorem registrationSuccess_guarded (details : Value) :
    Triple (fun _ => True) (registrationSuccess readerSource r details) (Guarded r) := by
  refine Triple.bind (any_triple _) fun id => Triple.bind (any_triple _) fun id => ?_
  refine Triple.bind (any_triple _) fun loc => Triple.bind (any_triple _) fun location => ?_
  refine Triple.bind (any_triple _) fun managed => error_guarded ?_ ?_
  · exact ⟨rfl, rfl, rfl⟩
  refine Triple.ite (fun _ => kept_guarded ⟨rfl, rfl, rfl⟩) fun _ => ?_
  refine Triple.ite (fun _ => kept_guarded ⟨rfl, rfl, rfl⟩) fun _ => ?_
  exact Triple.ret fun _ hg => Or.inl ⟨rfl, hg⟩

theorem registrationResult_guarded (payload : Value) :
    Triple (fun _ => True) (registrationResult readerSource r payload) (Guarded r) := by
  refine Triple.bind (any_triple _) fun _ => Triple.bind (any_triple _) fun results => ?_
  refine Triple.bind (any_triple _) fun _ => Triple.bind (any_triple _) fun response => ?_
  refine Triple.bind (any_triple _) fun kind => Triple.bind (any_triple _) fun _ => ?_
  refine Triple.bind (any_triple _) fun details => error_guarded (.refl r) ?_
  refine Triple.ite (fun _ => ?_) fun _ => ?_
  · exact (registrationFailure_guarded details).pre fun _ _ => trivial
  refine Triple.ite (fun _ => kept_guarded (.refl r)) fun _ => ?_
  exact (registrationSuccess_guarded details).pre fun _ _ => trivial

theorem questionResult_guarded (payload : Value) :
    Triple (fun _ => True) (questionResult readerSource r payload) (Guarded r) := by
  refine Triple.ite (fun _ => bootstrapResult_guarded payload) fun _ => ?_
  refine Triple.bind (any_triple _) fun caps => ?_
  refine Triple.ite (fun _ => kept_guarded (.refl r)) fun _ => ?_
  refine Triple.ite (fun _ => registrationResult_guarded payload) fun _ => ?_
  -- The state is `CLOSED` here before the error is looked at; nothing that is kept changes.
  exact Triple.bind (any_triple _) fun content => kept_guarded ⟨rfl, rfl, rfl⟩

/-- A verdict against the frame has an error, and keeps the client. -/
def FailsClosed (r : Client) (p : Client × Verdict) : Prop :=
  match p.2 with
  | .fail e _ => e ≠ .ok ∧ Kept r p.1
  | .exception _ e => e ≠ .ok ∧ Kept r p.1
  | .done _ _ => True

theorem state_or_ne_ok (e : Result) : (if e = .ok then .state else e) ≠ Result.ok := by
  split
  · simp
  · assumption

theorem failed_closed {P : Reader → Prop} {e : Result} {abortPeer : Bool} (h : e ≠ .ok) :
    Triple P (pure (r, .fail e abortPeer)) fun p _ => FailsClosed r p :=
  Triple.ret fun _ _ => ⟨h, .refl r⟩

theorem readReturn_closed (ret : Value) :
    Triple (fun _ => True) (readReturn readerSource r ret) fun p _ => FailsClosed r p := by
  refine Triple.ite (fun _ => failed_closed (by simp)) fun _ => ?_
  refine Triple.bind (any_triple _) fun id => Triple.bind (any_triple _) fun resultKind => ?_
  refine Triple.bind (any_triple _) fun e => Triple.ite (fun he => failed_closed he) fun _ => ?_
  refine Triple.ite (fun _ => failed_closed (by simp)) fun _ => Triple.ite (fun _ => ?_) fun _ => ?_
  · refine Triple.bind (any_triple _) fun ex => Triple.bind (any_triple _) fun _ => ?_
    refine Triple.bind (any_triple _) fun text => Triple.bind (any_triple _) fun _ => ?_
    exact Triple.bind (any_triple _) fun e => Triple.ret fun _ _ => ⟨state_or_ne_ok e, .refl r⟩
  refine Triple.ite (fun _ => failed_closed (by simp)) fun _ => ?_
  refine Triple.bind (any_triple _) fun payload => Triple.bind (any_triple _) fun _ => ?_
  refine Triple.bind (questionResult_guarded _) fun p => ?_
  refine Triple.bind (Q := fun e g => g.error = e ∧ Guarded r p g) (fun _ h => ⟨rfl, h⟩) fun e => ?_
  refine Triple.ite (fun hrc => Triple.ret fun g hg => ⟨hrc, ?_⟩) fun _ => Triple.ret fun _ _ => trivial
  obtain ⟨rfl, ⟨hok, herror⟩ | hkept⟩ := hg
  · rw [if_neg (not_not.2 herror)] at hrc
    exact absurd hok hrc
  · exact hkept

theorem readMessage_closed :
    Triple (fun _ => True) (readMessage readerSource r) fun p _ => FailsClosed r p := by
  refine Triple.bind (any_triple _) fun _ => Triple.bind (any_triple _) fun root => ?_
  refine Triple.bind (any_triple _) fun kind => Triple.bind (any_triple _) fun _ => ?_
  refine Triple.bind (any_triple _) fun ret => Triple.bind (any_triple _) fun e => ?_
  refine Triple.ite (fun he => failed_closed he) fun _ => Triple.ite (fun _ => ?_) fun _ => ?_
  · refine Triple.bind (any_triple _) fun text => Triple.bind (any_triple _) fun _ => ?_
    exact Triple.bind (any_triple _) fun e => failed_closed (state_or_ne_ok e)
  exact Triple.ite (fun _ => failed_closed (by simp)) fun _ => readReturn_closed ret

end

/-! ## What a received frame leads to -/

/-- The moves of a registration when the Return of the open question is accepted. -/
inductive Moves : State → State → Prop
  | ready : Moves .bootstrapping .ready
  | registered : Moves .registering .registered
  | rejected : Moves .registering .rejected
  | closed : Moves .unregistering .closed

/-- What a received frame leads to: the next state, or a failure that the client reports. -/
inductive Received (r : Client) (o : Outcome) : Prop
  | advanced : o.result = .ok → Moves r.state o.rpc.state → Received r o
  | failed : o.result ≠ .ok → o.result = o.rpc.error → o.rpc.state = .failed → Kept r o.rpc →
      Received r o

/-- An accepted result moves the client on. -/
theorem readMessage_moves {r r' : Client} {g : Reader} {id : Nat} {boot : Bool}
    (h : (readMessage readerSource r g).1 = (r', .done id boot)) : Moves r.state r'.state := by
  rcases readMessage_cases h with ⟨e, abortPeer, hv⟩ | ⟨hwait, which, ret, g', hret, hrest⟩
  · cases hv
  rcases hrest with ⟨-, e, -, hv⟩ | ⟨hzero, -, hresult⟩
  · cases hv
  obtain ⟨hboot, hreg, hunreg⟩ := hresult.client hzero hret
  rcases hwait with hs | hs | hs
  · rw [hs, (hboot hs).2]
    exact .ready
  · have hstate : r'.state = .registered ∨ r'.state = .rejected := by simpa using (hreg hs).2
    rcases hstate with hstate | hstate
    · rw [hs, hstate]
      exact .registered
    · rw [hs, hstate]
      exact .rejected
  · rw [hs, (hunreg hs).2]
    exact .closed

section
variable (out : Mem)

theorem answer_accepted (r : Client) (id : Nat) (boot : Bool) :
    (answer out (r, .done id boot)).result = .ok ∧
      (answer out (r, .done id boot)).rpc.state = r.state := by
  obtain ⟨out', hfinish, -⟩ := finish_built out id (!boot)
  obtain ⟨tail, hrelease, -⟩ := releaseCap_built (tailMem out' 40) r (show 40 ≤ txMax - 40 by decide)
    (by simp)
  rw [answer, hfinish]
  dsimp only
  split
  · rw [hrelease]
    exact ⟨rfl, rfl⟩
  · exact ⟨rfl, rfl⟩

/-- A failure is reported by the client and by the call, and is final. -/
theorem fail_received {r r' : Client} {e : Result} (abortPeer : Bool) (he : e ≠ .ok)
    (hkept : Kept r r') : Received r (fail r' e abortPeer out) := by
  have hkept' : Kept r { r' with error := e, state := .failed } :=
    ⟨hkept.haveCapability, hkept.connectionId, hkept.location⟩
  cases abortPeer with
  | false => exact .failed he rfl rfl hkept'
  | true =>
    obtain ⟨out', heq, -⟩ := fail_abort out r' e
    rw [heq]
    exact .failed he rfl rfl hkept'

theorem rpcReceive_received {r : Client} {cap : Nat} (hroom : txMax ≤ cap) (hdeaf : ¬ r.state.deaf)
    (frame : Bytes) : Received r (rpcReceive r frame out cap) := by
  rw [rpcReceive, if_neg (by omega), if_neg hdeaf]
  cases hinit : cpReadInit frame with
  | error rc => exact fail_received out true (cpReadInit_error hinit) (.refl r)
  | ok g =>
    dsimp only
    obtain ⟨⟨r', v⟩, hread⟩ : ∃ p, (readMessage readerSource r g).1 = p := ⟨_, rfl⟩
    have hclosed : FailsClosed r (readMessage readerSource r g).1 := readMessage_closed g trivial
    rw [hread] at hclosed ⊢
    cases v with
    | fail e abortPeer => exact fail_received out abortPeer hclosed.1 hclosed.2
    | exception id e =>
      obtain ⟨he, hkept⟩ := hclosed
      rw [answer]
      generalize finish id true out txMax = o
      exact .failed he rfl rfl ⟨hkept.haveCapability, hkept.connectionId, hkept.location⟩
    | done id boot =>
      obtain ⟨hok, hstate⟩ := answer_accepted out r' id boot
      refine .advanced hok ?_
      rw [hstate]
      exact readMessage_moves hread

end

/-! ## What is sent -/

/-- The bytes are at most two frames one after another, each accepted by the reader. -/
def Framed (bs : Bytes) : Prop :=
  ∃ frames : List Bytes, frames.length ≤ 2 ∧ bs = frames.flatten ∧
    ∀ frame ∈ frames, ∃ g, cpReadInit frame = .ok g

theorem Framed.nothing (out : Mem) : Framed (out.read 0 0) := ⟨[], by simp, rfl, by simp⟩

theorem Encodes.accepted {frame : Bytes} {node : Node} (h : Encodes frame node) :
    ∃ g, cpReadInit frame = .ok g := by
  obtain ⟨g, -, hinit, -⟩ := h
  exact ⟨g, hinit⟩

theorem Encodes.framed {frame : Bytes} {node : Node} (h : Encodes frame node) : Framed frame :=
  ⟨[frame], by simp, by simp, by simpa using h.accepted⟩

/-- The bytes that a call leaves for the peer. -/
def Outcome.Sound (o : Outcome) : Prop := o.n ≤ txMax ∧ Framed (o.out.read 0 o.n)

theorem sound_zero (r : Client) (rc : Result) (out : Mem) : (⟨r, rc, out, 0⟩ : Outcome).Sound :=
  ⟨Nat.zero_le _, .nothing out⟩

section
variable (out : Mem)

/-- A message that is built is a frame, and an error leaves nothing. -/
theorem build_sound {node : Node} (hnode : node.WellTyped) {x : StateM Builder Unit}
    (hx : Does [.fill 0 node] x fun _ => []) {rc : Result} {n : Nat} {out' : Mem}
    (h : build out txMax x = ((rc, n), out')) (r : Client) :
    (⟨r, rc, out', n⟩ : Outcome).Sound ∧ (rc ≠ .ok → n = 0) := by
  have hlength := build_length out hnode hx
  have hbuilt := build_built hnode hx out (show 16 ≤ txMax by decide) (by decide)
  rw [h] at hlength hbuilt
  cases hbuilt with
  | frame _ henc => exact ⟨⟨hlength, henc.framed⟩, fun hrc => absurd rfl hrc⟩
  | nothing => exact ⟨sound_zero r rc out', fun _ => rfl⟩

theorem rpcBegin_sound (r : Client) (cap : Nat) : (rpcBegin r out cap).Sound := by
  have hnode : bootstrapNode.WellTyped := by
    simp [bootstrapNode, messageNode, Node.WellTyped, wellTypedAll, Field.Fits]
  unfold rpcBegin
  split
  · exact sound_zero r _ out
  split
  · exact sound_zero r _ out
  obtain ⟨⟨⟨rc, n⟩, out'⟩, heq⟩ : ∃ p, build out txMax (do let _ ← message 8 1 1) = p := ⟨_, rfl⟩
  have hsound := (build_sound out hnode bootstrapBody_does heq
    (if rc = .ok then { r with state := .bootstrapping } else r)).1
  rw [heq]
  exact hsound

theorem rpcRegister_sound (r : Client) (cred : Credentials) (opt : Options) (cap : Nat) :
    (rpcRegister r cred opt out cap).Sound := by
  have hnode := wellTyped_callNode r.capability 1 0 (wellTyped_registerNode cred opt)
  unfold rpcRegister
  split
  · exact sound_zero r _ out
  split
  · exact sound_zero r _ out
  split
  · exact sound_zero r _ out
  obtain ⟨⟨⟨rc, n⟩, out'⟩, heq⟩ : ∃ p, build out txMax (registerBody r.capability cred opt) = p := ⟨_, rfl⟩
  obtain ⟨hsound, hfailed⟩ :=
    build_sound out hnode (registerBody_does r.capability cred opt) heq { r with state := .registering }
  rw [heq]
  dsimp only
  split
  · exact hsound
  · next hrc =>
    -- The message that does not fit is wiped.
    obtain rfl := hfailed hrc
    exact sound_zero r rc _

theorem rpcUnregister_sound (r : Client) (cap : Nat) : (rpcUnregister r out cap).Sound := by
  have hcontent : (Node.struct 0 [] []).WellTyped := by simp [Node.WellTyped, wellTypedAll]
  have hnode := wellTyped_callNode r.capability 2 1 hcontent
  unfold rpcUnregister
  split
  · exact sound_zero r _ out
  split
  · exact sound_zero r _ out
  obtain ⟨⟨⟨rc, n⟩, out'⟩, heq⟩ : ∃ p, build out txMax (unregisterBody r.capability) = p := ⟨_, rfl⟩
  have hsound := (build_sound out hnode (unregisterBody_does r.capability) heq
    (if rc = .ok then { r with state := .unregistering } else r)).1
  rw [heq]
  exact hsound

theorem answer_framed (r : Client) (v : Verdict) :
    Framed ((answer out (r, v)).out.read 0 (answer out (r, v)).n) := by
  cases v with
  | fail error abortPeer =>
    cases abortPeer with
    | false => exact .nothing out
    | true =>
      obtain ⟨out', hbuild, henc⟩ := abort_built out
      rw [answer, fail, if_pos rfl, hbuild]
      exact henc.framed
  | exception id error =>
    obtain ⟨out', hfinish, henc⟩ := finish_built out id true
    rw [answer, hfinish]
    exact henc.framed
  | done id boot =>
    obtain ⟨out', hfinish, henc⟩ := finish_built out id (!boot)
    obtain ⟨tail, hrelease, henc'⟩ := releaseCap_built (tailMem out' 40) r
      (show 40 ≤ txMax - 40 by decide) (by decide)
    rw [answer, hfinish]
    dsimp only
    split
    · rw [hrelease]
      refine ⟨[out'.read 0 40, tail.read 0 40], le_rfl, read_spliceMem out' tail 40 40, ?_⟩
      intro frame hframe
      rcases List.mem_pair.1 hframe with rfl | rfl
      · exact henc.accepted
      · exact henc'.accepted
    · exact henc.framed

theorem rpcReceive_sound (r : Client) (frame : Bytes) (cap : Nat) :
    (rpcReceive r frame out cap).Sound := by
  refine ⟨(rpcReceive_length out frame).trans (by decide), ?_⟩
  unfold rpcReceive
  split
  · exact .nothing out
  split
  · exact .nothing out
  split
  · next rc _ => exact answer_framed out r (.fail rc true)
  · exact answer_framed out _ _

theorem Op.sound (op : Op) (r : Client) (cap : Nat) : (op.run r out cap).Sound := by
  cases op with
  | begin => exact rpcBegin_sound out r cap
  | register cred opt => exact rpcRegister_sound out r cred opt cap
  | unregister => exact rpcUnregister_sound out r cap
  | receive frame => exact rpcReceive_sound out r frame cap

end

/-! ## The main result -/

/-- Any call on a client, with any buffer. -/
def Calls (r r' : Client) : Prop := ∃ (op : Op) (out : Mem) (cap : Nat), (op.run r out cap).rpc = r'

/-- The states that no call leaves. -/
def State.final (s : State) : Bool := s = .failed ∨ s = .closed ∨ s = .rejected

/-- What the calls on a client with a buffer of `cap` bytes at `out` do. -/
structure AdvancesOrFails (r : Client) (out : Mem) (cap : Nat) : Prop where
  deaf : r.state = .idle ∨ r.state = .failed ∨ r.state = .closed ∨ r.state = .rejected →
    ∀ frame, rpcReceive r frame out cap = ⟨r, .state, out, 0⟩
  begin : r.state ≠ .idle → rpcBegin r out cap = ⟨r, .state, out, 0⟩
  register : r.state ≠ .ready → ∀ cred opt, rpcRegister r cred opt out cap = ⟨r, .state, out, 0⟩
  unregister : r.state ≠ .registered → rpcUnregister r out cap = ⟨r, .state, out, 0⟩
  final : r.state.final → ∀ r', Relation.ReflTransGen Calls r r' → r' = r
  receive : ¬ (r.state = .idle ∨ r.state = .failed ∨ r.state = .closed ∨ r.state = .rejected) →
    ∀ frame, Received r (rpcReceive r frame out cap)
  sound : ∀ op : Op, (op.run r out cap).Sound

/-- A call out of its state returns at once. -/
theorem Op.run_final {r : Client} (h : r.state.final) (op : Op) (out : Mem) (cap : Nat) :
    (op.run r out cap).rpc = r := by
  unfold State.final at h
  cases op with
  | begin =>
    have hstate : r.state ≠ .idle := by
      intro hs
      simp [hs] at h
    rw [Op.run, rpcBegin, if_pos hstate]
    split <;> rfl
  | register cred opt =>
    have hstate : r.state ≠ .ready := by
      intro hs
      simp [hs] at h
    rw [Op.run, rpcRegister, if_pos (Or.inl hstate)]
    split <;> rfl
  | unregister =>
    have hstate : r.state ≠ .registered := by
      intro hs
      simp [hs] at h
    rw [Op.run, rpcUnregister, if_pos (Or.inl hstate)]
    split <;> rfl
  | receive frame =>
    have hdeaf : r.state.deaf = true := by
      unfold State.deaf
      simp only [decide_eq_true_eq] at h ⊢
      exact Or.inr h
    exact (rpcReceive_deaf out frame hdeaf).2

theorem calls_final {r r' : Client} (h : r.state.final) (hcalls : Relation.ReflTransGen Calls r r') :
    r' = r := by
  induction hcalls with
  | refl => rfl
  | tail _ hcall ih =>
    subst ih
    obtain ⟨op, out, cap, rfl⟩ := hcall
    exact op.run_final h out cap

/-- **Every received frame advances or fails closed.** For any client, and so for every one that
calls lead to, with an output buffer of at least 1024 bytes: `cf_rpc_receive` refuses any frame in a
state that takes none, as the other calls do out of their states, and leaves the client as it is, so
that no call leaves a failed, closed or rejected client; in any other state it moves on to the next
state, or returns the error with which the client is failed, without touching the capability flag, the
connection id and the location. What is written are at most two frames that the reader accepts. -/
theorem receive_advances_or_fails (r : Client) (out : Mem) {cap : Nat} (hroom : txMax ≤ cap) :
    AdvancesOrFails r out cap where
  deaf h frame := by
    have hdeaf : r.state.deaf = true := by
      unfold State.deaf
      exact decide_eq_true h
    rw [rpcReceive, if_neg (by omega), if_pos hdeaf]
  begin h := by rw [rpcBegin, if_neg (by omega), if_pos h]
  register h cred opt := by rw [rpcRegister, if_neg (by omega), if_pos (Or.inl h)]
  unregister h := by rw [rpcUnregister, if_neg (by omega), if_pos (Or.inl h)]
  final h _ hcalls := calls_final h hcalls
  receive h frame := by
    refine rpcReceive_received out hroom ?_ frame
    unfold State.deaf
    rwa [decide_eq_true_eq]
  sound op := op.sound out r cap

/-- A bootstrapping client that gets an empty frame. -/
theorem receive_advances_or_fails_empty :
    let r : Client := { rpcInit with state := .bootstrapping }
    txMax ≤ 1024 ∧ AdvancesOrFails r (fun _ => 0) 1024 ∧
      (rpcReceive r [] (fun _ => 0) 1024).rpc.state = .failed ∧
      (rpcReceive r [] (fun _ => 0) 1024).rpc.error = .truncated := by
  intro r
  refine ⟨le_rfl, receive_advances_or_fails r _ le_rfl, ?_, ?_⟩
  · decide +kernel
  · decide +kernel

end EspCfTunnel.Rpc
