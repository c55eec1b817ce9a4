import EspCfTunnel.Rpc.Trace
import Mathlib.Algebra.Order.Floor.Div
import Mathlib.GroupTheory.GroupAction.Ring

/-!
# Rejected registrations

A Return with the error of a registration carries `retryAfter`, a Go duration: signed nanoseconds.
`retryAfter` reads that field from a frame, and `cf_rpc_receive` keeps it in milliseconds, rounded up,
with nothing for a negative duration.
-/

namespace EspCfTunnel.Rpc

open EspCfTunnel Framing Capnp StateLogic

section
variable {σ V : Type} (S : Source σ V)

/-- The field `retryAfter` of the error in a payload. -/
def errorDelay (payload : V) : StateM σ Nat := do
  let _ ← S.field payload 1
  let results ← requiredStruct S (← S.field payload 0)
  let response ← requiredStruct S (← S.field results 0)
  let _ ← S.uint response 0 2
  let details ← requiredStruct S (← S.field response 0)
  let _ ← S.error
  S.uint details 0 8

/-- The same field of a Return with results. -/
def returnedDelay : StateM σ (Option Nat) := do
  match ← returnOf S with
  | none => return none
  | some (_, which, ret) =>
    if which ≠ 0 then return none
    let payload ← requiredStruct S (← S.field ret 0)
    return some (← errorDelay S payload)

end

/-- A number of 64 bits with a sign. -/
def signed64 (n : Nat) : Int := if n < 2 ^ 63 then n else n - 2 ^ 64

/-- The field `retryAfter` of the error in a frame that holds a Return, in nanoseconds. -/
def retryAfter (frame : Bytes) : Option Int :=
  match cpReadInit frame with
  | .error _ => none
  | .ok g => (returnedDelay readerSource g).1.map signed64

section
variable {σ V : Type} {S : Source σ V} {r r' : Client} {s s' : σ}

/-- What the client keeps of a delay. -/
def delayMs (ns : Nat) : Nat :=
  if ns / 2 ^ 63 ≠ 0 then 0 else ns / 1000000 + if ns % 1000000 ≠ 0 then 1 else 0

theorem registrationFailure_delay {details : V}
    (h : registrationFailure S r details s = ((r', .ok), s')) :
    r'.retryAfterMs = delayMs (S.uint details 0 8 s).1 := by
  unfold registrationFailure at h
  obtain ⟨ns, t₁, g₁⟩ : ∃ a s', S.uint details 0 8 s = (a, s') := ⟨_, _, rfl⟩
  obtain ⟨cause, t₂, g₂⟩ : ∃ a s', S.field details 0 t₁ = (a, s') := ⟨_, _, rfl⟩
  obtain ⟨data, t₃, g₃⟩ : ∃ a s', S.data cause true t₂ = (a, s') := ⟨_, _, rfl⟩
  obtain ⟨retry, t₄, g₄⟩ : ∃ a s', S.uint details 8 1 t₃ = (a, s') := ⟨_, _, rfl⟩
  obtain ⟨error, t₅, g₅⟩ : ∃ a s', S.error t₄ = (a, s') := ⟨_, _, rfl⟩
  rw [run_bind_eq g₁, run_bind_eq g₂, run_bind_eq g₃, run_bind_eq g₄] at h
  dsimp only at h
  rw [run_bind_eq g₅] at h
  rw [g₁]
  by_cases herr : error ≠ .ok
  · rw [if_pos herr] at h
    exact absurd (congrArg (fun p => p.1.2) h) herr
  · rw [if_neg herr] at h
    obtain rfl : _ = r' := congrArg (fun p => p.1.1) h
    rfl

theorem registrationSuccess_state {details : V}
    (h : registrationSuccess S r details s = ((r', .ok), s')) : r'.state = .registered := by
  have hspec : Triple (fun _ => True) (registrationSuccess S r details) fun p _ =>
      p.2 = .ok → p.1.state = .registered := by
    have herror : ∀ {r₁ : Client} {rc : Result}, rc ≠ .ok →
        Triple (fun _ : σ => True) (pure (r₁, rc)) fun p _ => p.2 = .ok → p.1.state = .registered :=
      fun hrc => Triple.ret fun _ _ h => absurd h hrc
    refine Triple.bind (any_triple _) fun id => Triple.bind (any_triple _) fun id => ?_
    refine Triple.bind (any_triple _) fun loc => Triple.bind (any_triple _) fun location => ?_
    refine Triple.bind (any_triple _) fun managed => Triple.bind (any_triple _) fun error => ?_
    refine Triple.ite (fun he => herror he) fun _ => ?_
    refine Triple.ite (fun _ => herror Result.noConfusion) fun _ => ?_
    refine Triple.ite (fun _ => herror Result.noConfusion) fun _ => ?_
    exact Triple.ret fun _ _ _ => rfl
  have hstate := hspec s trivial
  rw [h] at hstate
  exact hstate rfl

/-- A rejection comes from the error of a registration. -/
theorem callResult_delay {payload : V} (h : callResult S r 1 payload s = ((r', .ok), s'))
    (hstate : r'.state = .rejected) : r'.retryAfterMs = delayMs (errorDelay S payload s).1 := by
  have hreject : ∀ {r₁ : Client} {rc : Result} {t : σ}, rc ≠ .ok →
      ((r₁, rc), t) = ((r', .ok), s') → False :=
    fun hrc heq => hrc (congrArg (fun p => p.1.2) heq)
  unfold callResult registrationResult at h
  obtain ⟨caps, t₁, g₁⟩ : ∃ a s', S.field payload 1 s = (a, s') := ⟨_, _, rfl⟩
  obtain ⟨results₀, t₂, g₂⟩ : ∃ a s', S.field payload 0 t₁ = (a, s') := ⟨_, _, rfl⟩
  obtain ⟨results, t₃, g₃⟩ : ∃ a s', requiredStruct S results₀ t₂ = (a, s') := ⟨_, _, rfl⟩
  obtain ⟨response₀, t₄, g₄⟩ : ∃ a s', S.field results 0 t₃ = (a, s') := ⟨_, _, rfl⟩
  obtain ⟨response, t₅, g₅⟩ : ∃ a s', requiredStruct S response₀ t₄ = (a, s') := ⟨_, _, rfl⟩
  obtain ⟨kind, t₆, g₆⟩ : ∃ a s', S.uint response 0 2 t₅ = (a, s') := ⟨_, _, rfl⟩
  obtain ⟨details₀, t₇, g₇⟩ : ∃ a s', S.field response 0 t₆ = (a, s') := ⟨_, _, rfl⟩
  obtain ⟨details, t₈, g₈⟩ : ∃ a s', requiredStruct S details₀ t₇ = (a, s') := ⟨_, _, rfl⟩
  obtain ⟨error, t₉, g₉⟩ : ∃ a s', S.error t₈ = (a, s') := ⟨_, _, rfl⟩
  rw [run_bind_eq g₁] at h
  split at h
  · exact (hreject Result.noConfusion h).elim
  rw [if_pos rfl, run_bind_eq g₂, run_bind_eq g₃, run_bind_eq g₄, run_bind_eq g₅, run_bind_eq g₆,
    run_bind_eq g₇, run_bind_eq g₈, run_bind_eq g₉] at h
  have hdelay : (errorDelay S payload s).1 = (S.uint details 0 8 t₉).1 := by
    unfold errorDelay
    rw [run_bind_eq g₁, run_bind_eq g₂, run_bind_eq g₃, run_bind_eq g₄, run_bind_eq g₅,
      run_bind_eq g₆, run_bind_eq g₇, run_bind_eq g₈, run_bind_eq g₉]
  rw [hdelay]
  by_cases herr : error ≠ .ok
  · rw [if_pos herr] at h
    exact (hreject herr h).elim
  rw [if_neg herr] at h
  by_cases hzero : kind = 0
  · rw [if_pos hzero] at h
    exact registrationFailure_delay h
  rw [if_neg hzero] at h
  by_cases hone : kind ≠ 1
  · rw [if_pos hone] at h
    exact (hreject Result.noConfusion h).elim
  rw [if_neg hone] at h
  rw [registrationSuccess_state h] at hstate
  cases hstate

end

/-- The delay is rounded up to milliseconds, and a negative one is none. -/
theorem delayMs_eq {ns : Nat} (h : ns < 2 ^ 64) : delayMs ns = (signed64 ns).toNat ⌈/⌉ 1000000 := by
  rw [Nat.ceilDiv_eq_add_pred_div, delayMs, signed64]
  by_cases hsign : ns < 2 ^ 63
  · rw [if_neg (not_not.2 (Nat.div_eq_of_lt hsign)), if_pos hsign, Int.toNat_natCast]
    split <;> omega
  · rw [if_pos (by omega), if_neg hsign]
    omega

theorem returnedDelay_lt {g : Reader} {ns : Nat} (h : (returnedDelay readerSource g).1 = some ns) :
    ns < 2 ^ 64 := by
  have hdelay : ∀ payload, Triple (fun _ => True) (errorDelay readerSource payload) fun n _ =>
      n < 2 ^ 64 := by
    intro payload
    refine Triple.bind (any_triple _) fun _ => Triple.bind (any_triple _) fun _ => ?_
    refine Triple.bind (any_triple _) fun _ => Triple.bind (any_triple _) fun _ => ?_
    refine Triple.bind (any_triple _) fun _ => Triple.bind (any_triple _) fun _ => ?_
    refine Triple.bind (any_triple _) fun _ => Triple.bind (any_triple _) fun details => ?_
    exact Triple.bind (any_triple _) fun _ g _ => cpUint_lt details 0 8 g
  have hnone : Triple (fun _ => True) (pure (none : Option Nat)) fun o (_ : Reader) =>
      ∀ n ∈ o, n < 2 ^ 64 := Triple.ret fun _ _ n hn => by cases hn
  have hspec : Triple (fun _ => True) (returnedDelay readerSource) fun o _ => ∀ n ∈ o, n < 2 ^ 64 := by
    refine Triple.bind (any_triple _) fun o => ?_
    match o with
    | none => exact hnone
    | some (_, which, ret) =>
      refine Triple.ite (fun _ => hnone) fun _ => ?_
      refine Triple.bind (any_triple _) fun _ => Triple.bind (any_triple _) fun payload => ?_
      refine Triple.bind (hdelay payload) fun n => Triple.ret fun _ hn m hm => ?_
      obtain rfl : n = m := Option.some.inj hm
      exact hn
  exact hspec g trivial ns h

theorem fail_state (r : Client) (error : Result) (abortPeer : Bool) (out : Mem) :
    (fail r error abortPeer out).rpc.state = .failed := by
  unfold fail
  split <;> rfl

/-- A rejected client has accepted the error of a registration. -/
theorem readMessage_rejected {r r' : Client} {v : Verdict} {g : Reader} {out : Mem}
    (hread : (readMessage readerSource r g).1 = (r', v))
    (hstate : (answer out (r', v)).rpc.state = .rejected) :
    (answer out (r', v)).rpc = r' ∧ ∃ ns, (returnedDelay readerSource g).1 = some ns ∧
      r'.retryAfterMs = delayMs ns := by
  rcases readMessage_cases hread with ⟨e, abortPeer, rfl⟩ | ⟨hwait, which, ret, g', hret, hrest⟩
  · exact absurd ((fail_state r' e abortPeer out).symm.trans hstate) (by simp)
  rcases hrest with ⟨rfl, e, he, rfl⟩ | ⟨hzero, rfl, hresult⟩
  · obtain ⟨out', heq, -⟩ := answer_exception out r' (expectedAnswer_lt r'.state) e
    rw [heq] at hstate
    cases hstate
  have hclosed : r'.state ≠ .closed := by
    intro hc
    unfold answer at hstate
    dsimp only at hstate
    split at hstate
    · exact absurd (hc.symm.trans hstate) (by simp)
    · exact absurd (hc.symm.trans hstate) (by simp)
  obtain ⟨out', heq, -⟩ := answer_done out r' (expectedAnswer_lt r.state) (r.state = .bootstrapping)
    hclosed
  rw [heq] at hstate ⊢
  refine ⟨rfl, ?_⟩
  have hstate : r'.state = .rejected := hstate
  obtain ⟨hboot, -, hunreg⟩ := hresult.client hzero hret
  rcases hwait with hs | hs | hs
  · exact absurd ((hboot hs).2.symm.trans hstate) (by simp)
  · obtain ⟨payload, s₁, s₂, hpay, hquestion⟩ := hresult
    rw [questionResult, if_neg (by simp [hs]), hs] at hquestion
    refine ⟨(errorDelay readerSource payload s₁).1, ?_, callResult_delay hquestion hstate⟩
    unfold returnedDelay
    rw [run_bind_eq hret]
    dsimp only
    rw [if_neg (not_not.2 hzero)]
    obtain ⟨p₀, t₁, g₁⟩ : ∃ a s', readerSource.field ret 0 g' = (a, s') := ⟨_, _, rfl⟩
    rw [run_bind_eq g₁] at hpay ⊢
    rw [run_bind_eq hpay, run_bind, run_pure]
  · exact absurd ((hunreg hs).2.symm.trans hstate) (by simp)

/-- A Return that rejects a registration: the client keeps its delay. -/
theorem rpcReceive_delay {r : Client} {frame : Bytes} {out : Mem} {cap : Nat}
    (hok : (rpcReceive r frame out cap).result = .ok)
    (hstate : (rpcReceive r frame out cap).rpc.state = .rejected) :
    ∃ d, retryAfter frame = some d ∧
      (rpcReceive r frame out cap).rpc.retryAfterMs = d.toNat ⌈/⌉ 1000000 := by
  by_cases hroom : cap < txMax
  · rw [rpcReceive, if_pos hroom] at hok
    cases hok
  by_cases hdeaf : r.state.deaf = true
  · rw [rpcReceive, if_neg hroom, if_pos hdeaf] at hok
    cases hok
  rw [rpcReceive, if_neg hroom, if_neg hdeaf] at hstate ⊢
  cases hinit : cpReadInit frame with
  | error rc =>
    rw [hinit] at hstate
    dsimp only at hstate
    rw [fail_state] at hstate
    cases hstate
  | ok g =>
    rw [hinit] at hstate
    dsimp only at hstate ⊢
    obtain ⟨⟨r', v⟩, hread⟩ : ∃ p, (readMessage readerSource r g).1 = p := ⟨_, rfl⟩
    rw [hread] at hstate ⊢
    obtain ⟨heq, ns, hns, hdelay⟩ := readMessage_rejected hread hstate
    refine ⟨signed64 ns, ?_, ?_⟩
    · rw [retryAfter, hinit]
      dsimp only
      rw [hns]
      rfl
    · rw [heq, hdelay]
      exact delayMs_eq (returnedDelay_lt hns)

end EspCfTunnel.Rpc
