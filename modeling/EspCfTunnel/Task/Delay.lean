import EspCfTunnel.Lifecycle.Runs
import EspCfTunnel.Rpc.Rejection
import EspCfTunnel.Task.Runs

/-!
# The delay that a server asks for

A registration error says after how many nanoseconds the tunnel may try again. The delay goes
through the client, which rounds it, through `retry`, which cuts it to 32 bits, and through the
lifecycle, which waits for it whatever is reported in the meantime.
-/

namespace EspCfTunnel.Task

open EspCfTunnel StateLogic Lifecycle Config

/-- The least delay, in milliseconds, for a server that asks for `d` nanoseconds. -/
def leastDelay (d : Int) : Nat := min (2 ^ 32 - 1) (d.toNat ⌈/⌉ 1000000)

/-- What a retry at the time `now` makes of a lifecycle with `failures` failures, for a server that asks
for `d` nanoseconds: a backoff of at least that delay, which lasts until a tick at its end or a stop. -/
structure Honoured (d : Int) (failures now : Nat) (life : Life) : Prop where
  backoff : life.state = .backoff
  delay : ∃ delay, life.retryAtMs = min (2 ^ 64 - 1) (now + delay) ∧ leastDelay d ≤ delay ∧
    retryCeiling failures / 2 ≤ delay ∧ delay ≤ max (retryCeiling failures) (leastDelay d)
  lasts : ∀ ops : List Op, (∀ op ∈ ops, op.patient life.retryAtMs) →
    (runOps ops life).state = .backoff ∧ (runOps ops life).retryAtMs = life.retryAtMs ∧
      ∀ late ≥ life.retryAtMs, (lifecycleTick (runOps ops life) late).state =
        resume (lastReport ops (life.networkReady, life.timeReady))

theorem honoured_of_retry {d : Int} {l life : Life} {now random : Nat}
    (h : lifecycleRetry l now (leastDelay d) random = (life, .ok)) :
    Honoured d l.failures now life := by
  obtain ⟨hstate, hdelay⟩ := lifecycleRetry_ok (min_le_left _ _) h
  refine ⟨hstate, hdelay, fun ops hops => ?_⟩
  obtain ⟨hlast, huntil, hreport⟩ := backoff_lasts hstate hops
  refine ⟨hlast, huntil, fun late hlate => ?_⟩
  rw [tick_resumes hlast (by rw [huntil]; exact hlate), hreport]

section
variable {r : Rpc.Client} {frame : Bytes} {out : Mem} {cap : Nat} {d : Int}

/-- The hint of a client that has accepted a registration error. -/
theorem retryHint_of_rejected {o : Rpc.Outcome} (ho : o = Rpc.rpcReceive r frame out cap)
    (hok : o.result = .ok) (hrejected : o.rpc.state = .rejected)
    (hd : Rpc.retryAfter frame = some d) : retryHint o.rpc = leastDelay d := by
  subst ho
  obtain ⟨d', hd', hms⟩ := Rpc.rpcReceive_delay hok hrejected
  obtain rfl : d = d' := Option.some.inj (hd.symm.trans hd')
  rw [retryHint, if_pos hrejected, hms, leastDelay, min_comm]

theorem Sound.retried {service : Bytes} {history : List Note} (h : Sound service history) {t : Tunnel}
    {now random : Nat} {life : Life} (hmem : .retried t now random life ∈ history) :
    lifecycleRetry t.life now (retryHint t.rpc) random = (life, .ok) := by
  obtain ⟨later, before, heq⟩ := List.append_of_mem hmem
  rw [heq] at h
  exact h.split

/-- A `retry` that is not final. -/
theorem retry_eq {c : Ctx} (h : ¬ (c.t.rpc.state = .rejected ∧ !c.t.rpc.shouldRetry)) :
    retry c = closeConnection (retryLater c).2 := by
  unfold retry
  rw [run_bind_eq (run_get c)]
  dsimp only
  rw [if_neg h, run_bind]

/-- The server's delay is honoured: `retry` on a tunnel whose client has accepted a registration
error with `shouldRetry` puts the lifecycle in a backoff that keeps to it, and so does every
`cf_lifecycle_retry` that any run of the task makes with such a client. -/
theorem server_delay_honoured {o : Rpc.Outcome} (ho : o = Rpc.rpcReceive r frame out cap)
    (hok : o.result = .ok) (hrejected : o.rpc.state = .rejected) (hshould : o.rpc.shouldRetry = true)
    (hd : Rpc.retryAfter frame = some d) :
    (∀ c : Ctx, c.t.rpc = o.rpc → Retryable c.t.view →
      Honoured d c.t.life.failures (c.oracle.clock.headD 0) (retry c).2.t.life) ∧
      ∀ s w, Reach s w → ∀ t now random life, .retried t now random life ∈ w.history →
        t.rpc = o.rpc → Honoured d t.life.failures now life := by
  have hhint := retryHint_of_rejected ho hok hrejected hd
  refine ⟨fun c hrpc hretryable => ?_, fun s w hreach t now random life hmem hrpc => ?_⟩
  · obtain ⟨l, hl, -⟩ := lifecycleRetry_of_retryable hretryable (c.oracle.clock.headD 0)
      (retryHint c.t.rpc) (c.oracle.random.headD 0)
    rw [retry_eq (by rw [hrpc, hshould]; simp), (closeConnection_ending _).1.life, (retryLater_run hl).1]
    rw [hrpc, hhint] at hl
    exact honoured_of_retry hl
  · have hretry := hreach.inv.sound.retried hmem
    rw [hrpc, hhint] at hretry
    exact honoured_of_retry hretry

end

/-- The Return of a registration error: to be retried after 2500001 nanoseconds. -/
def sampleRejected : Bytes :=
  [0, 0, 0, 0, 13, 0, 0, 0] ++ [0, 0, 0, 0, 1, 0, 1, 0] ++ [3, 0, 0, 0, 0, 0, 0, 0] ++
    [0, 0, 0, 0, 1, 0, 1, 0] ++ [1, 0, 0, 0, 0, 0, 0, 0] ++ [0, 0, 0, 0, 0, 0, 2, 0] ++
    [4, 0, 0, 0, 0, 0, 1, 0] ++ [0, 0, 0, 0, 0, 0, 0, 0] ++ [0, 0, 0, 0, 1, 0, 1, 0] ++
    [0, 0, 0, 0, 0, 0, 0, 0] ++ [0, 0, 0, 0, 2, 0, 0, 0] ++ [161, 37, 38, 0, 0, 0, 0, 0] ++
    [1, 0, 0, 0, 0, 0, 0, 0] ++ [0, 0, 0, 0, 0, 0, 0, 0]

/-- A retry with the client. -/
def Note.retriesWith (r : Rpc.Client) : Note → Bool
  | .retried t _ _ _ => t.rpc = r
  | _ => false

/-- A run in which a registration is rejected and then retried. -/
theorem server_delay_honoured_sample :
    ∃ t now random life, .retried t now random life ∈ (sampleWorld (sampleConnect ++ [{ sampleReady with
      reads := [.bytes [.request ⟨1, .control, [], false⟩, .data 1 sampleBootstrap false,
        .data 1 sampleRejected false] true] }])).history ∧
      Honoured 2500001 t.life.failures now life := by
  obtain ⟨o, ho⟩ : ∃ o, o = Rpc.rpcReceive
    { Rpc.rpcInit with state := .registering, capability := 7, haveCapability := true }
    sampleRejected zeros Rpc.txMax := ⟨_, rfl⟩
  have hasks : (sampleWorld (sampleConnect ++ [{ sampleReady with
      reads := [.bytes [.request ⟨1, .control, [], false⟩, .data 1 sampleBootstrap false,
        .data 1 sampleRejected false] true] }])).history.any (Note.retriesWith o.rpc) = true := by
    rw [ho]
    decide +kernel
  have hkept := server_delay_honoured ho (by rw [ho]; decide +kernel) (by rw [ho]; decide +kernel)
    (by rw [ho]; decide +kernel) (show Rpc.retryAfter sampleRejected = some 2500001 by decide +kernel)
  obtain ⟨n, hmem, hn⟩ := List.any_eq_true.1 hasks
  cases n with
  | retried t now random life =>
    refine ⟨t, now, random, life, hmem, ?_⟩
    exact hkept.2 sampleSetup _ (sampleWorld_reach _) t now random life hmem (by simpa [Note.retriesWith] using hn)
  | _ => cases hn

end EspCfTunnel.Task
