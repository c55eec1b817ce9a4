import EspCfTunnel.Monitor.Commit
import EspCfTunnel.Monitor.Session

/-!
# Effects

An effect that a request asks for is carried out once: by the first tick that has the lock a second or
more after the last request that asked for one. A restart into new firmware is only carried out when the
slot with the announced image was selected, and nothing has happened to it since.
-/

namespace EspCfTunnel.Ota

open EspCfTunnel StateLogic History

/-! ## A finished update -/

section
variable {a : Answers} {f : Format} {sha : Bytes → Bytes} {s : State}

/-- What a finished update leaves: no upload, and the selection of the slot as the last thing that
happened. -/
structure Finished (s : State) : Prop where
  ready : s.upload.ready = true
  idle : s.upload.active = false
  boot : ∃ p before, s.log = .boot p :: before

theorem release_log (s : State) : (release s).2.log = s.log ∧ (release s).2.upload.active = false := by
  unfold release
  rw [run_bind, run_get]
  dsimp only
  cases s.upload.isOpen <;> exact ⟨rfl, rfl⟩

/-- A call of `monitor_ota_finish` that says it was successful has finished the update. -/
theorem finish_true {id : Option Bytes} (h : (finish a sha id s).1 = true) :
    Finished (finish a sha id s).2 := by
  have hrefuse (reason : String) (s' : State) :
      ((release >>= fun _ => fail reason) s').1 ≠ true := Bool.false_ne_true
  unfold finish at h ⊢
  rw [run_bind, run_get] at h ⊢
  dsimp only at h ⊢
  rw [run_ite] at h ⊢
  split at h
  · cases h
  next hwhole =>
  rw [if_neg hwhole, run_bind]
  rw [run_bind] at h
  generalize hashFinish a sha s = out at h ⊢
  obtain ⟨actual, s₁⟩ := out
  dsimp only at h ⊢
  rw [run_ite] at h ⊢
  split at h
  · exact absurd h (hrefuse _ _)
  next hdigest =>
  rw [if_neg hdigest]
  rw [run_bind, run_bind, run_modify, run_ite] at h ⊢
  generalize otaEnd a s.upload.handle s₁ = out at h ⊢
  obtain ⟨ended, s₂⟩ := out
  dsimp only at h ⊢
  split at h
  · exact absurd h (hrefuse _ _)
  next hended =>
  rw [if_neg hended]
  rw [run_bind, setBoot_eq, run_bind] at h ⊢
  dsimp only at h ⊢
  rw [run_ite] at h ⊢
  split at h
  · cases h
  next hbooted =>
  rw [if_neg hbooted]
  obtain ⟨hlog, hidle⟩ := release_log { s₂ with
    upload := { s₂.upload with isOpen := false }, log := .boot s.upload.partition :: s₂.log }
  exact ⟨rfl, hidle, _, _, hlog⟩

/-- Once an update is finished, the calls change no more than the message. -/
theorem Finished.call (h : Finished s) (c : Call) : Finished (call a sha f c s).2 := by
  have hnote (reason : String) : Finished (fail reason s).2 := ⟨h.ready, h.idle, h.boot⟩
  have hid (id : Option Bytes) : idMatches s.upload id = false := by simp [idMatches, h.idle]
  cases c with
  | start size sha256 =>
    have hstart : start a f size sha256 s =
        fail "An update is already in progress or awaiting restart." s := by
      unfold start
      rw [run_bind, run_get]
      dsimp only
      rw [run_ite, if_pos (.inr h.ready)]
    show Finished (start a f size sha256 s).2
    rw [hstart]
    exact hnote _
  | write id offset chunk =>
    have hwrite : write a f id offset chunk s = fail "The upload session is not active." s := by
      unfold write
      rw [run_bind, run_get]
      dsimp only
      rw [run_ite, if_pos (by simp [hid])]
    show Finished (write a f id offset chunk s).2
    rw [hwrite]
    exact hnote _
  | finish id =>
    have hfinish : finish a sha id s = fail "The firmware upload is incomplete." s := by
      unfold finish
      rw [run_bind, run_get]
      dsimp only
      rw [run_ite, if_pos (.inl (by simp [hid]))]
    show Finished (finish a sha id s).2
    rw [hfinish]
    exact hnote _
  | abort id =>
    have habort : abort id s = fail "The upload session is not active." s := by
      unfold abort
      rw [run_bind, run_get]
      dsimp only
      rw [run_ite, if_pos (by simp [hid])]
    show Finished (abort id s).2
    rw [habort]
    exact hnote _
  | tick =>
    have htick : tick a s = ((), s) := by
      unfold tick
      rw [run_bind, run_get]
      dsimp only
      rw [run_ite, if_neg (by simp [h.idle])]
      rfl
    show Finished (tick a s).2
    rw [htick]
    exact h

theorem Finished.run (h : Finished s) (cs : List (Call × Answers)) : Finished (run sha f cs s) := by
  induction cs generalizing s with
  | nil => exact h
  | cons c cs ih => exact ih (h.call c.1)

theorem run_append (sha : Bytes → Bytes) (f : Format) (cs ds : List (Call × Answers)) (s : State) :
    run sha f (cs ++ ds) s = run sha f ds (run sha f cs s) := by
  induction cs generalizing s with
  | nil => rfl
  | cons c cs ih => exact ih _

end

end EspCfTunnel.Ota

namespace EspCfTunnel.Api

open EspCfTunnel StateLogic History Config Monitor

/-- One of the flags `MONITOR_EFFECT_*`. -/
inductive Flag
  | wifi | tunnel | reboot | restart
  deriving DecidableEq, Repr

/-- The effects have the flag. -/
def Effects.has (e : Effects) : Flag → Bool
  | .wifi => e.wifi
  | .tunnel => e.tunnel
  | .reboot => e.reboot
  | .restart => e.restart

theorem Effects.has_union (e e' : Effects) (f : Flag) : (e.union e').has f = (e.has f || e'.has f) := by
  cases f <;> rfl

@[simp] theorem Effects.has_none (f : Flag) : Effects.has {} f = false := by cases f <;> rfl

/-- There is an effect exactly if there is a flag. -/
theorem Effects.ne_none_iff (e : Effects) : e ≠ {} ↔ ∃ f, e.has f = true := by
  obtain ⟨wifi, tunnel, reboot, restart⟩ := e
  constructor
  · intro h
    cases wifi with
    | true => exact ⟨.wifi, rfl⟩
    | false =>
      cases tunnel with
      | true => exact ⟨.tunnel, rfl⟩
      | false =>
        cases reboot with
        | true => exact ⟨.reboot, rfl⟩
        | false =>
          cases restart with
          | true => exact ⟨.restart, rfl⟩
          | false => exact absurd rfl h
  · rintro ⟨f, h⟩ heq
    rw [heq, Effects.has_none] at h
    cases h

/-! ## What is asked for -/

/-- The effects that an input asks for. -/
def asked (l : Library) : Input → State → Effects
  | .request r a, s => (serve l a r s).1.effects
  | _, _ => {}

/-- The input asks for the effect. -/
def Asks (l : Library) (f : Flag) (i : Input) (s : State) : Prop := (asked l i s).has f = true

/-- The input carries out what is pending. -/
def Flushes (i : Input) (s : State) : Prop :=
  ∃ a, i = .tick true a ∧ s.pending ≠ {} ∧ s.effectsAfter ≤ a.now

section
variable {l : Library} {a : Answers} {s s₀ : State} {is : List Input} {f : Flag}

/-- What one input does to the pending effects. -/
theorem step_pending (l : Library) (i : Input) (s : State) (f : Flag) :
    (step l i s).pending.has f = true ↔ Asks l f i s ∨ (s.pending.has f = true ∧ ¬ Flushes i s) := by
  cases i with
  | request r a =>
    have hnone : ¬ Flushes (.request r a) s := by
      rintro ⟨a', h, -⟩
      cases h
    have hasks : Asks l f (.request r a) s ↔ (dispatch l a r s).1.effects.has f = true := by
      rw [Asks, asked, serve_reply]
    obtain ⟨hpending, -⟩ := (dispatch_change l a r s).pending
    rw [hasks, step, serve_eq]
    dsimp only
    split
    · rw [Effects.has_union, hpending]
      simp [hnone, or_comm]
    · next heffects =>
      rw [not_not] at heffects
      rw [heffects, hpending]
      simp [hnone]
  | tick locked a =>
    have hasks : ¬ Asks l f (.tick locked a) s := by simp [Asks, asked]
    cases locked with
    | false =>
      have hnone : ¬ Flushes (.tick false a) s := by
        rintro ⟨a', h, -⟩
        cases h
      simp only [hasks, hnone, false_or, not_false_eq_true, and_true]
      rfl
    | true =>
      rw [step, tick_eq]
      split
      · next hdue =>
        have hflush : Flushes (.tick true a) s := ⟨a, rfl, hdue⟩
        simp [hasks, hflush]
      · next hdue =>
        have hnone : ¬ Flushes (.tick true a) s := by
          rintro ⟨a', h, hdue'⟩
          cases h
          exact hdue hdue'
        simp [hasks, hnone]
  | network reads t =>
    have hnone : ¬ Flushes (.network reads t) s := by
      rintro ⟨a', h, -⟩
      cases h
    simp [Asks, asked, hnone, step]
  | event o =>
    have hnone : ¬ Flushes (.event o) s := by
      rintro ⟨a', h, -⟩
      cases h
    simp [Asks, asked, hnone, step]

/-- What is pending was asked for, and not carried out since. -/
theorem pending_iff (hboot : s₀.pending = {}) : (run l is s₀).pending.has f = true ↔
    Past.Since (step l) (Asks l f) Flushes is s₀ := by
  induction is using List.reverseRecOn with
  | nil =>
    refine iff_of_false ?_ Past.not_since_nil
    rw [run, Past.run_nil, hboot, Effects.has_none]
    simp
  | append_singleton is i ih =>
    rw [Past.since_concat, run, Past.run_concat, step_pending, ← ih]
    rfl

/-! ## When -/

/-- The time at which the effects of a request are queued. -/
def Input.queued : Input → Option Nat
  | .request _ a => some a.scheduled
  | _ => none

/-- The input is a request whose effects are queued at this time. -/
def AsksAt (l : Library) (t : Nat) (i : Input) (s : State) : Prop :=
  i.queued = some t ∧ asked l i s ≠ {}

/-- A request of the run had its effects queued at this time. -/
def AskedAt (l : Library) (t : Nat) (is : List Input) (s₀ : State) : Prop :=
  Past.Since (step l) (AsksAt l t) (fun _ _ => False) is s₀

theorem askedAt_concat {t : Nat} {i : Input} : AskedAt l t (is ++ [i]) s₀ ↔
    AsksAt l t i (run l is s₀) ∨ AskedAt l t is s₀ := by
  rw [AskedAt, Past.since_concat]
  simp [AskedAt, run]

/-- One input and the time from which on the effects are due. -/
theorem step_effectsAfter (l : Library) (i : Input) (s : State) :
    (∃ t, AsksAt l t i s ∧ (step l i s).effectsAfter = t + 1000) ∨
      ((∀ t, ¬ AsksAt l t i s) ∧ (step l i s).effectsAfter = s.effectsAfter) := by
  cases i with
  | request r a =>
    obtain ⟨-, hafter⟩ := (dispatch_change l a r s).pending
    have hasks : asked l (.request r a) s = (dispatch l a r s).1.effects :=
      congrArg Reply.effects (serve_reply l a r s)
    by_cases heffects : (dispatch l a r s).1.effects = {}
    · refine .inr ⟨fun t h => h.2 (hasks.trans heffects), ?_⟩
      rw [step, serve_eq, if_neg (by simp [heffects])]
      exact hafter
    · refine .inl ⟨a.scheduled, ⟨rfl, by rw [hasks]; exact heffects⟩, ?_⟩
      rw [step, serve_eq, if_pos heffects]
  | tick locked a =>
    refine .inr ⟨fun t h => (by cases h.1), ?_⟩
    cases locked with
    | false => rfl
    | true =>
      rw [step, tick_eq]
      split <;> rfl
  | network reads t => exact .inr ⟨fun t h => (by cases h.1), rfl⟩
  | event o => exact .inr ⟨fun t h => (by cases h.1), rfl⟩

/-- The times at which effects of requests are queued never go back. -/
def InOrder (is : List Input) : Prop := (is.filterMap Input.queued).Pairwise (· ≤ ·)

theorem InOrder.of_concat {i : Input} (h : InOrder (is ++ [i])) : InOrder is ∧
    ∀ t, i.queued = some t → ∀ t' ∈ is.filterMap Input.queued, t' ≤ t := by
  rw [InOrder, List.filterMap_append, List.pairwise_append] at h
  refine ⟨h.1, fun t ht t' ht' => h.2.2 t' ht' t ?_⟩
  simp [ht]

theorem AskedAt.mem {t : Nat} (h : AskedAt l t is s₀) : t ∈ is.filterMap Input.queued := by
  obtain ⟨before, i, after, rfl, hi, -⟩ := h
  rw [List.mem_filterMap]
  exact ⟨i, by simp, hi.1⟩

/-- The effects are due a second after the last request that asked for one. -/
theorem effectsAfter_latest (horder : InOrder is) :
    (∀ t, AskedAt l t is s₀ → t + 1000 ≤ (run l is s₀).effectsAfter) ∧
      ((∃ t, AskedAt l t is s₀) →
        ∃ t, AskedAt l t is s₀ ∧ (run l is s₀).effectsAfter = t + 1000) := by
  induction is using List.reverseRecOn with
  | nil =>
    have hnone (t : Nat) : ¬ AskedAt l t [] s₀ := Past.not_since_nil
    exact ⟨fun t h => absurd h (hnone t), fun ⟨t, h⟩ => absurd h (hnone t)⟩
  | append_singleton is i ih =>
    obtain ⟨hbefore, hlast⟩ := horder.of_concat
    obtain ⟨hall, hsome⟩ := ih hbefore
    have hrun : run l (is ++ [i]) s₀ = step l i (run l is s₀) := Past.run_concat _ _ _ _
    rw [hrun]
    simp only [askedAt_concat]
    rcases step_effectsAfter l i (run l is s₀) with ⟨t, hasks, hafter⟩ | ⟨hquiet, hafter⟩
    · rw [hafter]
      refine ⟨fun t' h => ?_, fun _ => ⟨t, .inl hasks, rfl⟩⟩
      rcases h with h | h
      · have hsame : some t' = some t := h.1.symm.trans hasks.1
        cases hsame
        exact Nat.le_refl _
      · exact Nat.add_le_add_right (hlast t hasks.1 t' h.mem) 1000
    · rw [hafter]
      refine ⟨fun t' h => ?_, fun ⟨t, h⟩ => ?_⟩
      · rcases h with h | h
        · exact absurd h (hquiet t')
        · exact hall t' h
      · rcases h with h | h
        · exact absurd h (hquiet t)
        · obtain ⟨t', h', heq⟩ := hsome ⟨t, h⟩
          exact ⟨t', .inr h', heq⟩

end

/-- **Every effect is carried out once.** After any run from boot, a tick that has the lock carries out
exactly the effects that a request asked for and no tick has carried out since, once a second has passed
since the last request that asked for one; and then none is left. -/
theorem effects_carried_out_once (l : Library) (store : Store) (light : Light) (net : Network.State)
    (is : List Input) (horder : InOrder is) (a : Answers) :
    let s₀ : State := { store, light, net }
    let s := run l is s₀
    (∀ f, (tick a true s).1.has f = true ↔
      Past.Since (step l) (Asks l f) Flushes is s₀ ∧ ∀ t, AskedAt l t is s₀ → t + 1000 ≤ a.now) ∧
    ((tick a true s).1 ≠ {} → (tick a true s).2.pending = {}) := by
  intro s₀ s
  obtain ⟨hall, hsome⟩ : (∀ t, AskedAt l t is s₀ → t + 1000 ≤ s.effectsAfter) ∧
    ((∃ t, AskedAt l t is s₀) → ∃ t, AskedAt l t is s₀ ∧ s.effectsAfter = t + 1000) :=
    effectsAfter_latest horder
  have hpending (f : Flag) : s.pending.has f = true ↔ Past.Since (step l) (Asks l f) Flushes is s₀ :=
    pending_iff rfl
  rw [tick_eq]
  constructor
  · intro f
    rw [← hpending]
    constructor
    · intro h
      split at h
      · next hdue => exact ⟨h, fun t ht => (hall t ht).trans hdue.2⟩
      · simp at h
    · rintro ⟨hf, htimes⟩
      have hne : s.pending ≠ {} := (Effects.ne_none_iff _).2 ⟨f, hf⟩
      obtain ⟨before, i, after, hsplit, hi, -⟩ := (hpending f).1 hf
      have hasked : ∃ t, AskedAt l t is s₀ := by
        cases i with
        | request r a' =>
          refine ⟨a'.scheduled, before, _, after, hsplit, ⟨rfl, ?_⟩, fun _ _ _ _ h => h⟩
          exact (Effects.ne_none_iff _).2 ⟨f, hi⟩
        | _ => simp [Asks, asked] at hi
      obtain ⟨t, ht, hafter⟩ := hsome hasked
      have hdue : a.now ≥ s.effectsAfter := hafter ▸ htimes t ht
      rw [if_pos ⟨hne, hdue⟩]
      exact hf
  · intro h
    split at h
    · next hdue =>
      rw [if_pos hdue]
    · exact absurd rfl h

/-- A request to restart the tunnel. -/
def sampleRestart : List Input :=
  [sampleLogin "correct horse battery" 0, sampleCall "/api/tunnel/restart" 10 []]

theorem effects_carried_out_once_restart :
    (tick (sampleAnswers 1009 []) true (run sampleLibrary sampleRestart { store := sampleStore })).1 = {} ∧
      (tick (sampleAnswers 1010 []) true (run sampleLibrary sampleRestart { store := sampleStore })).1 ≠ {} ∧
      (tick (sampleAnswers 1010 []) true
        (run sampleLibrary sampleRestart { store := sampleStore })).2.pending = {} := by
  have horder : InOrder sampleRestart := by
    unfold InOrder
    decide
  have hdue : (tick (sampleAnswers 1010 []) true
      (run sampleLibrary sampleRestart { store := sampleStore })).1 ≠ {} := by decide +kernel
  have honce := effects_carried_out_once sampleLibrary sampleStore {} {} sampleRestart horder
    (sampleAnswers 1010 [])
  exact ⟨by decide +kernel, hdue, honce.2 hdue⟩

/-! ## The restart into new firmware -/

section
variable {l : Library} {a : Answers} {r : Request} {s s₀ : State} {is : List Input}

/-- A request calls the firmware module once, or not at all. -/
theorem Change.ota {s' : State} {e : Effects} (h : Change l a r s s' e) :
    ∃ cs, s'.ota = Ota.run l.sha l.format cs s.ota := by
  cases h with
  | operation _ _ _ hop =>
    cases hop with
    | ota => exact ⟨[(_, a.ota)], rfl⟩
    | finish => exact ⟨[(.finish _, a.ota)], rfl⟩
    | _ => exact ⟨[], rfl⟩
  | _ => exact ⟨[], rfl⟩

/-- An input is some calls of the firmware module. -/
theorem step_ota (l : Library) (i : Input) (s : State) :
    ∃ cs, (step l i s).ota = Ota.run l.sha l.format cs s.ota := by
  cases i with
  | request r a =>
    obtain ⟨cs, hcs⟩ := (dispatch_change l a r s).ota
    refine ⟨cs, ?_⟩
    rw [step, serve_eq, ← hcs]
    dsimp only
    split <;> rfl
  | tick locked a =>
    cases locked with
    | false => exact ⟨[], rfl⟩
    | true =>
      refine ⟨[(.tick, a.ota)], ?_⟩
      rw [step, tick_eq]
      split <;> rfl
  | network reads t => exact ⟨[], rfl⟩
  | event o => exact ⟨[], rfl⟩

/-- A run of the device is a run of the firmware module. -/
theorem run_ota (l : Library) (is : List Input) (s₀ : State) :
    ∃ cs, (run l is s₀).ota = Ota.run l.sha l.format cs s₀.ota := by
  induction is using List.reverseRecOn with
  | nil => exact ⟨[], rfl⟩
  | append_singleton is i ih =>
    obtain ⟨cs, hcs⟩ := ih
    obtain ⟨ds, hds⟩ := step_ota l i (run l is s₀)
    refine ⟨cs ++ ds, ?_⟩
    rw [run, Past.run_concat, Ota.run_append, ← hcs]
    exact hds

/-- The request that asks for a restart ends an upload. -/
theorem Change.reboot {s' : State} {e : Effects} (h : Change l a r s s' e) (he : e.reboot = true) :
    Authorised r a.now s ∧ r.path = text "/api/ota/finish" ∧ Ota.Finished s'.ota := by
  cases h with
  | operation post authorised body op =>
    cases op with
    | finish path done => exact ⟨authorised, path, Ota.finish_true done⟩
    | _ => cases he
  | _ => cases he

/-- While a restart is pending, the update is finished. -/
theorem pending_finished (hboot : s₀.pending = {}) :
    (run l is s₀).pending.reboot = true → Ota.Finished (run l is s₀).ota := by
  induction is using List.reverseRecOn with
  | nil =>
    intro h
    rw [run, Past.run_nil, hboot] at h
    cases h
  | append_singleton is i ih =>
    have hrun : run l (is ++ [i]) s₀ = step l i (run l is s₀) := Past.run_concat _ _ _ _
    rw [hrun]
    intro h
    rcases (step_pending l i (run l is s₀) .reboot).1 h with hasks | ⟨hpending, -⟩
    · cases i with
      | request r a =>
        have heffects : (dispatch l a r (run l is s₀)).1.effects.reboot = true := by
          rw [← serve_reply]
          exact hasks
        obtain ⟨-, -, hfinished⟩ := (dispatch_change l a r (run l is s₀)).reboot heffects
        rw [step, serve_eq]
        dsimp only
        split <;> exact hfinished
      | _ => simp [Asks, asked] at hasks
    · obtain ⟨cs, hcs⟩ := step_ota l i (run l is s₀)
      rw [hcs]
      exact (ih hpending).run cs

end

/-- **The device restarts into announced firmware only.** When a tick carries out a restart, some request
with the token of a live session has ended an upload, and the last thing that happened to the firmware is
the selection of the slot of the last start, which holds the chunks accepted since then one behind the
other, of the announced length and digest. -/
theorem reboot_only_committed (l : Library) (store : Store) (light : Light) (net : Network.State)
    (is : List Input) (a : Answers) (hreboot : (tick a true (run l is { store, light, net })).1.reboot = true) :
    let s₀ : State := { store, light, net }
    (∃ before r a' after, is = before ++ .request r a' :: after ∧ r.path = text "/api/ota/finish" ∧
      Entitled l before s₀ r a'.now) ∧
    ∃ q size sha256 id past, (run l is s₀).ota.log = .boot (some q) :: past ∧
      Ota.latest past = some (q, size, sha256, id) ∧ (Ota.accepted past).flatten.length = size ∧
      Token.hexBytes sha256 = some (l.sha (Ota.accepted past).flatten) ∧
      Ota.flashed past = Ota.placed q 0 (Ota.accepted past) := by
  intro s₀
  have hpending : (run l is s₀).pending.reboot = true := by
    rw [tick_eq] at hreboot
    split at hreboot
    · exact hreboot
    · cases hreboot
  constructor
  · have hboot : s₀.pending = {} := rfl
    obtain ⟨before, i, after, hsplit, hasks, -⟩ := (pending_iff (f := .reboot) hboot).1 hpending
    cases i with
    | request r a' =>
      have heffects : (dispatch l a' r (run l before s₀)).1.effects.reboot = true := by
        rw [← serve_reply]
        exact hasks
      obtain ⟨hauth, hpath, -⟩ := (dispatch_change l a' r (run l before s₀)).reboot heffects
      exact ⟨before, r, a', after, hsplit, hpath, (entitled_iff rfl).2 hauth⟩
    | _ => simp [Asks, asked] at hasks
  · have hboot : s₀.pending = {} := rfl
    obtain ⟨-, -, p, past, hlog⟩ := pending_finished hboot hpending
    obtain ⟨cs, hcs⟩ := run_ota l is s₀
    have hinv : Ota.Inv l.sha (run l is s₀).ota := by
      rw [hcs]
      exact Ota.run_inv (Ota.init_inv l.sha)
    have hrule : Ota.BootRule l.sha past (.boot p) := by
      have hlawful := hinv.lawful
      rw [hlog] at hlawful
      exact hlawful.1
    obtain ⟨q, size, sha256, id, rfl, hlatest, hlen, hsha, hflashed⟩ := hrule
    exact ⟨q, size, sha256, id, past, hlog, hlatest, hlen, hsha, hflashed⟩

/-- An upload of the sample image, in one chunk. -/
def sampleUpload : List Input :=
  let id := stringMember "id" (List.replicate 32 48)
  [sampleLogin "correct horse battery" 0,
    sampleCall "/api/ota/start" 10 [numberMember "size" 288, stringMember "sha256" sampleDigest],
    sampleCall "/api/ota/chunk" 20 [id, numberMember "offset" 0,
      stringMember "data" (Headers.base64Digits false sampleImage)],
    sampleCall "/api/ota/finish" 30 [id]]

theorem reboot_only_committed_sample :
    let s := run sampleLibrary sampleUpload { store := sampleStore }
    (tick (sampleAnswers 1030 []) true s).1.reboot = true ∧
    ∃ q size sha256 id past, s.ota.log = .boot (some q) :: past ∧
      Ota.latest past = some (q, size, sha256, id) ∧ (Ota.accepted past).flatten.length = size ∧
      Token.hexBytes sha256 = some (sampleLibrary.sha (Ota.accepted past).flatten) ∧
      Ota.flashed past = Ota.placed q 0 (Ota.accepted past) := by
  have hreboot : (tick (sampleAnswers 1030 []) true
      (run sampleLibrary sampleUpload { store := sampleStore })).1.reboot = true := by decide +kernel
  exact ⟨hreboot, (reboot_only_committed sampleLibrary sampleStore {} {} sampleUpload
    (sampleAnswers 1030 []) hreboot).2⟩

end EspCfTunnel.Api
