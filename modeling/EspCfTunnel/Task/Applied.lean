import EspCfTunnel.Config.Runs
import EspCfTunnel.Lib.History
import EspCfTunnel.Task.Moves

/-!
# The lifecycle and the applied configuration

Whether an update has been applied is kept twice: in the configuration and in the lifecycle, whose
answer `apply_config` drops. They agree because an update can only be complete once the settings of
the peer have been received, and then the lifecycle has left the HTTP/2 state before the update is
applied.
-/

namespace EspCfTunnel.Task

open EspCfTunnel StateLogic Lifecycle Config

/-- `config_version` of the snapshot. -/
def Tunnel.configVersion (t : Tunnel) : Int := if t.remote.valid then t.remote.version else -1

/-- nghttp2 accepts no other frame before the SETTINGS of the peer: while they have not been received,
no callback has been made on the connection. -/
def Note.SettingsFirst (before : List Note) : Note → Prop
  | .stats false => ∀ call, .callback call ∉ sinceClose before
  | _ => True

/-- A reply to the edge is the response to the update, and says that it was applied only if the
lifecycle knows of it. -/
def Note.Replied : Note → Prop
  | .configReply t rc =>
    t.configReply = ((configResponse t.remote rc 128).toOption).getD [] ∧
      (rc = .ok → t.stopping = false → t.life.configured = true)
  | _ => True

/-- What an update leaves behind. -/
structure Agreed (k : Core) (history : List Note) : Prop where
  configured : k.remote.valid = true → k.stopping = false → k.life.configured = true
  version : k.remote.valid = true → 0 ≤ k.remote.version
  pending : k.configPending = true → ∃ call, .callback call ∈ sinceClose history
  replied : ∀ n ∈ history, n.Replied

/-- The configuration and the lifecycle agree if the settings come first. -/
def Consonant (c : Ctx) : Prop :=
  History.Lawful (fun before n => n.SettingsFirst before) c.history → Agreed c.t.core c.history

section
variable {c c' : Ctx} {k k' : Core} {history : List Note}

theorem Note.replied_inner {n : Note} (h : n.inner = true) : n.Replied := by
  cases n <;> trivial

theorem Agreed.closed (l : Life) (stopping : Bool) (hreplied : ∀ n ∈ history, n.Replied) :
    Agreed (.closed l stopping) history :=
  ⟨fun h => by (cases h), fun h => by (cases h), fun h => by (cases h), hreplied⟩

/-- A step that leaves the configuration alone. -/
theorem Agreed.keep (h : Agreed k history) (notes : List Note) (hremote : k'.remote = k.remote)
    (hlife : k.remote.valid = true → k'.stopping = false →
      k.stopping = false ∧ k'.life.configured = k.life.configured)
    (hpending : k'.configPending = true → k.configPending = true ∨
      ∃ call, .callback call ∈ sinceClose history)
    (hcloses : ∀ n ∈ notes, n.closes = false) (hnotes : ∀ n ∈ notes, n.Replied) :
    Agreed k' (notes ++ history) := by
  refine ⟨fun hv hs => ?_, fun hv => ?_, fun hp => ?_, fun n hn => ?_⟩
  · rw [hremote] at hv
    obtain ⟨hs', heq⟩ := hlife hv hs
    rw [heq]
    exact h.configured hv hs'
  · rw [hremote] at hv ⊢
    exact h.version hv
  · obtain ⟨call, hcall⟩ : ∃ call, .callback call ∈ sinceClose history := by
      rcases hpending hp with hp | hcall
      · exact h.pending hp
      · exact hcall
    refine ⟨call, ?_⟩
    rw [sinceClose_append hcloses]
    exact List.mem_append_right _ hcall
  · rcases List.mem_append.1 hn with hn | hn
    · exact hnotes n hn
    · exact h.replied n hn

@[simp] theorem Core.append_held (k : Core) (bytes : Bytes) : (k.append bytes).remote = k.remote ∧
    (k.append bytes).stopping = k.stopping ∧ (k.append bytes).life = k.life ∧
    (k.append bytes).configPending = k.configPending := by
  unfold Core.append
  split <;> exact ⟨rfl, rfl, rfl, rfl⟩

/-- A callback leaves the configuration alone. -/
theorem Call.held {call : Callback} (h : Call call c c') : c'.t.core.remote = c.t.core.remote ∧
    c'.t.core.stopping = c.t.core.stopping ∧ (c.t.core.remote.valid = true →
      c'.t.core.life.configured = c.t.core.life.configured) := by
  cases h with
  | drift hd =>
    obtain ⟨l, hcore, hkeep⟩ := hd.core
    rw [hcore]
    exact ⟨rfl, rfl, hkeep⟩
  | begin _ _ _ hkeep _ hk hcore _ =>
    rw [hcore, hk, (Core.append_held _ _).1, (Core.append_held _ _).2.1, (Core.append_held _ _).2.2.1]
    exact ⟨rfl, rfl, hkeep⟩
  | receive _ hk hcore _ | register _ _ hk hcore _ =>
    rw [hcore, hk, (Core.append_held _ _).1, (Core.append_held _ _).2.1, (Core.append_held _ _).2.2.1]
    exact ⟨rfl, rfl, fun _ => rfl⟩
  | fault hcore _ | read _ _ hcore _ | respond _ hcore _ | reset _ hcore _
  | close hcore _ | update hcore _ =>
    rw [hcore]
    exact ⟨rfl, rfl, fun _ => rfl⟩

/-- A state of a connection in which the events of a registration are taken. -/
theorem Linked.negotiating {v : View} (h : Linked v history) (hhttp2 : v.life.state ≠ .http2)
    (hstopping : v.stopping = false) : Lifecycle.negotiating v.life.state = true := by
  have hactive : v.life.state ≠ .stopping := by
    intro hs
    rw [h.stopping.2 hs] at hstopping
    cases hstopping
  have hs := h.state
  rw [negotiating_iff]
  unfold linkedState at hs
  tauto

/-- An accepted update is taken by the lifecycle. -/
theorem applied_configured {v : View} (h : Linked v history) (hhttp2 : v.life.state ≠ .http2)
    (hstopping : v.stopping = false) :
    (lifecycleAdvance v.life .configApplied).1.configured = true := by
  rw [lifecycleAdvance_of_ready (h.retryable hstopping).state.1 h.ready.1 h.ready.2
    (.applied (h.negotiating hhttp2 hstopping))]

/-- The version of a configuration after an update. -/
theorem applies_version {parse : Parser} {remote : Remote} {update hostname service : Bytes}
    {applied : Applied} (h : Applies parse remote update hostname service applied)
    (hversion : remote.valid = true → 0 ≤ remote.version) (hvalid : applied.config.valid = true) :
    0 ≤ applied.config.version := by
  cases h with
  | rejected => exact hversion hvalid
  | accepted _ hcheck =>
    dsimp only [publish] at hvalid ⊢
    split at hvalid
    · next hnew =>
      rw [if_pos hnew]
      exact (versionOf_bounds (checkUpdate_version hcheck)).1
    · next hold =>
      rw [if_neg hold]
      exact hversion hvalid

/-- The update that is applied has been received after the settings. -/
theorem Agreed.apply (h : Agreed c.t.core c.history)
    (hfirst : History.Lawful (fun before n => n.SettingsFirst before) c.history)
    {parse : Parser} {update : Bytes} {applied : Applied} {ps : Bool} {before : List Note}
    (hlinked : Linked c.t.view c.history) (hpending : c.t.configPending = true)
    (hhistory : c.history = .stats ps :: before) (hready : ps = true → c.t.life.state ≠ .http2)
    (happlies : Applies parse c.t.remote update (cString c.t.hostname) c.t.service applied)
    (hstopping : c.t.stopping = false) (hvalid : applied.config.valid = true) :
    (lifecycleAdvance c.t.life
      (if applied.result = .ok then .configApplied else .configRejected)).1.configured = true := by
  have hps : ps = true := by
    obtain ⟨call, hcall⟩ := h.pending hpending
    rw [hhistory] at hfirst hcall
    cases ps with
    | true => rfl
    | false =>
      rw [sinceClose_cons rfl, List.mem_cons] at hcall
      exact absurd (hcall.resolve_left nofun) (hfirst.1 call)
  by_cases hok : applied.result = .ok
  · rw [if_pos hok]
    exact applied_configured hlinked (hready hps) hstopping
  · rw [if_neg hok, advance_configured _ (by simp) (by simp)]
    cases happlies with
    | rejected => exact h.configured hvalid hstopping
    | accepted => exact absurd rfl hok

/-- Every move keeps the agreement. -/
theorem Move.consonant (hmove : Move c c') (h : Consonant c) : Consonant c' := by
  intro hfirst
  have hbefore := hfirst.suffix hmove.suffix
  have hagreed := h hbefore
  cases hmove with
  | drift hd =>
    obtain ⟨l, hcore, hkeep⟩ := hd.core
    obtain ⟨notes, hhistory, hplain⟩ := hd.history
    have hinner := fun n hn => Note.inner_of_plain (hplain n hn)
    rw [hhistory, hcore]
    exact hagreed.keep notes rfl (fun hv hs => ⟨hs, hkeep hv⟩) Or.inl
      (fun n hn => Note.inner_closes (hinner n hn)) fun n hn => Note.replied_inner (hinner n hn)
  | @call call hmem hcall =>
    obtain ⟨hremote, hstopping, hkeep⟩ := hcall.held
    obtain ⟨notes, hhistory, hinner⟩ := hcall.history
    rw [hhistory]
    exact hagreed.keep notes hremote (fun hv hs => ⟨hstopping.symm.trans hs, hkeep hv⟩)
      (fun _ => Or.inr ⟨call, hmem⟩) (fun n hn => Note.inner_closes (hinner n hn))
      fun n hn => Note.replied_inner (hinner n hn)
  | unregister _ _ hk hcore hhistory =>
    rw [hhistory, hcore, hk]
    obtain ⟨hremote, hstopping, hlife, hpending⟩ := Core.append_held _ _
    refine hagreed.keep _ hremote (fun _ hs => ⟨hstopping.symm.trans hs, by rw [hlife]⟩)
      (fun hp => Or.inl (hpending.symm.trans hp)) (fun n hn => Note.inner_closes (appendNotes_inner _ _ n hn))
      fun n hn => Note.replied_inner (appendNotes_inner _ _ n hn)
  | stop hcore hhistory =>
    rw [hhistory, hcore]
    exact hagreed.keep [] rfl (fun _ hs => by cases hs) Or.inl (by simp) (by simp)
  | @apply parse update applied ps fault rc t before hlinked hpending hstats hready happlies _ hcore ht
      hreply hhistory =>
    have hconf := hagreed.apply hbefore hlinked hpending hstats hready happlies
    rw [hhistory, hcore]
    refine ⟨fun hv hs => hconf hs hv, fun hv => applies_version happlies hagreed.version hv,
      fun hp => by (cases hp), fun n hn => ?_⟩
    rcases List.mem_cons.1 hn with rfl | hn
    · have hremote : t.remote = applied.config := by
        have := congrArg Core.remote (ht.trans hcore)
        exact this
      refine ⟨by rw [hremote]; exact hreply, fun hok hs => ?_⟩
      have hlife := congrArg Core.life (ht.trans hcore)
      have hstop : t.stopping = c.t.stopping := congrArg Core.stopping (ht.trans hcore)
      rw [show t.life = _ from hlife]
      refine hconf (hstop.symm.trans hs) ?_
      exact (configApply_remote happlies).2.2.2 hok
    · simp only [List.mem_cons] at hn
      rcases hn with rfl | rfl | hn
      · trivial
      · trivial
      · exact hagreed.replied n hn
  | returned hcore hhistory | tlsRead _ hcore hhistory | memSend _ hcore hhistory
  | failed _ _ _ hcore hhistory | wait _ _ _ hcore hhistory =>
    rw [hhistory, hcore]
    exact hagreed.keep [_] rfl (fun _ hs => ⟨hs, rfl⟩) Or.inl (by simp [Note.closes])
      (by simp [Note.Replied])
  | output _ _ hcore hhistory | wrote _ _ _ hcore hhistory =>
    rw [hhistory, hcore]
    exact hagreed.keep [_] rfl (fun _ hs => ⟨hs, rfl⟩) Or.inl (by simp [Note.closes])
      (by simp [Note.Replied])
  | stall _ _ hcore hhistory =>
    rw [hhistory, hcore]
    exact hagreed.keep [_, _] rfl (fun _ hs => ⟨hs, rfl⟩) Or.inl (by simp [Note.closes])
      (by simp [Note.Replied])
  | link _ hcore hhistory =>
    rw [hhistory, hcore]
    exact hagreed.keep [] rfl (fun _ hs => ⟨hs, rfl⟩) Or.inl (by simp) (by simp)
  | @close l notes hplain hcore hhistory =>
    rw [hhistory, hcore]
    refine .closed l _ fun n hn => ?_
    rcases List.mem_cons.1 hn with rfl | hn
    · trivial
    · rcases List.mem_append.1 hn with hn | hn
      · exact Note.replied_inner (Note.inner_of_plain (hplain n hn))
      · exact hagreed.replied n hn
  | restart _ _ hcore hhistory =>
    rw [hhistory, hcore]
    exact .closed _ _ hagreed.replied

end

/-- A task that runs knows of a configuration only where there is one. -/
theorem Phase.configured {v : View} {history : List Note} (h : Phase v history)
    (hconfigured : v.life.configured = true) : v.remote.valid = true := by
  cases h with
  | resting h => exact absurd (h.unflagged.2.symm.trans hconfigured) (by simp)
  | discovering h => exact absurd (h.unflagged.2.symm.trans hconfigured) (by simp)
  | connecting h => exact absurd (h.unflagged.2.symm.trans hconfigured) (by simp)
  | linked h => exact (h.configured hconfigured).2

/-- Lifecycle and applied configuration agree: in every run in which the settings of a peer come
first, after every iteration of a task that is not stopping, the lifecycle is configured exactly if
the configuration is valid, and exactly if the published version is not negative; and every reply
without an error, while the task is not stopping, is to an update after which the lifecycle is
configured. -/
theorem configured_iff_applied {s : Setup} {w : World} (h : Reach s w)
    (hfirst : History.Lawful (fun before n => n.SettingsFirst before) w.history) :
    (w.running = true → w.t.stopping = false →
      (w.t.life.configured = true ↔ w.t.remote.valid = true) ∧
        (0 ≤ w.t.configVersion ↔ w.t.life.configured = true)) ∧
      ∀ n ∈ w.history, n.Replied := by
  have hconsonant : Consonant w.ctx :=
    h.keeps (fun t l stopping hcore _ => by rw [hcore]; exact .closed l stopping (by simp))
      fun c c' hmove => hmove.consonant
  obtain ⟨hconfigured, hversion, -, hreplied⟩ := hconsonant hfirst
  refine ⟨fun hrunning hstopping => ?_, hreplied⟩
  have hiff : w.t.life.configured = true ↔ w.t.remote.valid = true :=
    ⟨(h.inv.running hrunning).configured, fun hv => hconfigured hv hstopping⟩
  refine ⟨hiff, ?_⟩
  rw [hiff, Tunnel.configVersion]
  split
  · next hvalid => exact iff_of_true (hversion hvalid) hvalid
  · next hvalid => exact iff_of_false (by simp) hvalid

/-- The settings of the peer have not been received. -/
def Note.unsettled : Note → Bool
  | .stats false => true
  | _ => false

theorem settingsFirst_of_settled {history : List Note} (h : history.any Note.unsettled = false) :
    History.Lawful (fun before n => n.SettingsFirst before) history := by
  rw [← List.append_nil history]
  refine History.Lawful.append trivial fun n hn past => ?_
  have hn := List.any_eq_false.1 h n hn
  cases n with
  | stats peerSettings =>
    cases peerSettings with
    | true => trivial
    | false => exact absurd rfl hn
  | _ => trivial

/-- A run in which an update is applied. -/
theorem configured_iff_applied_sample :
    ∃ w, w = sampleWorld (sampleConnect ++ sampleServe.map fun o =>
        { o with stats := { peerSettings := true } }) ∧
      w.running = true ∧ w.t.stopping = false ∧ w.t.remote.valid = true ∧ w.t.life.configured = true := by
  obtain ⟨w, hw⟩ : ∃ w, w = sampleWorld (sampleConnect ++ sampleServe.map fun o =>
    { o with stats := { peerSettings := true } }) := ⟨_, rfl⟩
  have hsettled : w.history.any Note.unsettled = false := by
    rw [hw]
    decide +kernel
  have hheld : w.running = true ∧ w.t.stopping = false ∧ w.t.remote.valid = true := by
    rw [hw]
    decide +kernel
  have hreach : Reach sampleSetup w := by
    rw [hw]
    exact sampleWorld_reach _
  obtain ⟨hrunning, hstopping, hvalid⟩ := hheld
  have hagreed := configured_iff_applied hreach (settingsFirst_of_settled hsettled)
  exact ⟨w, hw, hrunning, hstopping, hvalid, (hagreed.1 hrunning hstopping).1.2 hvalid⟩

end EspCfTunnel.Task
