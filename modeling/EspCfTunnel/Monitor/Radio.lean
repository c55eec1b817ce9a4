import EspCfTunnel.Lib.History
import EspCfTunnel.Lib.Past
import EspCfTunnel.Monitor.Network

/-!
# What the Wi-Fi driver is asked for

Runs of the network module: ticks of the main task, with the other tasks anywhere between its critical
sections and between the ticks. The driver's log keeps a rule (`DriveRule`) whatever they do, as long as
the clock does not go back: a connection is tried only with a network set, and a second or more after
the last try; the setup access point is closed only when it was opened ten minutes before, or in the
same tick.
-/

namespace EspCfTunnel.Network

open EspCfTunnel StateLogic History Monitor

/-! ## Runs -/

/-- The time that comes with an event. -/
def Other.time : Other → Option Nat
  | .gotIp now _ _ => some now
  | .associated now => some now
  | .disconnected now _ _ => some now
  | _ => none

/-- What happens between a tick's critical sections happens after it began. -/
structure Tick.InTime (t : Tick) : Prop where
  later : ∀ p, t.now ≤ t.later p
  between : ∀ p, ∀ o ∈ t.between p, ∀ n ∈ o.time, t.now ≤ n

inductive Input
  | tick (t : Tick)
  | other (o : Other)

def step : Input → State → State
  | .tick t, s => (tick t s).2
  | .other o, s => other o s

/-- Inputs one after the other. -/
def run (is : List Input) (s : State) : State := Past.run step is s

/-- No tick and no event comes before a tick that went before it. -/
def InTime : Nat → List Input → Prop
  | _, [] => True
  | since, .tick t :: is => since ≤ t.now ∧ t.InTime ∧ InTime t.now is
  | since, .other o :: is => (∀ n ∈ o.time, since ≤ n) ∧ InTime since is

/-! ## The rule -/

/-- The time of a try to connect. -/
def Drive.tried : Drive → Option Nat
  | .connect now => some now
  | _ => none

/-- The time at which the setup access point was opened. -/
def Drive.opened : Drive → Option Nat
  | .mode now true => some now
  | _ => none

/-- The tries to connect. -/
def tries (log : List Drive) : List Nat := log.filterMap Drive.tried

/-- The times at which the setup access point was opened. -/
def openings (log : List Drive) : List Nat := log.filterMap Drive.opened

/-- The name of the network that was set last. -/
def lastSsid : List Drive → Bytes
  | [] => []
  | .station ssid _ _ :: _ => ssid
  | _ :: log => lastSsid log

/-- What the driver may be asked for after all it was asked for before. -/
def DriveRule (before : List Drive) : Drive → Prop
  | .connect now => lastSsid before ≠ [] ∧ ∀ c ∈ tries before, c + 1000 ≤ now
  | .mode now false => ∀ c ∈ openings before, c + setupMs ≤ now ∨ c = now
  | _ => True

/-- The request is one that says nothing of a network, a try or an opening, and may come at any time. -/
def Drive.Plain (d : Drive) : Prop :=
  d.tried = none ∧ d.opened = none ∧ (∀ log, lastSsid (d :: log) = lastSsid log) ∧
    ∀ log, DriveRule log d

theorem plain_disconnect : Drive.Plain .disconnect := ⟨rfl, rfl, fun _ => rfl, fun _ => trivial⟩

theorem plain_scan : Drive.Plain .scan := ⟨rfl, rfl, fun _ => rfl, fun _ => trivial⟩

theorem plain_clock : Drive.Plain .clock := ⟨rfl, rfl, fun _ => rfl, fun _ => trivial⟩

theorem plain_setup {ssid password : Bytes} : Drive.Plain (.setup ssid password) :=
  ⟨rfl, rfl, fun _ => rfl, fun _ => trivial⟩

/-! ## The invariant -/

/-- The log at a time. -/
structure Logged (now : Nat) (s : State) : Prop where
  lawful : Lawful DriveRule s.log
  tried : ∀ c ∈ tries s.log, c ≤ now
  opened : ∀ c ∈ openings s.log, c ≤ now

/-- A network is set when there are credentials. -/
def Named (s : State) : Prop := s.hasCredentials = true → lastSsid s.log ≠ []

/-- The next try is a second away from all before it. -/
def Waits (s : State) : Prop := ∀ c ∈ tries s.log, c + 1000 ≤ s.nextRetry

/-- The setup window ends ten minutes after it was opened. -/
def Window (s : State) : Prop :=
  s.state.apEnabled = true → s.state.apDeadline ≠ 0 →
    ∀ c ∈ openings s.log, c + setupMs ≤ s.state.apDeadline

/-- A connection that is being made has a deadline. -/
def Bounded (s : State) : Prop := s.state.connecting = true → s.connectionDeadline ≠ 0

structure Inv (now : Nat) (s : State) : Prop where
  logged : Logged now s
  named : Named s
  waits : Waits s
  window : Window s
  bounded : Bounded s

/-- The tick may still connect. -/
def MayConnect (t : Tick) (l : Taken) (s : State) : Prop :=
  l.connect = true → l.reload = false → lastSsid s.log ≠ [] ∧ ∀ c ∈ tries s.log, c + 1000 ≤ t.now

/-- The tick may still close the setup access point. -/
def MayClose (t : Tick) (l : Taken) (s : State) : Prop :=
  l.apExpired = true → ∀ c ∈ openings s.log, c + setupMs ≤ t.now ∨ c = t.now

/-! ## The other tasks -/

/-- A scan is noted, or refused. -/
theorem other_scan (s : State) : other .scan s = s ∨ other .scan s =
    { s with scanRequested := true, state := { s.state with scanning := true, scanReady := false } } := by
  unfold other requestScan
  dsimp only
  split
  · exact .inl rfl
  · exact .inr rfl

/-- The other tasks ask the driver for nothing. -/
theorem other_log (o : Other) (s : State) : (other o s).log = s.log := by
  cases o with
  | scan => rcases other_scan s with heq | heq <;> rw [heq]
  | _ => rfl

theorem backoff_ge (retries random : Nat) : 1000 ≤ backoff retries random := by
  have hshift : 1000 ≤ 1000 <<< min retries 5 := by
    rw [Nat.shiftLeft_eq]
    exact Nat.le_mul_of_pos_right _ (Nat.two_pow_pos _)
  exact hshift.trans (Nat.le_add_right _ _)

section
variable {now : Nat} {t : Tick} {l : Taken} {o : Other} {s : State}

theorem Logged.other (h : Logged now s) (o : Other) : Logged now (other o s) := by
  obtain ⟨lawful, tried, opened⟩ := h
  constructor <;> rw [other_log]
  · exact lawful
  · exact tried
  · exact opened

theorem Named.other (h : Named s) (o : Other) : Named (other o s) := by
  have hsame : (Network.other o s).hasCredentials = s.hasCredentials := by
    cases o with
    | scan => rcases other_scan s with heq | heq <;> rw [heq]
    | _ => rfl
  rw [Named, hsame, other_log]
  exact h

theorem Waits.other (h : Waits s) (hl : Logged now s) (ho : ∀ n ∈ o.time, now ≤ n) :
    Waits (other o s) := by
  intro c hc
  rw [other_log] at hc
  cases o with
  | disconnected n reason random =>
    have hpast := (hl.tried c hc).trans (ho n rfl)
    exact Nat.add_le_add hpast (backoff_ge _ _)
  | scan => rcases other_scan s with heq | heq <;> rw [heq] <;> exact h c hc
  | _ => exact h c hc

theorem Window.other (h : Window s) (hl : Logged now s) (ho : ∀ n ∈ o.time, now ≤ n) :
    Window (other o s) := by
  intro hopen hdeadline c hc
  rw [other_log] at hc
  cases o with
  | gotIp n ip gateway =>
    have henabled : s.state.apEnabled = true := hopen
    have hpast := (hl.opened c hc).trans (ho n rfl)
    show c + setupMs ≤ if s.state.apEnabled then n + setupMs else s.state.apDeadline
    rw [if_pos henabled]
    exact Nat.add_le_add_right hpast _
  | disconnected n reason random => exact absurd rfl hdeadline
  | scan =>
    rcases other_scan s with heq | heq
    · rw [heq] at hopen hdeadline ⊢
      exact h hopen hdeadline c hc
    · rw [heq] at hopen hdeadline ⊢
      exact h hopen hdeadline c hc
  | _ => exact h hopen hdeadline c hc

theorem Bounded.other (h : Bounded s) (o : Other) : Bounded (other o s) := by
  intro hconnecting
  cases o with
  | associated n => exact Nat.succ_ne_zero _
  | gotIp n ip gateway => cases hconnecting
  | disconnected n reason random => cases hconnecting
  | scan =>
    rcases other_scan s with heq | heq
    · rw [heq] at hconnecting ⊢
      exact h hconnecting
    · rw [heq] at hconnecting ⊢
      exact h hconnecting
  | _ => exact h hconnecting

theorem Inv.other (h : Inv now s) (ho : ∀ n ∈ o.time, now ≤ n) : Inv now (other o s) where
  logged := h.logged.other o
  named := h.named.other o
  waits := h.waits.other h.logged ho
  window := h.window.other h.logged ho
  bounded := h.bounded.other o

theorem MayConnect.other (h : MayConnect t l s) (o : Other) : MayConnect t l (other o s) := by
  rw [MayConnect, other_log]
  exact h

theorem MayClose.other (h : MayClose t l s) (o : Other) : MayClose t l (other o s) := by
  rw [MayClose, other_log]
  exact h

end

/-! ## One tick -/

/-- What holds within a tick. -/
structure Mid (t : Tick) (l : Taken) (s : State) : Prop where
  inv : Inv t.now s
  connect : MayConnect t l s
  close : MayClose t l s

/-- Nothing is left to do. -/
def idle : Taken := ⟨false, false, false, false, false, false, false, false⟩

section
variable {t : Tick} {l : Taken} {s : State} {d : Drive}

theorem Mid.of_inv (h : Inv t.now s) : Mid t idle s := ⟨h, nofun, nofun⟩

/-- A property that the other tasks keep. -/
def Stable (t : Tick) (P : State → Prop) : Prop :=
  ∀ o s, (∀ n ∈ o.time, t.now ≤ n) → P s → P (other o s)

/-- What every event at a place keeps holds after the other tasks ran there. -/
theorem others_keep {P : State → Prop} {p : Point} (hP : ∀ o ∈ t.between p, ∀ s, P s → P (other o s)) :
    Triple P (others t p) fun _ => P := by
  intro s hs
  unfold others
  rw [run_modify]
  generalize t.between p = os at hP ⊢
  induction os generalizing s with
  | nil => exact hs
  | cons o os ih =>
    exact ih _ (hP o List.mem_cons_self s hs) fun o' ho' => hP o' (List.mem_cons_of_mem _ ho')

theorem others_triple {P : State → Prop} (ht : t.InTime) (hP : Stable t P) (p : Point) :
    Triple P (others t p) fun _ => P :=
  others_keep fun o ho s hs => hP o s (ht.between p o ho) hs

theorem mid_stable : Stable t (Mid t l) :=
  fun o _ ho h => ⟨h.inv.other ho, h.connect.other o, h.close.other o⟩

/-- An entry of the log that is no try and no opening. -/
theorem Logged.note {now : Nat} (h : Logged now s) (htried : d.tried = none) (hopened : d.opened = none)
    (hrule : DriveRule s.log d) : Logged now { s with log := d :: s.log } where
  lawful := ⟨hrule, h.lawful⟩
  tried := by rw [tries, List.filterMap_cons_none htried]; exact h.tried
  opened := by rw [openings, List.filterMap_cons_none hopened]; exact h.opened

theorem Mid.note (h : Mid t l s) (htried : d.tried = none) (hopened : d.opened = none)
    (hlast : lastSsid (d :: s.log) = lastSsid s.log) (hrule : DriveRule s.log d) :
    Mid t l { s with log := d :: s.log } := by
  have htries : tries (d :: s.log) = tries s.log := List.filterMap_cons_none htried
  have hopenings : openings (d :: s.log) = openings s.log := List.filterMap_cons_none hopened
  refine ⟨⟨h.inv.logged.note htried hopened hrule, ?_, ?_, ?_, h.inv.bounded⟩, ?_, ?_⟩
  · intro hcred
    rw [hlast]
    exact h.inv.named hcred
  · intro c hc
    exact h.inv.waits c (htries ▸ hc)
  · intro hopen hdeadline c hc
    exact h.inv.window hopen hdeadline c (hopenings ▸ hc)
  · intro hconnect hreload
    rw [hlast, htries]
    exact h.connect hconnect hreload
  · intro hexpired
    rw [hopenings]
    exact h.close hexpired

theorem drive_triple {P Q : State → Prop} (ht : t.InTime) (hP : Stable t P)
    (hd : ∀ s, P s → Q { s with log := d :: s.log }) (p : Point) :
    Triple P (drive t p d) fun _ => Q := by
  unfold drive
  refine Triple.bind (others_triple ht hP p) fun _ => ?_
  exact hd

theorem drive_plain (ht : t.InTime) (hd : d.Plain) (p : Point) :
    Triple (Mid t l) (drive t p d) fun _ => Mid t l := by
  obtain ⟨htried, hopened, hlast, hrule⟩ := hd
  exact drive_triple ht mid_stable (fun s h => h.note htried hopened (hlast s.log) (hrule s.log)) p

/-- The first critical section. -/
theorem take_triple {since : Nat} (hsince : since ≤ t.now) :
    Triple (Inv since) (take t) fun l => Mid t l := by
  intro s h
  have hlogged : Logged t.now s :=
    ⟨h.logged.lawful, fun c hc => (h.logged.tried c hc).trans hsince,
      fun c hc => (h.logged.opened c hc).trans hsince⟩
  unfold take
  rw [run_bind_eq (run_get s), run_bind_eq (run_set _ _), run_pure]
  dsimp only
  generalize hout : (s.state.connecting && s.connectionDeadline ≠ 0 && s.connectionDeadline ≤ t.now) = out
  refine ⟨⟨⟨hlogged.lawful, hlogged.tried, hlogged.opened⟩, h.named, ?_, h.window, ?_⟩, ?_, ?_⟩
  · intro c hc
    have hwait := h.waits c hc
    have hpast := hlogged.tried c hc
    dsimp only at hc ⊢
    split <;> omega
  · intro hconnecting
    dsimp only at hconnecting ⊢
    cases out with
    | true => simp at hconnecting
    | false =>
      rw [if_neg (by simp)]
      exact h.bounded (by simpa using hconnecting)
  · intro hconnect _
    dsimp only at hconnect ⊢
    simp only [Bool.and_eq_true, decide_eq_true_eq] at hconnect
    obtain ⟨⟨⟨⟨hcred, -⟩, -⟩, -⟩, hretry⟩ := hconnect
    exact ⟨h.named hcred, fun c hc => (h.waits c hc).trans hretry⟩
  · intro hexpired c hc
    dsimp only at hexpired hc
    simp only [Bool.and_eq_true, decide_eq_true_eq] at hexpired
    obtain ⟨⟨⟨hopen, -⟩, hne⟩, hdue⟩ := hexpired
    exact .inl ((h.window hopen (by simpa using hne) c hc).trans hdue)

/-- The setup access point is open, and its window is about to be set. -/
structure Opening (t : Tick) (l : Taken) (s : State) : Prop where
  logged : Logged t.now s
  named : Named s
  waits : Waits s
  bounded : Bounded s
  connect : MayConnect t l s
  close : MayClose t l s

theorem opening_stable : Stable t (Opening t l) :=
  fun o _ ho h => ⟨h.logged.other o, h.named.other o, h.waits.other h.logged ho, h.bounded.other o,
    h.connect.other o, h.close.other o⟩

theorem Mid.opening (h : Mid t l s) :
    Opening t l { s with log := .mode t.now true :: s.log } where
  logged := by
    refine ⟨⟨trivial, h.inv.logged.lawful⟩, h.inv.logged.tried, fun c hc => ?_⟩
    rcases List.mem_cons.1 hc with rfl | hc
    · exact Nat.le_refl _
    · exact h.inv.logged.opened c hc
  named := h.inv.named
  waits := h.inv.waits
  bounded := h.inv.bounded
  connect := h.connect
  close := by
    intro hexpired c hc
    rcases List.mem_cons.1 hc with rfl | hc
    · exact .inr rfl
    · exact h.close hexpired c hc

theorem setupEnable_triple (ht : t.InTime) (before after : Point) :
    Triple (Mid t l) (setupEnable t before after) fun _ => Mid t l := by
  unfold setupEnable
  apply Triple.ite
  · intro _
    exact others_triple ht mid_stable before
  · intro _
    refine Triple.bind (drive_triple ht mid_stable (fun _ h => h.opening) before) fun _ => ?_
    refine Triple.bind (others_triple ht opening_stable after) fun _ => ?_
    intro s h
    rw [run_modify]
    refine ⟨⟨⟨h.logged.lawful, h.logged.tried, h.logged.opened⟩, h.named, h.waits, ?_, h.bounded⟩,
      h.connect, h.close⟩
    intro _ hdeadline c hc
    dsimp only at hdeadline ⊢
    have hpast := (h.logged.opened c hc).trans (ht.later after)
    split
    · exact Nat.add_le_add_right hpast _
    · next hconnected => exact absurd (if_neg hconnected) hdeadline

/-- The network is set, and the credentials are about to be noted. -/
structure Setting (t : Tick) (l : Taken) (ssid : Bytes) (s : State) : Prop where
  logged : Logged t.now s
  window : Window s
  bounded : Bounded s
  reload : l.reload = true
  close : MayClose t l s
  last : lastSsid s.log = ssid

theorem setting_stable {ssid : Bytes} : Stable t (Setting t l ssid) :=
  fun o s ho h => ⟨h.logged.other o, h.window.other h.logged ho, h.bounded.other o, h.reload,
    h.close.other o, by rw [other_log]; exact h.last⟩

theorem setStation_triple (ht : t.InTime) :
    Triple (fun s => l.reload = true ∧ Mid t l s) (setStation t) fun _ => Mid t l := by
  have hstable : Stable t fun s => l.reload = true ∧ Mid t l s :=
    fun o s ho h => ⟨h.1, mid_stable o s ho h.2⟩
  have hdrive (ssid password : Bytes) (opened : Bool) :
      Triple (fun s => l.reload = true ∧ Mid t l s) (drive t .setStation (.station ssid password opened))
        fun _ => Setting t l ssid :=
    drive_triple ht hstable (fun s h => ⟨h.2.inv.logged.note rfl rfl trivial, h.2.inv.window,
      h.2.inv.bounded, h.1, h.2.close, rfl⟩) .setStation
  unfold setStation
  dsimp only
  generalize hssid : Config.cString t.wifi.1.ssid = ssid
  have hset : Triple (fun s => l.reload = true ∧ Mid t l s)
      (drive t .setStation (if t.wifi.2 && !ssid.isEmpty then
        .station ssid (Config.cString t.wifi.1.password) (t.wifi.1.opened ≠ 0) else .station [] [] false))
      fun _ => Setting t l (if t.wifi.2 && !ssid.isEmpty then ssid else []) := by
    cases t.wifi.2 && !ssid.isEmpty with
    | true => exact hdrive _ _ _
    | false => exact hdrive _ _ _
  refine Triple.bind hset fun _ => ?_
  refine Triple.bind (others_triple ht setting_stable .station) fun _ => ?_
  intro s h
  rw [run_modify]
  have hlast := h.last
  refine ⟨⟨⟨h.logged.lawful, h.logged.tried, h.logged.opened⟩, ?_, ?_, h.window, h.bounded⟩, ?_,
    h.close⟩
  · intro hcred
    dsimp only at hcred ⊢
    rw [Bool.and_eq_true] at hcred
    rw [hlast, if_pos hcred.1]
    intro hnil
    simp [hnil] at hcred
  · intro c hc
    have hpast := (h.logged.tried c hc).trans (ht.later .station)
    exact Nat.add_le_add_right hpast _
  · intro _ hreload
    rw [h.reload] at hreload
    cases hreload

theorem reloadStation_triple (ht : t.InTime) :
    Triple (fun s => l.reload = true ∧ Mid t l s) (reloadStation t) fun _ => Mid t l := by
  unfold reloadStation
  have hdisconnect : Triple (fun s => l.reload = true ∧ Mid t l s) (drive t .disconnect .disconnect)
      fun _ s => l.reload = true ∧ Mid t l s :=
    fun s h => ⟨h.1, drive_plain ht plain_disconnect .disconnect s h.2⟩
  refine Triple.bind hdisconnect fun _ => ?_
  refine Triple.bind (setStation_triple ht) fun _ => ?_
  exact setupEnable_triple ht .setMode .mode

theorem closeSetup_triple (ht : t.InTime) (hexpired : l.apExpired = true) :
    Triple (Mid t l) (closeSetup t) fun _ => Mid t l := by
  unfold closeSetup
  apply Triple.ite
  · intro _
    exact others_triple ht mid_stable .closeMode
  · intro _
    have hdrive : Triple (Mid t l) (drive t .closeMode (.mode t.now false)) fun _ => Mid t l :=
      drive_triple ht mid_stable (fun s h => h.note (d := .mode t.now false) rfl rfl rfl (h.close hexpired)) .closeMode
    refine Triple.bind hdrive fun _ => ?_
    refine Triple.bind (others_triple ht mid_stable .close) fun _ => ?_
    intro s h
    exact ⟨⟨⟨h.inv.logged.lawful, h.inv.logged.tried, h.inv.logged.opened⟩, h.inv.named, h.inv.waits,
      nofun, h.inv.bounded⟩, h.connect, h.close⟩

/-- A change of what the invariant does not speak of. -/
theorem mid_modify {f : State → State} (hlog : ∀ s, (f s).log = s.log)
    (hcred : ∀ s, (f s).hasCredentials = s.hasCredentials) (hretry : ∀ s, (f s).nextRetry = s.nextRetry)
    (hopen : ∀ s, (f s).state.apEnabled = s.state.apEnabled)
    (hwindow : ∀ s, (f s).state.apDeadline = s.state.apDeadline)
    (hconnecting : ∀ s, (f s).state.connecting = s.state.connecting)
    (hdeadline : ∀ s, (f s).connectionDeadline = s.connectionDeadline) :
    Triple (Mid t l) (modify f) fun _ => Mid t l := by
  intro s h
  rw [run_modify]
  refine ⟨⟨⟨?_, ?_, ?_⟩, ?_, ?_, ?_, ?_⟩, ?_, ?_⟩
  · rw [hlog]; exact h.inv.logged.lawful
  · rw [hlog]; exact h.inv.logged.tried
  · rw [hlog]; exact h.inv.logged.opened
  · rw [Named, hlog, hcred]; exact h.inv.named
  · rw [Waits, hlog, hretry]; exact h.inv.waits
  · rw [Window, hlog, hopen, hwindow]; exact h.inv.window
  · rw [Bounded, hconnecting, hdeadline]; exact h.inv.bounded
  · rw [MayConnect, hlog]; exact h.connect
  · rw [MayClose, hlog]; exact h.close

theorem startScan_triple (ht : t.InTime) : Triple (Mid t l) (startScan t) fun _ => Mid t l := by
  unfold startScan
  refine Triple.bind (drive_plain ht plain_scan .scan) fun _ => ?_
  apply Triple.ite
  · intro _
    refine Triple.bind (others_triple ht mid_stable .scanFailed) fun _ => ?_
    exact mid_modify (fun _ => rfl) (fun _ => rfl) (fun _ => rfl) (fun _ => rfl) (fun _ => rfl)
      (fun _ => rfl) fun _ => rfl
  · intro _
    exact .ret fun _ h => h

theorem takeResults_triple (ht : t.InTime) : Triple (Mid t l) (takeResults t) fun _ => Mid t l := by
  unfold takeResults
  refine Triple.bind (others_triple ht mid_stable .results) fun _ => ?_
  exact mid_modify (fun _ => rfl) (fun _ => rfl) (fun _ => rfl) (fun _ => rfl) (fun _ => rfl)
    (fun _ => rfl) fun _ => rfl

/-- A try is under way, and the next one is about to be put off. -/
structure Trying (t : Tick) (s : State) : Prop where
  logged : Logged t.now s
  named : Named s
  window : Window s

theorem trying_stable : Stable t (Trying t) :=
  fun o _ ho h => ⟨h.logged.other o, h.named.other o, h.window.other h.logged ho⟩

theorem tryConnect_triple (ht : t.InTime) (hconnect : l.connect = true) (hreload : l.reload = false) :
    Triple (Mid t l) (tryConnect t) fun _ => Mid t idle := by
  unfold tryConnect
  have hdrive : Triple (Mid t l) (drive t .connect (.connect t.now)) fun _ => Trying t := by
    refine drive_triple ht mid_stable (fun s h => ?_) .connect
    refine ⟨⟨⟨h.connect hconnect hreload, h.inv.logged.lawful⟩, fun c hc => ?_, h.inv.logged.opened⟩,
      h.inv.named, h.inv.window⟩
    rcases List.mem_cons.1 hc with rfl | hc
    · exact Nat.le_refl _
    · exact h.inv.logged.tried c hc
  refine Triple.bind hdrive fun _ => ?_
  refine Triple.bind (others_triple ht trying_stable .connecting) fun _ => ?_
  intro s h
  rw [run_modify]
  refine .of_inv ⟨⟨h.logged.lawful, h.logged.tried, h.logged.opened⟩, h.named, ?_, h.window, ?_⟩
  · intro c hc
    have hpast := h.logged.tried c hc
    dsimp only
    omega
  · intro hconnecting
    dsimp only at hconnecting ⊢
    rw [if_pos hconnecting]
    exact Nat.succ_ne_zero _

theorem pressButton_triple (ht : t.InTime) : Triple (Mid t l) (pressButton t) fun _ => Mid t l := by
  unfold pressButton
  apply Triple.ite
  · intro _
    refine Triple.bind (mid_modify (fun _ => rfl) (fun _ => rfl) (fun _ => rfl) (fun _ => rfl)
      (fun _ => rfl) (fun _ => rfl) fun _ => rfl) fun _ => ?_
    refine Triple.get_bind fun s _ => Triple.pre (P := Mid t l) ?_ fun _ h => h.2
    apply Triple.ite
    · intro _
      refine Triple.bind (setupEnable_triple ht .setButton .button) fun _ => ?_
      exact mid_modify (fun _ => rfl) (fun _ => rfl) (fun _ => rfl) (fun _ => rfl) (fun _ => rfl)
        (fun _ => rfl) fun _ => rfl
    · intro _
      exact .ret fun _ h => h
  · intro _
    exact mid_modify (fun _ => rfl) (fun _ => rfl) (fun _ => rfl) (fun _ => rfl) (fun _ => rfl)
      (fun _ => rfl) fun _ => rfl

/-- A tick keeps the invariant, whatever the other tasks do meanwhile. -/
theorem tick_triple {since : Nat} (hsince : since ≤ t.now) (ht : t.InTime) :
    Triple (Inv since) (tick t) fun _ => Inv t.now := by
  unfold tick
  refine Triple.bind (take_triple hsince) fun l => ?_
  have hkeep : ∀ s, Mid t l s → Mid t l s := fun _ h => h
  refine Triple.when (fun hreload => (reloadStation_triple ht).pre fun _ h => ⟨hreload, h⟩) (fun _ => hkeep) ?_
  refine Triple.when (fun _ => drive_plain ht plain_clock .clock) (fun _ => hkeep) ?_
  refine Triple.when (fun _ => drive_plain ht plain_disconnect .timeout) (fun _ => hkeep) ?_
  refine Triple.when (fun _ => setupEnable_triple ht .setNeeded .needed) (fun _ => hkeep) ?_
  refine Triple.when (fun hexpired => closeSetup_triple ht hexpired) (fun _ => hkeep) ?_
  refine Triple.when (fun _ => startScan_triple ht) (fun _ => hkeep) ?_
  refine Triple.when (fun _ => takeResults_triple ht) (fun _ => hkeep) ?_
  refine Triple.when (A := Mid t idle) ?_ (fun _ s h => .of_inv h.inv)
    ((pressButton_triple ht).post fun _ _ h => h.inv)
  intro hconnect
  simp only [Bool.and_eq_true, Bool.not_eq_true'] at hconnect
  exact tryConnect_triple ht hconnect.1.1 hconnect.1.2

end

/-! ## What a tick asks for -/

/-- The network that a tick hands to the driver. -/
def Tick.station (t : Tick) : Drive :=
  let ssid := Config.cString t.wifi.1.ssid
  if t.wifi.2 && !ssid.isEmpty then
    .station ssid (Config.cString t.wifi.1.password) (t.wifi.1.opened ≠ 0)
  else .station [] [] false

/-- What a tick may ask the driver for. -/
inductive Issues (t : Tick) : Drive → Prop
  | disconnect : Issues t .disconnect
  | connect : Issues t (.connect t.now)
  | mode (setup : Bool) : Issues t (.mode t.now setup)
  | scan : Issues t .scan
  | clock : Issues t .clock
  | station : Issues t t.station

/-- One step adds at most one entry to the log, which is one that the tick may ask for. -/
def Notes (t : Tick) (s s' : State) : Prop :=
  s'.log = s.log ∨ ∃ d, Issues t d ∧ s'.log = d :: s.log

section
variable {t : Tick}

theorem modify_notes {f : State → State} (h : ∀ s, (f s).log = s.log) : Steps (Notes t) (modify f) :=
  .single fun s => .inl (h s)

theorem others_notes (p : Point) : Steps (Notes t) (others t p) := by
  refine .single fun s => .inl ?_
  exact others_keep (P := fun s' => s'.log = s.log)
    (fun o _ s' h => (other_log o s').trans h) s rfl

theorem drive_notes {d : Drive} (hd : Issues t d) (p : Point) : Steps (Notes t) (drive t p d) := by
  unfold drive
  apply Steps.bind (others_notes p)
  intro _
  exact .single fun s => .inr ⟨d, hd, rfl⟩

theorem setupEnable_notes (before after : Point) : Steps (Notes t) (setupEnable t before after) := by
  unfold setupEnable
  apply Steps.ite
  · exact fun _ => others_notes before
  · intro _
    apply Steps.bind (drive_notes (.mode true) before)
    intro _
    apply Steps.bind (others_notes after)
    exact fun _ => modify_notes fun _ => rfl

theorem setStation_notes : Steps (Notes t) (setStation t) := by
  unfold setStation
  apply Steps.bind (drive_notes .station .setStation)
  intro _
  apply Steps.bind (others_notes .station)
  exact fun _ => modify_notes fun _ => rfl

theorem reloadStation_notes : Steps (Notes t) (reloadStation t) := by
  unfold reloadStation
  apply Steps.bind (drive_notes .disconnect .disconnect)
  intro _
  apply Steps.bind setStation_notes
  exact fun _ => setupEnable_notes .setMode .mode

theorem closeSetup_notes : Steps (Notes t) (closeSetup t) := by
  unfold closeSetup
  apply Steps.ite
  · exact fun _ => others_notes .closeMode
  · intro _
    apply Steps.bind (drive_notes (.mode false) .closeMode)
    intro _
    apply Steps.bind (others_notes .close)
    exact fun _ => modify_notes fun _ => rfl

theorem startScan_notes : Steps (Notes t) (startScan t) := by
  unfold startScan
  apply Steps.bind (drive_notes .scan .scan)
  intro _
  apply Steps.ite
  · intro _
    apply Steps.bind (others_notes .scanFailed)
    exact fun _ => modify_notes fun _ => rfl
  · exact fun _ => .ret

theorem takeResults_notes : Steps (Notes t) (takeResults t) := by
  unfold takeResults
  apply Steps.bind (others_notes .results)
  exact fun _ => modify_notes fun _ => rfl

theorem tryConnect_notes : Steps (Notes t) (tryConnect t) := by
  unfold tryConnect
  apply Steps.bind (drive_notes .connect .connect)
  intro _
  apply Steps.bind (others_notes .connecting)
  exact fun _ => modify_notes fun _ => rfl

theorem pressButton_notes : Steps (Notes t) (pressButton t) := by
  unfold pressButton
  apply Steps.ite
  · intro _
    refine Steps.bind (modify_notes fun _ => rfl) fun _ => ?_
    apply Steps.get_bind
    intro s
    apply Steps.ite
    · intro _
      apply Steps.bind (setupEnable_notes .setButton .button)
      exact fun _ => modify_notes fun _ => rfl
    · exact fun _ => .ret
  · exact fun _ => modify_notes fun _ => rfl

/-- A program that is run under a condition, before the rest. -/
theorem notes_when {c : Prop} [Decidable c] {x k : M Unit} (hx : Steps (Notes t) x)
    (hk : Steps (Notes t) k) : Steps (Notes t) (if c then x >>= fun _ => k else k) :=
  .ite (fun _ => .bind hx fun _ => hk) fun _ => hk

theorem tick_notes : Steps (Notes t) (tick t) := by
  unfold tick
  apply Steps.bind
  · exact .single fun _ => .inl rfl
  intro l
  apply notes_when reloadStation_notes
  apply notes_when (drive_notes .clock .clock)
  apply notes_when (drive_notes .disconnect .timeout)
  apply notes_when (setupEnable_notes .setNeeded .needed)
  apply notes_when closeSetup_notes
  apply notes_when startScan_notes
  apply notes_when takeResults_notes
  apply notes_when tryConnect_notes
  exact pressButton_notes

end

/-! ## The start -/

/-- Nothing is decided but to set the network. -/
def starting : Taken := ⟨true, false, false, false, false, false, false, false⟩

/-- The setup access point is not open yet, and has no deadline. -/
structure Closed (s : State) : Prop where
  closed : s.state.apEnabled = false
  undue : s.state.apDeadline = 0

section
variable {t : Tick} {s : State} {d : Drive}

theorem Closed.other (h : Closed s) (o : Other) : Closed (other o s) := by
  cases o with
  | gotIp n ip gateway =>
    refine ⟨h.closed, ?_⟩
    show (if s.state.apEnabled then n + setupMs else s.state.apDeadline) = 0
    rw [if_neg (by simp [h.closed])]
    exact h.undue
  | disconnected n reason random => exact ⟨h.closed, rfl⟩
  | scan => rcases other_scan s with heq | heq <;> rw [heq] <;> exact ⟨h.closed, h.undue⟩
  | _ => exact ⟨h.closed, h.undue⟩

theorem closed_stable : Stable t Closed := fun o _ _ h => h.other o

theorem drive_closed (ht : t.InTime) (d : Drive) (p : Point) :
    Triple Closed (drive t p d) fun _ => Closed :=
  drive_triple ht closed_stable (fun _ h => ⟨h.closed, h.undue⟩) p

theorem setStation_closed (ht : t.InTime) : Triple Closed (setStation t) fun _ => Closed := by
  unfold setStation
  refine Triple.bind (drive_closed ht _ .setStation) fun _ => ?_
  refine Triple.bind (others_triple ht closed_stable .station) fun _ => ?_
  exact fun s h => ⟨h.closed, h.undue⟩

/-- The state of the boot. -/
theorem Inv.boot (now : Nat) : Inv now {} :=
  ⟨⟨trivial, nofun, nofun⟩, nofun, nofun, nofun, nofun⟩

/-- The start of the network leaves the invariant, whether or not it succeeds. -/
theorem start_triple (ht : t.InTime) (password : Option Bytes) (mac : Bytes) (configSet : Bool) :
    Triple (fun s => s = {}) (start t password mac configSet) fun _ => Inv t.now := by
  let P (s : State) : Prop := Closed s ∧ Mid t starting s
  have hstable : Stable t P := fun o s ho h => ⟨h.1.other o, mid_stable o s ho h.2⟩
  cases password with
  | none =>
    intro s hs
    rw [hs]
    exact .boot t.now
  | some password =>
    unfold start
    dsimp only
    have hopen : Triple (fun s => s = {}) (drive t .setMode (.mode t.now true)) fun _ => P := by
      have hfirst : Triple P (drive t .setMode (.mode t.now true)) fun _ => P := by
        refine drive_triple ht hstable (fun s h => ?_) .setMode
        have hopening := h.2.opening
        refine ⟨⟨h.1.closed, h.1.undue⟩, ⟨⟨hopening.logged, hopening.named, hopening.waits, ?_,
          hopening.bounded⟩, hopening.connect, hopening.close⟩⟩
        intro hopen
        rw [h.1.closed] at hopen
        cases hopen
      refine hfirst.pre fun s hs => ?_
      rw [hs]
      exact ⟨⟨rfl, rfl⟩, .boot t.now, fun _ h => (by cases h), nofun⟩
    refine Triple.bind hopen fun _ => ?_
    have hname : Triple P (modify fun s => { s with
        state := { s.state with apSsid := text "ESP-Monitor-" ++ mac.flatMap upperHex } }) fun _ => P :=
      Triple.and (fun s h => ⟨h.closed, h.undue⟩) (mid_modify (fun _ => rfl) (fun _ => rfl) (fun _ => rfl)
        (fun _ => rfl) (fun _ => rfl) (fun _ => rfl) fun _ => rfl)
    refine Triple.bind hname fun _ => ?_
    have hsetup : Triple P (drive t .mode (.setup (text "ESP-Monitor-" ++ mac.flatMap upperHex) password))
        fun _ => P := (drive_closed ht _ .mode).and (drive_plain ht plain_setup .mode)
    refine Triple.bind hsetup fun _ => ?_
    apply Triple.ite
    · exact fun _ s h => h.2.inv
    intro _
    have hstation : Triple P (setStation t) fun _ => P :=
      (setStation_closed ht).and ((setStation_triple ht).pre fun _ h => ⟨rfl, h⟩)
    refine Triple.bind hstation fun _ => ?_
    apply Triple.ite
    · exact fun _ s h => h.2.inv
    intro _ s h
    exact ⟨⟨h.2.inv.logged.lawful, h.2.inv.logged.tried, h.2.inv.logged.opened⟩, h.2.inv.named,
      h.2.inv.waits, fun _ hdeadline => absurd h.1.undue hdeadline, h.2.inv.bounded⟩

end

/-! ## Runs -/

section
variable {since : Nat} {is : List Input} {s : State}

/-- The time of the last tick. -/
def lastTick : Nat → List Input → Nat
  | since, [] => since
  | _, .tick t :: is => lastTick t.now is
  | since, .other _ :: is => lastTick since is

theorem Inv.run (h : Inv since s) (htime : InTime since is) : Inv (lastTick since is) (run is s) := by
  induction is generalizing since s with
  | nil => exact h
  | cons i is ih =>
    cases i with
    | tick t => exact ih (tick_triple htime.1 htime.2.1 s h) htime.2.2
    | other o => exact ih (h.other htime.1) htime.2

end

/-- A run from the start. -/
theorem inv_run {t : Tick} {password : Option Bytes} {mac : Bytes} {configSet : Bool} {is : List Input}
    (ht : t.InTime) (htime : InTime t.now is) :
    Inv (lastTick t.now is) (run is (start t password mac configSet {}).2) :=
  (start_triple ht password mac configSet {} rfl).run htime

/-- **Connections are tried with care.** In any run from the start, whatever the other tasks do between
the critical sections, the driver is only asked to connect while the network it was given last has a
name, and a second or more after the last time. -/
theorem connects_spaced (t : Tick) (password : Option Bytes) (mac : Bytes) (configSet : Bool)
    (is : List Input) (ht : t.InTime) (htime : InTime t.now is) :
    ∀ later now before,
      (run is (start t password mac configSet {}).2).log = later ++ .connect now :: before →
      lastSsid before ≠ [] ∧ ∀ c, .connect c ∈ before → c + 1000 ≤ now := by
  intro later now before hlog
  have hinv : Inv _ (run is (start t password mac configSet {}).2) := inv_run ht htime
  have hlawful := hinv.logged.lawful
  rw [hlog] at hlawful
  obtain ⟨hnamed, hspaced⟩ : DriveRule before (.connect now) := hlawful.split
  exact ⟨hnamed, fun c hc => hspaced c (List.mem_filterMap.2 ⟨_, hc, rfl⟩)⟩

/-! ## A sample run -/

/-- A tick with a network stored, in which no other task runs. -/
def sampleTick (now : Nat) : Tick where
  now := now
  wifi := (⟨charArray 33 (text "home"), charArray 64 (text "staple of the house"), 0⟩, true)

theorem sampleTick_inTime (now : Nat) : (sampleTick now).InTime :=
  ⟨fun _ => Nat.le_refl _, fun _ _ ho => absurd ho List.not_mem_nil⟩

/-- The state after the start. -/
def sampleBoot : State := (start (sampleTick 0) (some (text "correct horse battery")) [1, 2, 3] true {}).2

/-- A connection is tried, fails, and is tried again. -/
def sampleRetry : List Input :=
  [.tick (sampleTick 1000), .other (.disconnected 1500 201 0), .tick (sampleTick 3500)]

theorem connects_spaced_sample :
    let log := (run sampleRetry sampleBoot).log
    log = .connect 3500 :: log.tail ∧ .connect 1000 ∈ log.tail ∧
      lastSsid log.tail ≠ [] ∧ ∀ c, .connect c ∈ log.tail → c + 1000 ≤ 3500 := by
  intro log
  have hlog : log = .connect 3500 :: log.tail := by decide +kernel
  have htime : InTime 0 sampleRetry :=
    ⟨Nat.zero_le _, sampleTick_inTime _, by decide, by decide, sampleTick_inTime _, trivial⟩
  exact ⟨hlog, by decide +kernel, connects_spaced (sampleTick 0) (some (text "correct horse battery"))
    [1, 2, 3] true sampleRetry (sampleTick_inTime 0) htime [] 3500 log.tail hlog⟩

end EspCfTunnel.Network
