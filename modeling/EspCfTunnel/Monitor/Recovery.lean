import EspCfTunnel.Monitor.Radio

/-!
# How the Wi-Fi recovers

The setup access point is open again after the first tick that finds the station without an address,
and a station with credentials goes on to try: a connection that is not made in time is given up, and
the next one follows five seconds later.
-/

namespace EspCfTunnel.Network

open EspCfTunnel StateLogic History Monitor

/-! ## The setup access point -/

/-- The setup access point is open. -/
def Open (s : State) : Prop := s.state.apEnabled = true

section
variable {t : Tick}

theorem Open.other {s : State} (h : Open s) (o : Other) : Open (other o s) := by
  cases o with
  | scan => rcases other_scan s with heq | heq <;> rw [heq] <;> exact h
  | _ => exact h

theorem others_open (p : Point) : Triple Open (others t p) fun _ => Open :=
  others_keep fun o _ _ h => h.other o

theorem drive_open (p : Point) (d : Drive) : Triple Open (drive t p d) fun _ => Open := by
  unfold drive
  refine Triple.bind (others_open p) fun _ => ?_
  exact fun _ h => h

theorem setStation_open : Triple Open (setStation t) fun _ => Open := by
  unfold setStation
  refine Triple.bind (drive_open _ _) fun _ => ?_
  refine Triple.bind (others_open _) fun _ => ?_
  exact fun _ h => h

theorem setupEnable_open (before after : Point) :
    Triple Open (setupEnable t before after) fun _ => Open := by
  unfold setupEnable
  apply Triple.ite
  · exact fun _ => others_open before
  · intro _
    refine Triple.bind (drive_open _ _) fun _ => ?_
    refine Triple.bind (others_open _) fun _ => ?_
    exact fun _ _ => rfl

/-- If the driver takes the mode, the setup access point is open afterwards. -/
theorem setupEnable_opens {before after : Point} (hmode : t.modeSet before = true) (s : State) :
    Open (setupEnable t before after s).2 := by
  unfold setupEnable
  rw [run_ite, if_neg (by simp [hmode])]
  exact rfl

theorem reloadStation_open : Triple Open (reloadStation t) fun _ => Open := by
  unfold reloadStation
  refine Triple.bind (drive_open _ _) fun _ => ?_
  refine Triple.bind setStation_open fun _ => ?_
  exact setupEnable_open _ _

theorem startScan_open : Triple Open (startScan t) fun _ => Open := by
  unfold startScan
  refine Triple.bind (drive_open _ _) fun _ => ?_
  apply Triple.ite
  · intro _
    refine Triple.bind (others_open _) fun _ => ?_
    exact fun _ h => h
  · exact fun _ => .ret fun _ h => h

theorem takeResults_open : Triple Open (takeResults t) fun _ => Open := by
  unfold takeResults
  refine Triple.bind (others_open _) fun _ => ?_
  exact fun _ h => h

theorem tryConnect_open : Triple Open (tryConnect t) fun _ => Open := by
  unfold tryConnect
  refine Triple.bind (drive_open _ _) fun _ => ?_
  refine Triple.bind (others_open _) fun _ => ?_
  exact fun _ h => h

theorem pressButton_open : Triple Open (pressButton t) fun _ => Open := by
  unfold pressButton
  apply Triple.ite
  · intro _
    have hsince : Triple Open (modify fun s =>
        { s with buttonSince := if s.buttonSince = 0 then t.now else s.buttonSince }) fun _ => Open :=
      fun _ h => h
    refine Triple.bind hsince fun _ => ?_
    refine Triple.get_bind fun s _ => Triple.pre (P := Open) ?_ fun _ h => h.2
    apply Triple.ite
    · intro _
      refine Triple.bind (setupEnable_open _ _) fun _ => ?_
      exact fun _ h => h
    · exact fun _ => .ret fun _ h => h
  · exact fun _ _ h => h

/-- A tick that finds the station without an address leaves the setup access point open, if the driver
takes the mode. -/
theorem tick_opens (hmode : ∀ p, t.modeSet p = true) {s : State} (hs : s.state.connected = false) :
    Open (tick t s).2 := by
  have htick : Triple (fun s => s.state.connected = false) (tick t) fun _ => Open := by
    unfold tick
    have htake : Triple (fun s => s.state.connected = false) (take t) fun l s =>
        l.apExpired = false ∧ (l.apNeeded = false → Open s) := by
      intro s hs
      unfold take
      rw [run_bind_eq (run_get s), run_bind_eq (run_set _ _), run_pure]
      exact ⟨by simp [hs], by simp [hs, Open]⟩
    refine Triple.bind htake fun l => Triple.of_fact fun hexpired => ?_
    have hkeep {x : M Unit} (hx : Triple Open x fun _ => Open) :
        Triple (fun s => l.apNeeded = false → Open s) x fun _ s => l.apNeeded = false → Open s :=
      fun s hs hneeded => hx s (hs hneeded)
    refine Triple.when (fun _ => hkeep reloadStation_open) (fun _ _ h => h) ?_
    refine Triple.when (fun _ => hkeep (drive_open _ _)) (fun _ _ h => h) ?_
    refine Triple.when (fun _ => hkeep (drive_open _ _)) (fun _ _ h => h) ?_
    refine Triple.when (A := Open) (fun _ s _ => setupEnable_opens (hmode _) s)
      (fun hneeded s h => h (by simpa using hneeded)) ?_
    refine Triple.when (fun h => absurd h (by simp [hexpired])) (fun _ _ h => h) ?_
    refine Triple.when (fun _ => startScan_open) (fun _ _ h => h) ?_
    refine Triple.when (fun _ => takeResults_open) (fun _ _ h => h) ?_
    refine Triple.when (fun _ => tryConnect_open) (fun _ _ h => h) ?_
    exact pressButton_open
  exact htick s hs

end

/-- **The setup window.** In any run from the start, whatever the other tasks do between the critical
sections, the driver is only asked to close the setup access point ten minutes or more after it was
asked to open it, or in the tick that opened it. And a tick that finds the station without an address
leaves it open, if the driver takes the modes. -/
theorem setup_window (t : Tick) (password : Option Bytes) (mac : Bytes) (configSet : Bool)
    (is : List Input) (ht : t.InTime) (htime : InTime t.now is) :
    let s := run is (start t password mac configSet {}).2
    (∀ later now before, s.log = later ++ .mode now false :: before →
      ∀ c, .mode c true ∈ before → c + 600000 ≤ now ∨ c = now) ∧
    ∀ t' : Tick, (∀ p, t'.modeSet p = true) → s.state.connected = false →
      (tick t' s).2.state.apEnabled = true := by
  intro s
  constructor
  · intro later now before hlog c hc
    have hinv : Inv _ s := inv_run ht htime
    have hlawful := hinv.logged.lawful
    rw [hlog] at hlawful
    have hrule : DriveRule before (.mode now false) := hlawful.split
    exact hrule c (List.mem_filterMap.2 ⟨_, hc, rfl⟩)
  · intro t' hmode hs
    exact tick_opens hmode hs

/-- The station gets an address, the setup access point is closed ten minutes later, and the station
loses its address. -/
def sampleWindow : List Input :=
  [.tick (sampleTick 1000), .other (.gotIp 2000 (text "192.168.1.20") (text "192.168.1.1")),
    .tick (sampleTick 602000), .other (.disconnected 700000 200 0)]

theorem setup_window_sample :
    let s := run sampleWindow sampleBoot
    s.log = .mode 602000 false :: s.log.tail ∧ .mode 0 true ∈ s.log.tail ∧
      (∀ c, .mode c true ∈ s.log.tail → c + 600000 ≤ 602000 ∨ c = 602000) ∧
      s.state.apEnabled = false ∧ (tick (sampleTick 700250) s).2.state.apEnabled = true := by
  intro s
  have hlog : s.log = .mode 602000 false :: s.log.tail := by decide +kernel
  have htime : InTime 0 sampleWindow :=
    ⟨Nat.zero_le _, sampleTick_inTime _, by decide, by decide, sampleTick_inTime _, by decide, trivial⟩
  obtain ⟨hclosed, hopen⟩ := setup_window (sampleTick 0) (some (text "correct horse battery"))
    [1, 2, 3] true sampleWindow (sampleTick_inTime 0) htime
  exact ⟨hlog, by decide +kernel, hclosed [] 602000 s.log.tail hlog, by decide +kernel,
    hopen (sampleTick 700250) (fun _ => rfl) (by decide +kernel)⟩

/-! ## The next try -/

/-- The station has a network and no address, and is not busy otherwise. -/
structure Waiting (s : State) : Prop where
  credentials : s.hasCredentials = true
  away : s.state.connected = false
  unscanned : s.state.scanning = false
  settled : s.reloadRequested = false

/-- No other task runs during the tick. -/
def Tick.Quiet (t : Tick) : Prop := ∀ p, t.between p = []

section
variable {t : Tick} {s : State}

/-- The driver was asked for this. -/
def Asked (d : Drive) (s : State) : Prop := d ∈ s.log

theorem Asked.notes {d : Drive} {x : M Unit} (h : Steps (Notes t) x) :
    Triple (Asked d) x fun _ => Asked d := by
  apply h.keeps
  rintro s s' (heq | ⟨d', -, heq⟩) hd
  · rw [Asked, heq]
    exact hd
  · rw [Asked, heq]
    exact List.mem_cons_of_mem _ hd

end

end EspCfTunnel.Network
