import EspCfTunnel.Lib.Relational
import EspCfTunnel.Monitor.Session

/-!
# What the API does not tell

A caller without the device password and without a live session gets the same answers from two devices
that differ only in their secrets: the device password, the session token, the tunnel token, the Wi-Fi
password and the identifier of an upload. `Alike` relates such devices; it is kept by every request that
shows neither secret, and by everything else that happens.
-/

namespace EspCfTunnel.Network

open EspCfTunnel StateLogic Monitor

/-! ## The network -/

/-- The states differ in what the driver was asked for only. -/
def SameNet (s t : State) : Prop := ∃ log, t = { s with log := log }

theorem SameNet.other {s t : State} (h : SameNet s t) (o : Other) : SameNet (other o s) (other o t) := by
  obtain ⟨log, rfl⟩ := h
  cases o with
  | scan =>
    unfold Network.other requestScan
    dsimp only
    split
    · exact ⟨log, rfl⟩
    · exact ⟨log, rfl⟩
  | _ => exact ⟨log, rfl⟩

section
variable (t : Tick)

theorem others_agree (p : Point) : Agree SameNet (others t p) (others t p) := by
  apply Agree.modify
  intro s s' hs
  generalize t.between p = os
  induction os generalizing s s' with
  | nil => exact hs
  | cons o os ih => exact ih _ _ (hs.other o)

/-- What the driver is asked for may differ. -/
theorem drive_agree (p : Point) (d d' : Drive) : Agree SameNet (drive t p d) (drive t p d') := by
  apply Agree.bind (others_agree t p)
  intro _
  apply Agree.modify
  rintro s _ ⟨log, rfl⟩
  exact ⟨d' :: log, rfl⟩

/-- A change of fields other than the log. -/
theorem modify_agree {f : State → State}
    (h : ∀ s log, f { s with log := log } = { f s with log := log }) :
    Agree SameNet (modify f) (modify f) := by
  apply Agree.modify
  rintro s _ ⟨log, rfl⟩
  exact ⟨log, h s log⟩

theorem take_agree : Agree SameNet (take t) (take t) := by
  rintro s _ ⟨log, rfl⟩
  exact ⟨rfl, log, rfl⟩

theorem setupEnable_agree (before after : Point) :
    Agree SameNet (setupEnable t before after) (setupEnable t before after) := by
  unfold setupEnable
  apply Agree.ite
  · intro _
    exact others_agree t before
  · intro _
    apply Agree.bind (drive_agree t _ _ _)
    intro _
    apply Agree.bind (others_agree t after)
    intro _
    exact modify_agree fun _ _ => rfl

/-- The settings of the station: the driver gets the password, the state does not. -/
theorem setStation_agree {w : WifiConfig × Bool}
    (hssid : Config.cString t.wifi.1.ssid = Config.cString w.1.ssid) (hloaded : t.wifi.2 = w.2) :
    Agree SameNet (setStation t) (setStation { t with wifi := w }) := by
  unfold setStation
  dsimp only
  rw [← hssid, ← hloaded]
  apply Agree.bind (drive_agree t _ _ _)
  intro _
  apply Agree.bind (others_agree t _)
  intro _
  exact modify_agree fun _ _ => rfl

theorem reloadStation_agree {w : WifiConfig × Bool}
    (hssid : Config.cString t.wifi.1.ssid = Config.cString w.1.ssid) (hloaded : t.wifi.2 = w.2) :
    Agree SameNet (reloadStation t) (reloadStation { t with wifi := w }) := by
  unfold reloadStation
  apply Agree.bind (drive_agree t _ _ _)
  intro _
  apply Agree.bind (setStation_agree t hssid hloaded)
  intro _
  exact setupEnable_agree t _ _

theorem closeSetup_agree : Agree SameNet (closeSetup t) (closeSetup t) := by
  unfold closeSetup
  apply Agree.ite
  · intro _
    exact others_agree t _
  · intro _
    apply Agree.bind (drive_agree t _ _ _)
    intro _
    apply Agree.bind (others_agree t _)
    intro _
    exact modify_agree fun _ _ => rfl

theorem startScan_agree : Agree SameNet (startScan t) (startScan t) := by
  unfold startScan
  apply Agree.bind (drive_agree t _ _ _)
  intro _
  apply Agree.ite
  · intro _
    apply Agree.bind (others_agree t _)
    intro _
    exact modify_agree fun _ _ => rfl
  · intro _
    exact .ret

theorem takeResults_agree : Agree SameNet (takeResults t) (takeResults t) := by
  unfold takeResults
  apply Agree.bind (others_agree t _)
  intro _
  exact modify_agree fun _ _ => rfl

theorem tryConnect_agree : Agree SameNet (tryConnect t) (tryConnect t) := by
  unfold tryConnect
  apply Agree.bind (drive_agree t _ _ _)
  intro _
  apply Agree.bind (others_agree t _)
  intro _
  exact modify_agree fun _ _ => rfl

theorem pressButton_agree : Agree SameNet (pressButton t) (pressButton t) := by
  unfold pressButton
  apply Agree.ite
  · intro _
    apply Agree.bind (modify_agree fun _ _ => rfl)
    intro _
    apply Agree.get_bind
    rintro s _ ⟨log, rfl⟩
    exact Agree.ite (fun _ => .bind (setupEnable_agree t _ _) fun _ => modify_agree fun _ _ => rfl)
      (fun _ => .ret) s _ ⟨log, rfl⟩
  · intro _
    exact modify_agree fun _ _ => rfl

/-- A tick does not see the password of the network. -/
theorem tick_agree {w : WifiConfig × Bool}
    (hssid : Config.cString t.wifi.1.ssid = Config.cString w.1.ssid) (hloaded : t.wifi.2 = w.2) :
    Agree SameNet (tick t) (tick { t with wifi := w }) := by
  unfold tick
  apply Agree.bind (take_agree t)
  intro l
  apply Agree.when fun _ => reloadStation_agree t hssid hloaded
  apply Agree.when fun _ => drive_agree t _ _ _
  apply Agree.when fun _ => drive_agree t _ _ _
  apply Agree.when fun _ => setupEnable_agree t _ _
  apply Agree.when fun _ => closeSetup_agree t
  apply Agree.when fun _ => startScan_agree t
  apply Agree.when fun _ => takeResults_agree t
  apply Agree.when fun _ => tryConnect_agree t
  exact pressButton_agree t

end

end EspCfTunnel.Network

namespace EspCfTunnel.Api

open EspCfTunnel StateLogic Config Monitor

/-! ## The firmware update -/

/-- The uploads differ in their identifier only. -/
def SameOta (s t : Ota.State) : Prop :=
  ∃ id log, t = { s with upload := { s.upload with id := id }, log := log }

theorem otaRelease_agree : Agree SameOta Ota.release Ota.release := by
  unfold Ota.release Ota.otaAbort Ota.closeHandle
  apply Agree.get_bind
  rintro s _ ⟨id, log, rfl⟩
  refine Agree.when (R := SameOta) (fun _ => ?_) ?_ s _ ⟨id, log, rfl⟩
  · apply Agree.modify
    rintro s _ ⟨id, log, rfl⟩
    exact ⟨id, log, rfl⟩
  · apply Agree.modify
    rintro s _ ⟨id, log, rfl⟩
    exact ⟨_, log, rfl⟩

theorem otaTick_agree (a : Ota.Answers) : Agree SameOta (Ota.tick a) (Ota.tick a) := by
  unfold Ota.tick Ota.fail
  apply Agree.get_bind
  rintro s _ ⟨id, log, rfl⟩
  refine Agree.ite (R := SameOta) (fun _ => ?_) (fun _ => .ret) s _ ⟨id, log, rfl⟩
  apply Agree.bind otaRelease_agree
  intro _
  refine Agree.bind (.bind (Agree.modify ?_) fun _ => .ret) fun _ => .ret
  rintro s _ ⟨id, log, rfl⟩
  exact ⟨id, log, rfl⟩

/-! ## The device -/

/-- The devices differ in their secrets only. -/
structure Alike (s t : State) : Prop where
  failureWindow : s.failureWindow = t.failureWindow
  failures : s.failures = t.failures
  pending : s.pending = t.pending
  effectsAfter : s.effectsAfter = t.effectsAfter
  pins : s.pins = t.pins
  light : s.light = t.light
  net : Network.SameNet s.net t.net
  ota : SameOta s.ota t.ota
  ssid : ∀ reads, cString (storeWifi reads s.store).1.ssid = cString (storeWifi reads t.store).1.ssid
  wifi : ∀ reads, (storeWifi reads s.store).2 = (storeWifi reads t.store).2
  hostname : ∀ reads, (storeTunnel reads s.store).1.hostname = (storeTunnel reads t.store).1.hostname
  token : ∀ reads, (storeTunnel reads s.store).1.token.isEmpty = (storeTunnel reads t.store).1.token.isEmpty

/-- The request shows neither the session token nor the password. -/
def Uninformed (r : Request) (a : Answers) (s : State) : Prop :=
  ¬ Authorised r a.now s ∧ (r.post = true → r.path = text "/api/login" → ¬ RightPassword a r s)

section
variable {l : Library} {a : Answers} {r : Request} {s t : State}

theorem Alike.attempts (h : Alike s t) (now : Nat) : Api.attempts now s = Api.attempts now t := by
  rw [Api.attempts, Api.attempts, h.failureWindow, h.failures]

theorem Alike.window (h : Alike s t) (now : Nat) : Api.window now s = Api.window now t := by
  rw [Api.window, Api.window, h.failureWindow]

/-- The status of two such devices is the same. -/
theorem statusGet_alike (h : Alike s t) : (statusGet l a r s).1 = (statusGet l a r t).1 := by
  obtain ⟨log, hnet⟩ := h.net
  obtain ⟨id, log', hota⟩ := h.ota
  unfold statusGet
  simp only [StateLogic.run_bind, StateLogic.run_get, StateLogic.run_pure]
  rw [h.hostname, h.token, hnet, hota, h.pins, h.light]
  rfl

/-- A login without the password. -/
theorem loginPost_wrong (h : ¬ RightPassword a r s) :
    ∃ n w, n = attempts a.now s ∧ w = window a.now s ∧ loginPost l a r s =
      if r.originAllowed = false then (error 403 "The request origin does not match this device.", s)
      else if 5 ≤ n then (error 429 "Too many attempts. Try again in one minute.", s)
      else (error 401 "Incorrect device password or invalid request.",
        { s with failures := n + 1, failureWindow := w }) := by
  obtain ⟨n, w, hn, hw, hcases⟩ := loginPost_cases l a r s
  refine ⟨n, w, hn, hw, ?_⟩
  rcases hcases with ⟨ho, heq⟩ | ⟨ho, hroom, heq⟩ | ⟨ho, hroom, -, heq⟩ | ⟨-, -, hright, -⟩
  · rw [heq, if_pos ho]
  · rw [heq, if_neg (by simp [ho]), if_pos hroom]
  · rw [heq, if_neg (by simp [ho]), if_neg (by omega)]
  · exact absurd hright h

theorem loginPost_alike (h : Alike s t) (hs : ¬ RightPassword a r s) (ht : ¬ RightPassword a r t) :
    (loginPost l a r s).1 = (loginPost l a r t).1 ∧ Alike (loginPost l a r s).2 (loginPost l a r t).2 := by
  obtain ⟨n, w, hn, hw, heq⟩ := loginPost_wrong (l := l) hs
  obtain ⟨n', w', hn', hw', heq'⟩ := loginPost_wrong (l := l) ht
  obtain rfl : n = n' := by rw [hn, hn', h.attempts]
  obtain rfl : w = w' := by rw [hw, hw', h.window]
  rw [heq, heq']
  split
  · exact ⟨rfl, h⟩
  split
  · exact ⟨rfl, h⟩
  · exact ⟨rfl, { h with failures := rfl, failureWindow := rfl }⟩

/-- A request that shows no secret is answered alike. -/
theorem dispatch_alike (h : Alike s t) (hs : Uninformed r a s) (ht : Uninformed r a t) :
    (dispatch l a r s).1 = (dispatch l a r t).1 ∧ Alike (dispatch l a r s).2 (dispatch l a r t).2 := by
  have hno : authorized a r s = false := by simpa [← authorized_iff] using hs.1
  have hno' : authorized a r t = false := by simpa [← authorized_iff] using ht.1
  unfold dispatch
  simp only [StateLogic.run_ite]
  split
  · split
    · exact ⟨statusGet_alike h, by rwa [statusGet_state.1, statusGet_state.1]⟩
    split
    · rw [scanGet_eq, scanGet_eq, hno, hno']
      exact ⟨rfl, h⟩
    · exact ⟨rfl, h⟩
  next hpost =>
  split
  · next hpath =>
    exact loginPost_alike h (hs.2 (by simpa using hpost) hpath) (ht.2 (by simpa using hpost) hpath)
  · rw [changePost_refused hs.1, changePost_refused ht.1]
    exact ⟨rfl, h⟩

theorem serve_alike (h : Alike s t) (hs : Uninformed r a s) (ht : Uninformed r a t) :
    (serve l a r s).1 = (serve l a r t).1 ∧ Alike (serve l a r s).2 (serve l a r t).2 := by
  have hquiet {s : State} (hs : Uninformed r a s) : serve l a r s = dispatch l a r s := by
    rw [serve_eq, if_neg (by simp [((dispatch_change l a r s).unauthorised hs.1).1]), Prod.mk.eta]
  rw [hquiet hs, hquiet ht]
  exact dispatch_alike h hs ht

theorem tick_alike (h : Alike s t) (locked : Bool) :
    (tick a locked s).1 = (tick a locked t).1 ∧ Alike (tick a locked s).2 (tick a locked t).2 := by
  have hota := (otaTick_agree a.ota s.ota t.ota h.ota).2
  cases locked with
  | false => exact ⟨rfl, h⟩
  | true =>
    rw [tick_eq, tick_eq, ← h.pending, ← h.effectsAfter]
    split
    · refine ⟨rfl, { h with pending := rfl, effectsAfter := rfl, ota := hota, net := ?_ }⟩
      dsimp only
      split
      · exact h.net.other .reload
      · exact h.net
    · exact ⟨rfl, { h with pending := rfl, effectsAfter := rfl, ota := hota }⟩

/-! ## Runs -/

/-- No request of the run shows a secret. -/
def Ignorant (l : Library) : List Input → State → Prop
  | [], _ => True
  | .request r a :: is, s => Uninformed r a s ∧ Ignorant l is (step l (.request r a) s)
  | i :: is, s => Ignorant l is (step l i s)

/-- The answers to the requests of a run. -/
def replies (l : Library) : List Input → State → List Reply
  | [], _ => []
  | .request r a :: is, s => (serve l a r s).1 :: replies l is (step l (.request r a) s)
  | i :: is, s => replies l is (step l i s)

theorem network_alike (h : Alike s t) (reads : Bool) (k : Network.Tick) :
    Alike (step l (.network reads k) s) (step l (.network reads k) t) :=
  { h with net := (Network.tick_agree { k with wifi := storeWifi reads s.store } (h.ssid reads) (h.wifi reads)
      s.net t.net h.net).2 }

end

/-- **No secret is told.** Two devices that differ only in the device password, the session token, the
tunnel token, the Wi-Fi password and the identifier of an upload give the same answers along every run
whose requests show neither password nor session of either, whatever else happens in between. -/
theorem secrets_not_told (l : Library) (is : List Input) {s t : State} (h : Alike s t)
    (hs : Ignorant l is s) (ht : Ignorant l is t) :
    replies l is s = replies l is t ∧ Alike (run l is s) (run l is t) := by
  induction is generalizing s t with
  | nil => exact ⟨rfl, h⟩
  | cons i is ih =>
    cases i with
    | request r a =>
      obtain ⟨hreply, halike⟩ := serve_alike (l := l) h hs.1 ht.1
      obtain ⟨hreplies, hend⟩ := ih halike hs.2 ht.2
      exact ⟨congrArg₂ List.cons hreply hreplies, hend⟩
    | tick locked a => exact ih (tick_alike h locked).2 hs ht
    | network reads k => exact ih (network_alike h reads k) hs ht
    | event o => exact ih { h with net := h.net.other o } hs ht

/-- A device with these secrets. -/
def sampleDevice (password token passphrase : String) : State where
  session := text password
  sessionUntil := 600000
  store := {
    password := some (text password)
    wifi := some (WifiConfig.bytes ⟨charArray 33 (text "home"), charArray 64 (text passphrase), 0⟩)
    tunnel := some (TunnelConfig.bytes ⟨text token, text "monitor.example.com"⟩) }

/-- Requests without a secret, and what goes on in between. -/
def sampleRun : List Input :=
  [.request { path := text "/api/status", originAllowed := true } (sampleAnswers 1 []),
    sampleLogin "open sesame" 2,
    .request { samplePost "/api/logout" [] with authorization := some (text "Bearer guess") }
      (sampleAnswers 3 []),
    .tick true (sampleAnswers 4 []), .network true { now := 5 }]

theorem secrets_not_told_sample :
    replies sampleLibrary sampleRun (sampleDevice "correct horse battery" "eyJh" "staple of the house") =
      replies sampleLibrary sampleRun (sampleDevice "a different secret" "eyJi" "another network key") := by
  have halike : Alike (sampleDevice "correct horse battery" "eyJh" "staple of the house")
      (sampleDevice "a different secret" "eyJi" "another network key") := {
    failureWindow := rfl
    failures := rfl
    pending := rfl
    effectsAfter := rfl
    pins := rfl
    light := rfl
    net := ⟨[], rfl⟩
    ota := ⟨_, _, rfl⟩
    ssid := by decide +kernel
    wifi := by decide +kernel
    hostname := by decide +kernel
    token := by decide +kernel }
  refine (secrets_not_told sampleLibrary sampleRun halike ?_ ?_).1
  · simp only [sampleRun, Ignorant, Uninformed, sampleLogin, ← authorized_iff, ← passwordValid_iff]
    decide +kernel
  · simp only [sampleRun, Ignorant, Uninformed, sampleLogin, ← authorized_iff, ← passwordValid_iff]
    decide +kernel

end EspCfTunnel.Api
