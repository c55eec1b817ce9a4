import EspCfTunnel.Monitor.Radio
import EspCfTunnel.Monitor.Session

/-!
# The networks that the device joins

The Wi-Fi settings in the store are always those of a network with a name and, unless it is open, a
passphrase (`Credential`), and someone with a session has typed both, in one request. An empty password
keeps the one that is stored, but only for the network that it was typed for. The driver is given nothing
else.
-/

namespace EspCfTunnel.Monitor

open EspCfTunnel Config

/-- A network, with its passphrase unless it is open. -/
@[ext]
structure Credential where
  ssid : Bytes
  passphrase : Option Bytes
  named : ssid ≠ [] ∧ ssid.length ≤ 32 ∧ 0 ∉ ssid
  long : ∀ p ∈ passphrase, 8 ≤ p.length ∧ p.length ≤ 63 ∧ 0 ∉ p

namespace Credential

variable (k : Credential)

/-- The passphrase, or an empty one. -/
def password : Bytes := k.passphrase.getD []

/-- The record of the network in the store. -/
def record : WifiConfig where
  ssid := charArray 33 k.ssid
  password := charArray 64 k.password
  opened := if k.passphrase.isNone then 1 else 0

theorem password_fits : k.password.length ≤ 63 ∧ 0 ∉ k.password := by
  unfold password
  cases hp : k.passphrase with
  | none => exact ⟨Nat.zero_le _, List.not_mem_nil⟩
  | some p =>
    obtain ⟨-, hlen, hnul⟩ := k.long p hp
    exact ⟨hlen, hnul⟩

theorem cString_ssid : cString k.record.ssid = k.ssid := cString_charArray k.named.2.2

theorem cString_password : cString k.record.password = k.password :=
  cString_charArray k.password_fits.2

theorem opened_record : (k.record.opened ≠ 0) = (k.passphrase = none) := by
  unfold record
  cases k.passphrase <;> simp

theorem valid_record : k.record.valid = true := by
  have hssid : k.ssid.length < 33 := Nat.lt_succ_of_le k.named.2.1
  have hpassword : k.password.length < 64 := Nat.lt_succ_of_le k.password_fits.1
  have hopened : k.record.opened ≤ 1 := by
    unfold record
    dsimp only
    split <;> decide
  rw [WifiConfig.valid, decide_eq_true_eq]
  exact ⟨zero_mem_charArray hssid, zero_mem_charArray hpassword, hopened⟩

theorem length_record : k.record.ssid.length = 33 ∧ k.record.password.length = 64 :=
  ⟨length_charArray (k.named.2.1.trans (by decide)), length_charArray (k.password_fits.1.trans (by decide))⟩

/-- The bytes of a record are those of one network only. -/
theorem record_inj {k k' : Credential} (h : k.record.bytes = k'.record.bytes) : k = k' := by
  have hrecord : k.record = k'.record := by
    rw [← WifiConfig.ofBytes_bytes k.length_record.1 k.length_record.2, h,
      WifiConfig.ofBytes_bytes k'.length_record.1 k'.length_record.2]
  have hssid : k.ssid = k'.ssid := by rw [← k.cString_ssid, hrecord, k'.cString_ssid]
  have hpassword : k.password = k'.password := by
    rw [← k.cString_password, hrecord, k'.cString_password]
  have hopen : (k.passphrase = none) = (k'.passphrase = none) := by
    rw [← k.opened_record, hrecord, k'.opened_record]
  refine Credential.ext hssid ?_
  unfold password at hpassword
  cases hp : k.passphrase with
  | none => rw [← hopen.mp hp]
  | some p =>
    cases hp' : k'.passphrase with
    | none => rw [hopen.mpr hp'] at hp; cases hp
    | some p' =>
      rw [hp, hp'] at hpassword
      exact congrArg some hpassword

/-- The record of a network is loaded as it is. -/
theorem storeWifi_record {s : Store} (h : s.wifi = some k.record.bytes) (reads : Bool) :
    storeWifi reads s = if reads then (k.record, true) else ({}, false) := by
  obtain ⟨hssid, hpassword⟩ := k.length_record
  cases reads with
  | true =>
    have hsaved : s = (saveWifi true k.record s).2 := by
      rw [saveWifi, if_pos rfl, ← h]
    rw [hsaved]
    exact storeWifi_saveWifi hssid hpassword k.valid_record s
  | false =>
    rw [storeWifi, h]
    rfl

end Credential

end EspCfTunnel.Monitor

namespace EspCfTunnel.Network

open EspCfTunnel StateLogic Monitor

/-- A tick hands the driver no other network than its own. -/
theorem tick_station {t : Tick} {s : State} {ssid password : Bytes} {opened : Bool}
    (h : .station ssid password opened ∈ (tick t s).2.log) :
    .station ssid password opened ∈ s.log ∨ .station ssid password opened = t.station := by
  have hkeeps := (tick_notes (t := t)).keeps (P := fun s' => .station ssid password opened ∈ s'.log →
    .station ssid password opened ∈ s.log ∨ .station ssid password opened = t.station) (by
      rintro s₁ s₂ (heq | ⟨d, hd, heq⟩) hs hmem
      · exact hs (heq ▸ hmem)
      · rw [heq] at hmem
        rcases List.mem_cons.1 hmem with rfl | hmem
        · generalize hstation : Drive.station ssid password opened = d at hd
          cases hd with
          | station => exact .inr rfl
          | _ => cases hstation
        · exact hs hmem)
  exact hkeeps s (fun hmem => .inl hmem) h

/-- The networks in the log are all this one. -/
def OnlyStation (d : Drive) (s : State) : Prop :=
  ∀ ssid password opened, .station ssid password opened ∈ s.log → .station ssid password opened = d

/-- The start hands the driver no other network than its own. -/
theorem start_station (t : Tick) (password : Option Bytes) (mac : Bytes) (configSet : Bool) :
    OnlyStation t.station (start t password mac configSet {}).2 := by
  have hothers (p : Point) : Triple (OnlyStation t.station) (others t p) fun _ => OnlyStation t.station :=
    others_keep fun o _ s h ssid password opened hmem => h ssid password opened (other_log o s ▸ hmem)
  have hdrive (p : Point) (d : Drive)
      (hd : ∀ ssid password opened, .station ssid password opened = d → d = t.station) :
      Triple (OnlyStation t.station) (drive t p d) fun _ => OnlyStation t.station := by
    unfold drive
    refine Triple.bind (hothers p) fun _ s h ssid password opened hmem => ?_
    rcases List.mem_cons.1 hmem with heq | hmem
    · exact heq.trans (hd ssid password opened heq)
    · exact h ssid password opened hmem
  have hkeep {f : State → State} (hf : ∀ s, (f s).log = s.log) :
      Triple (OnlyStation t.station) (modify f) fun _ => OnlyStation t.station :=
    fun s h ssid password opened hmem => h ssid password opened (hf s ▸ hmem)
  have hstart : Triple (OnlyStation t.station) (start t password mac configSet)
      fun _ => OnlyStation t.station := by
    cases password with
    | none => exact .ret fun _ h => h
    | some password =>
      unfold start
      dsimp only
      refine Triple.bind (hdrive _ _ nofun) fun _ => ?_
      refine Triple.bind (hkeep fun _ => rfl) fun _ => ?_
      refine Triple.bind (hdrive _ _ nofun) fun _ => ?_
      apply Triple.ite
      · exact fun _ => .ret fun _ h => h
      intro _
      have hstation : Triple (OnlyStation t.station) (setStation t) fun _ => OnlyStation t.station := by
        unfold setStation
        refine Triple.bind (hdrive _ _ fun _ _ _ _ => rfl) fun _ => ?_
        refine Triple.bind (hothers _) fun _ => ?_
        exact hkeep fun _ => rfl
      refine Triple.bind hstation fun _ => ?_
      apply Triple.ite
      · exact fun _ => .ret fun _ h => h
      intro _
      refine Triple.bind (hkeep fun _ => rfl) fun _ => ?_
      exact .ret fun _ h => h
  exact hstart {} nofun

end EspCfTunnel.Network

namespace EspCfTunnel.Api

open EspCfTunnel StateLogic Config Monitor

/-! ## What was typed -/

/-- The settings in a body name the network, and its passphrase. -/
def Names (k : Credential) (j : Json) : Prop :=
  string j (text "ssid") = some k.ssid ∧ boolOf j "open" = some k.passphrase.isNone ∧
    ∀ p, k.passphrase = some p → string j (text "password") = some p

/-- The network was stored before the run, or it was typed in. -/
def Known (l : Library) (is : List Input) (s₀ : State) (k : Credential) : Prop :=
  s₀.store.wifi = some k.record.bytes ∨ Requested l is s₀ "/api/wifi" (Names k)

/-- The strings of a body are C strings. -/
def CStrings : Input → Prop
  | .request r a => ∀ j key v, bodyOf a r = some j → string j key = some v → 0 ∉ v
  | _ => True

/-- The settings that are stored are those of a network. -/
def State.Stores (s : State) : Prop := ∀ b, s.store.wifi = some b → ∃ k : Credential, b = k.record.bytes

section
variable {l : Library} {a : Answers} {r : Request} {j : Json} {s s₀ : State} {is : List Input}
  {k : Credential}

theorem Known.concat (h : Known l is s₀ k) (i : Input) : Known l (is ++ [i]) s₀ k := by
  rcases h with h | h
  · exact .inl h
  · exact .inr (h.concat i)

/-- The settings that a request stores are those that it names, or the ones that were stored. -/
theorem wifiValue_credential {ssid pass : Bytes} {opened : Bool} (hs : s.Stores)
    (body : WifiBody a j s ssid pass opened) (hssid : 0 ∉ ssid) (hpass : 0 ∉ pass) :
    ∃ k : Credential, wifiValue (storeWifi a.reads s.store).1 ssid pass opened = k.record ∧
      (s.store.wifi = some k.record.bytes ∨
        (k.ssid = ssid ∧ k.passphrase.isNone = opened ∧ ∀ p, k.passphrase = some p → pass = p)) := by
  have hnamed : ssid ≠ [] ∧ ssid.length ≤ 32 ∧ 0 ∉ ssid := ⟨body.named.1, body.named.2, hssid⟩
  cases opened with
  | true => exact ⟨⟨ssid, none, hnamed, nofun⟩, rfl, .inr ⟨rfl, rfl, nofun⟩⟩
  | false =>
    have hsecured := body.secured rfl
    generalize hsaved : (storeWifi a.reads s.store).1 = saved at hsecured ⊢
    have hvalue : (wifiValue saved ssid pass false).password = keptPassword saved ssid pass := rfl
    rw [hvalue] at hsecured
    by_cases hkeep : pass = [] ∧ cString saved.ssid = ssid ∧ saved.opened = 0
    · obtain ⟨hempty, hname, hclosed⟩ := hkeep
      -- The store was read, or there would be no name to compare.
      have hread : ∃ k : Credential, s.store.wifi = some k.record.bytes ∧ saved = k.record := by
        cases hwifi : s.store.wifi with
        | none =>
          have hnone : saved = {} := by rw [← hsaved, storeWifi, hwifi]; rfl
          rw [hnone] at hname
          exact absurd hname.symm body.named.1
        | some b =>
          obtain ⟨k, rfl⟩ := hs b hwifi
          refine ⟨k, rfl, ?_⟩
          rw [k.storeWifi_record hwifi] at hsaved
          cases hreads : a.reads with
          | true => rw [← hsaved, hreads, if_pos rfl]
          | false =>
            rw [hreads, if_neg Bool.false_ne_true] at hsaved
            rw [← hsaved] at hname
            exact absurd hname.symm body.named.1
      obtain ⟨k, hwifi, rfl⟩ := hread
      rw [k.cString_ssid] at hname
      refine ⟨k, ?_, .inl hwifi⟩
      have hpassword : keptPassword k.record ssid pass = k.record.password := by
        rw [keptPassword, if_pos ⟨hempty, by rw [k.cString_ssid, hname], hclosed⟩]
      show WifiConfig.mk (charArray 33 ssid) (keptPassword k.record ssid pass) 0 = k.record
      rw [hpassword, ← hname, ← hclosed]
      rfl
    · rw [keptPassword, if_neg hkeep, cString_charArray hpass] at hsecured
      refine ⟨⟨ssid, some pass, hnamed, ?_⟩, ?_, .inr ⟨rfl, rfl, fun p hp => Option.some.inj hp⟩⟩
      · intro p hp
        cases hp
        exact ⟨hsecured, body.fits, hpass⟩
      · show WifiConfig.mk (charArray 33 ssid) (keptPassword saved ssid pass) 0 = _
        rw [keptPassword, if_neg hkeep]
        rfl

/-- What one input does to the stored settings. -/
theorem step_wifi (l : Library) (i : Input) (hs : s.Stores) (hi : CStrings i) :
    (step l i s).store.wifi = s.store.wifi ∨
      ∃ k : Credential, (step l i s).store.wifi = some k.record.bytes ∧
        (s.store.wifi = some k.record.bytes ∨
          ∃ r a j, i = .request r a ∧ Authorised r a.now s ∧ r.path = text "/api/wifi" ∧
            bodyOf a r = some j ∧ Names k j) := by
  cases i with
  | request r a =>
    have hstore : (step l (.request r a) s).store = (dispatch l a r s).2.store := by
      rw [step, serve_eq]
      dsimp only
      split <;> rfl
    rw [hstore]
    have hchange := dispatch_change l a r s
    generalize (dispatch l a r s).2 = s', (dispatch l a r s).1.effects = e at hchange ⊢
    cases hchange with
    | none => exact .inl rfl
    | attempt => exact .inl rfl
    | login => exact .inl rfl
    | @operation j _ _ post authorised body op =>
      cases op with
      | @wifi ssid pass opened path settings =>
        have hssid : 0 ∉ ssid := hi j _ _ body settings.name
        have hpass : 0 ∉ pass := hi j _ _ body settings.password
        obtain ⟨k, hvalue, hk⟩ := wifiValue_credential hs settings hssid hpass
        refine .inr ⟨k, by rw [hvalue], ?_⟩
        rcases hk with hk | ⟨hname, hopen, htyped⟩
        · exact .inl hk
        · refine .inr ⟨r, a, j, rfl, authorised, path, body, ?_, ?_, ?_⟩
          · rw [hname]
            exact settings.name
          · rw [hopen]
            exact settings.kind
          · intro p hp
            rw [← htyped p hp]
            exact settings.password
      | tunnel => exact .inl (by unfold saveTunnel; split <;> rfl)
      | _ => exact .inl rfl
  | tick locked a =>
    cases locked with
    | false => exact .inl rfl
    | true =>
      refine .inl ?_
      rw [step, tick_eq]
      split <;> rfl
  | network reads t => exact .inl rfl
  | event o => exact .inl rfl

/-- After every run the stored settings are known. -/
theorem stored_known (hboot : s₀.session = []) (hstore : s₀.Stores) (hstrings : ∀ i ∈ is, CStrings i) :
    ∀ b, (run l is s₀).store.wifi = some b → ∃ k : Credential, b = k.record.bytes ∧ Known l is s₀ k := by
  induction is using List.reverseRecOn with
  | nil =>
    intro b hb
    obtain ⟨k, rfl⟩ := hstore b hb
    exact ⟨k, rfl, .inl hb⟩
  | append_singleton is i ih =>
    have hbefore := ih fun i' hi' => hstrings i' (List.mem_append_left _ hi')
    have hrun : run l (is ++ [i]) s₀ = step l i (run l is s₀) := Past.run_concat _ _ _ _
    have hstores : (run l is s₀).Stores := fun b hb => (hbefore b hb).imp fun _ h => h.1
    have hlast : CStrings i := hstrings i (List.mem_append_right _ List.mem_cons_self)
    have hold {b : Bytes} (hb : (run l is s₀).store.wifi = some b) :
        ∃ k : Credential, b = k.record.bytes ∧ Known l (is ++ [i]) s₀ k := by
      obtain ⟨k, heq, hk⟩ := hbefore b hb
      exact ⟨k, heq, hk.concat i⟩
    intro b hb
    rw [hrun] at hb
    rcases step_wifi l i hstores hlast with hsame | ⟨k, hnew, hk⟩
    · exact hold (hsame ▸ hb)
    · obtain rfl : k.record.bytes = b := Option.some.inj (hnew.symm.trans hb)
      rcases hk with hk | ⟨r, a, j, rfl, hauth, hpath, hbody, hnames⟩
      · exact hold hk
      · exact ⟨k, rfl, .inr (.last hboot hauth hpath hbody hnames)⟩

/-- The network that a tick hands to the driver is the one that is stored, or none. -/
theorem station_stored (hs : s.Stores) (reads : Bool) (t : Network.Tick) :
    ({ t with wifi := storeWifi reads s.store } : Network.Tick).station = .station [] [] false ∨
      ∃ k : Credential, s.store.wifi = some k.record.bytes ∧
        ({ t with wifi := storeWifi reads s.store } : Network.Tick).station =
          .station k.ssid k.password k.passphrase.isNone := by
  unfold Network.Tick.station
  dsimp only
  cases hwifi : s.store.wifi with
  | none =>
    refine .inl ?_
    rw [storeWifi, hwifi]
    rfl
  | some b =>
    obtain ⟨k, rfl⟩ := hs b hwifi
    rw [k.storeWifi_record hwifi]
    cases reads with
    | false => exact .inl rfl
    | true =>
      refine .inr ⟨k, rfl, ?_⟩
      have hne : k.ssid.isEmpty = false := by simp [k.named.1]
      have hopened : decide (k.record.opened ≠ 0) = k.passphrase.isNone := by
        rw [Bool.eq_iff_iff, decide_eq_true_eq, k.opened_record, Option.isNone_iff_eq_none]
      rw [if_pos rfl]
      dsimp only
      rw [k.cString_ssid, k.cString_password, hopened, hne]
      rfl

/-- What one input hands to the driver. -/
theorem step_station {i : Input} {ssid password : Bytes} {opened : Bool} (hs : s.Stores)
    (h : .station ssid password opened ∈ (step l i s).net.log) :
    .station ssid password opened ∈ s.net.log ∨
      Network.Drive.station ssid password opened = .station [] [] false ∨
      ∃ k : Credential, s.store.wifi = some k.record.bytes ∧
        .station ssid password opened = Network.Drive.station k.ssid k.password k.passphrase.isNone := by
  cases i with
  | request r a =>
    refine .inl ?_
    have hnet : (step l (.request r a) s).net.log = (dispatch l a r s).2.net.log := by
      rw [step, serve_eq]
      dsimp only
      split <;> rfl
    rw [hnet] at h
    have hchange := dispatch_change l a r s
    generalize (dispatch l a r s).2 = s', (dispatch l a r s).1.effects = e at hchange h
    cases hchange with
    | operation _ _ _ op =>
      cases op with
      | scan => exact (Network.other_log .scan s.net) ▸ h
      | tunnel => unfold saveTunnel at h; split at h <;> exact h
      | _ => exact h
    | _ => exact h
  | tick locked a =>
    refine .inl ?_
    cases locked with
    | false => exact h
    | true =>
      rw [step, tick_eq] at h
      split at h
      · dsimp only at h
        split at h
        · exact h
        · exact h
      · exact h
  | network reads t =>
    rcases Network.tick_station h with h | h
    · exact .inl h
    · rcases station_stored hs reads t with heq | ⟨k, hwifi, heq⟩
      · exact .inr (.inl (h.trans heq))
      · exact .inr (.inr ⟨k, hwifi, h.trans heq⟩)
  | event o => exact .inl (Network.other_log o s.net ▸ h)

end

/-- The device once its network was started. -/
def boot (store : Store) (light : Light) (unlocked reads : Bool) (t : Network.Tick) (mac : Bytes)
    (configSet : Bool) : State where
  store := store
  light := light
  net := (Network.start { t with wifi := storeWifi reads store } (storePassword unlocked 64 store) mac
    configSet {}).2

/-- **The device joins networks that someone typed in.** After any run from boot, the settings in the
store are those of a network that was stored before, or that a request with a live session named with its
passphrase; and the driver was given no network but such ones, ever. -/
theorem networks_known (l : Library) (store : Store) (light : Light) (unlocked reads : Bool)
    (t : Network.Tick) (mac : Bytes) (configSet : Bool) (is : List Input)
    (hstore : ∀ b, store.wifi = some b → ∃ k : Credential, b = k.record.bytes)
    (hstrings : ∀ i ∈ is, CStrings i) :
    let s₀ := boot store light unlocked reads t mac configSet
    let s := run l is s₀
    (∀ b, s.store.wifi = some b → ∃ k : Credential, b = k.record.bytes ∧ Known l is s₀ k) ∧
    ∀ ssid password opened, .station ssid password opened ∈ s.net.log →
      (ssid = [] ∧ password = [] ∧ opened = false) ∨ ∃ k : Credential, Known l is s₀ k ∧
        ssid = k.ssid ∧ password = k.password ∧ opened = k.passphrase.isNone := by
  intro s₀ s
  refine ⟨stored_known rfl hstore hstrings, ?_⟩
  have hgiven {is : List Input} (k : Credential) {ssid password : Bytes} {opened : Bool}
      (hk : Known l is s₀ k) (h : Network.Drive.station ssid password opened =
        .station k.ssid k.password k.passphrase.isNone) :
      (ssid = [] ∧ password = [] ∧ opened = false) ∨ ∃ k : Credential, Known l is s₀ k ∧
        ssid = k.ssid ∧ password = k.password ∧ opened = k.passphrase.isNone := by
    cases h
    exact .inr ⟨k, hk, rfl, rfl, rfl⟩
  have hnone {ssid password : Bytes} {opened : Bool}
      (h : Network.Drive.station ssid password opened = .station [] [] false) :
      ssid = [] ∧ password = [] ∧ opened = false := by
    cases h
    exact ⟨rfl, rfl, rfl⟩
  induction is using List.reverseRecOn with
  | nil =>
    intro ssid password opened h
    have hstation := Network.start_station _ _ _ _ ssid password opened h
    rcases station_stored (s := s₀) hstore reads t with heq | ⟨k, hwifi, heq⟩
    · exact .inl (hnone (hstation.trans heq))
    · exact hgiven k (.inl hwifi) (hstation.trans heq)
  | append_singleton is i ih =>
    have hbefore : ∀ i' ∈ is, CStrings i' := fun i' hi' => hstrings i' (List.mem_append_left _ hi')
    have hboot : s₀.session = [] := rfl
    have hstored := stored_known (l := l) hboot hstore hbefore
    have hstores : (run l is s₀).Stores := fun b hb => (hstored b hb).imp fun _ h => h.1
    have hrun : s = step l i (run l is s₀) := Past.run_concat _ _ _ _
    intro ssid password opened h
    rw [hrun] at h
    rcases step_station hstores h with h | h | ⟨k, hwifi, h⟩
    · rcases ih hbefore ssid password opened h with hempty | ⟨k, hk, hsame⟩
      · exact .inl hempty
      · exact .inr ⟨k, hk.concat i, hsame⟩
    · exact .inl (hnone h)
    · obtain ⟨k', heq, hk⟩ := hstored _ hwifi
      obtain rfl := Credential.record_inj heq
      exact hgiven k (hk.concat i) h

/-- The strings of a sample are C strings if those of its members are. -/
theorem cStrings_of_members {r : Request} {a : Answers} {members : List (Bytes × Json)}
    (hparse : a.parse r.body = .ok (.object members)) (h : ∀ m ∈ members, ∀ v, m.2 = .string v → 0 ∉ v) :
    CStrings (.request r a) := by
  intro j key v hbody hv
  have hj : j = .object members := by
    unfold bodyOf at hbody
    split at hbody
    · rw [hparse] at hbody
      exact (Option.some.inj hbody).symm
    · cases hbody
  rw [hj] at hv
  unfold string getItem at hv
  dsimp only at hv
  split at hv
  · next value hvalue =>
    cases hv
    obtain ⟨m, hm, hm2⟩ := Option.map_eq_some_iff.1 hvalue
    exact h m (List.mem_of_find?_eq_some hm) v hm2
  · cases hv

/-- A network is typed in, and the settings are applied a second later. -/
def sampleWifi : List Input :=
  [sampleLogin "correct horse battery" 0,
    sampleCall "/api/wifi" 10 [stringMember "ssid" (text "home"),
      stringMember "password" (text "staple of the house"), boolMember "open" false],
    sampleCall "/api/wifi" 20 [stringMember "ssid" (text "home"), stringMember "password" [],
      boolMember "open" false],
    .tick true (sampleAnswers 1020 []), .network true { now := 1020 }]

/-- A device as it comes. -/
def sampleBoot : State := boot sampleStore {} true true { now := 0 } [1, 2, 3] true

theorem networks_known_sample :
    .station (text "home") (text "staple of the house") false ∈
        (run sampleLibrary sampleWifi sampleBoot).net.log ∧
      ∃ k : Credential, Known sampleLibrary sampleWifi sampleBoot k ∧ text "home" = k.ssid ∧
        text "staple of the house" = k.password ∧ false = k.passphrase.isNone := by
  have hnul : 0 ∉ text "correct horse battery" ∧ 0 ∉ text "home" ∧ 0 ∉ text "staple of the house" := by
    decide +kernel
  have hlogin : CStrings (sampleLogin "correct horse battery" 0) :=
    cStrings_of_members rfl (by simpa [stringMember] using hnul.1)
  have hcall (members : List (Bytes × Json)) (now : Nat)
      (h : ∀ m ∈ members, ∀ v, m.2 = .string v → 0 ∉ v) : CStrings (sampleCall "/api/wifi" now members) :=
    cStrings_of_members rfl h
  have htick (a : Answers) : CStrings (.tick true a) := trivial
  have hnetwork (k : Network.Tick) : CStrings (.network true k) := trivial
  have hstrings : ∀ i ∈ sampleWifi, CStrings i := by
    simp only [sampleWifi, List.forall_mem_cons]
    refine ⟨hlogin, hcall _ _ ?_, hcall _ _ ?_, htick _, hnetwork _, fun _ h => absurd h List.not_mem_nil⟩
    · simpa [stringMember, boolMember] using hnul.2
    · simpa [stringMember, boolMember] using hnul.2.1
  have hstation : .station (text "home") (text "staple of the house") false ∈
      (run sampleLibrary sampleWifi sampleBoot).net.log := by decide +kernel
  have hnamed : text "home" ≠ [] := by decide +kernel
  rw [sampleBoot] at hstation ⊢
  rcases (networks_known sampleLibrary sampleStore {} true true { now := 0 } [1, 2, 3] true sampleWifi
    nofun hstrings).2 (text "home") (text "staple of the house") false hstation with hnone | hknown
  · exact absurd hnone.1 hnamed
  · exact ⟨hstation, hknown⟩

end EspCfTunnel.Api
