import EspCfTunnel.Monitor.Api
import Mathlib.Data.Nat.Bitwise

/-!
# What a request can do

The inversion of `monitor_api_dispatch`: what may change, under which condition, and which effect is asked
for (`Change`, `Operation`). The invariants of the later modules look at requests only through it.
-/

namespace EspCfTunnel.Api

open EspCfTunnel StateLogic Config Monitor

/-! ## Secrets -/

/-- The loop of `equal_secret` is left at zero by equal bytes only. -/
theorem foldl_or_eq_zero {α : Type} {f : α → Nat} {xs : List α} {n : Nat} :
    xs.foldl (fun diff i => diff ||| f i) n = 0 ↔ n = 0 ∧ ∀ i ∈ xs, f i = 0 := by
  induction xs generalizing n with
  | nil => simp
  | cons x xs ih =>
    rw [List.foldl_cons, ih, Nat.or_eq_zero_iff, List.forall_mem_cons, and_assoc]

/-- `equal_secret` compares strings, if the loop is long enough for the first. -/
theorem equalSecret_iff {x y : Bytes} {max : Nat} (h : x.length ≤ max) :
    equalSecret x y max = true ↔ x = y := by
  rw [equalSecret, decide_eq_true_eq, foldl_or_eq_zero]
  constructor
  · rintro ⟨hlen, hbytes⟩
    have hlength : x.length = y.length := Nat.xor_eq_zero_iff.1 hlen
    apply List.ext_getElem hlength
    intro i hx hy
    have hi := hbytes i (List.mem_range.2 (by omega))
    rw [List.getD_eq_getElem _ _ hx, List.getD_eq_getElem _ _ hy] at hi
    have hxor : x[i] ^^^ y[i] = 0 := UInt8.toNat_inj.1 hi
    exact UInt8.xor_eq_zero_iff.1 hxor
  · rintro rfl
    exact ⟨Nat.xor_self _, fun i _ => by rw [UInt8.xor_self]; rfl⟩

/-- The request carries the token of the session, from an allowed origin and before it expires. -/
structure Authorised (r : Request) (now : Nat) (s : State) : Prop where
  origin : r.originAllowed = true
  session : s.session ≠ []
  live : now < s.sessionUntil
  bearer : ∃ auth, r.authorization = some auth ∧ auth.take 7 = text "Bearer " ∧
    equalSecret (auth.drop 7) s.session 64 = true

theorem authorized_iff {a : Answers} {r : Request} {s : State} :
    authorized a r s = true ↔ Authorised r a.now s := by
  unfold authorized
  constructor
  · intro h
    split at h
    · next auth hauth =>
      simp only [Bool.and_eq_true, decide_eq_true_eq, Bool.not_eq_true', List.isEmpty_eq_false_iff] at h
      obtain ⟨⟨⟨⟨horigin, hsession⟩, hlive⟩, hbearer⟩, hequal⟩ := h
      exact ⟨horigin, hsession, hlive, auth, hauth, hbearer, hequal⟩
    · cases h
  · rintro ⟨horigin, hsession, hlive, auth, hauth, hbearer, hequal⟩
    rw [hauth]
    simp [horigin, hsession, hlive, hbearer, hequal]

/-- An authorised request carries the token itself. -/
theorem Authorised.token {r : Request} {now : Nat} {s : State} (h : Authorised r now s)
    (hlen : s.session.length = 64) : r.authorization = some (text "Bearer " ++ s.session) := by
  obtain ⟨auth, hauth, hbearer, hequal⟩ := h.bearer
  have hsplit : auth = text "Bearer " ++ auth.drop 7 := by
    rw [← hbearer, List.take_append_drop]
  have hsame : auth.drop 7 = s.session := by
    have hbound : 64 < (auth.drop 7).length ∨ (auth.drop 7).length ≤ 64 := Nat.lt_or_ge 64 _
    rcases hbound with hbound | hbound
    · rw [equalSecret, decide_eq_true_eq, foldl_or_eq_zero, Nat.xor_eq_zero_iff] at hequal
      omega
    · exact (equalSecret_iff hbound).1 hequal
  rw [hauth, hsplit, hsame]

/-! ## Logins -/

/-- The attempts that count against a login at this time. -/
def attempts (now : Nat) (s : State) : Nat :=
  if Network.elapsed now s.failureWindow ≥ 60000 then 0 else s.failures

/-- The start of the window that a login at this time falls into. -/
def window (now : Nat) (s : State) : Nat :=
  if Network.elapsed now s.failureWindow ≥ 60000 then now else s.failureWindow

/-- The body is an object with the device password and nothing else. -/
def RightPassword (a : Answers) (r : Request) (s : State) : Prop :=
  ∃ j password, bodyOf a r = some j ∧ jsonKeys (some j) [text "password"] = true ∧
    string j (text "password") = some password ∧ a.reads = true ∧ s.store.password = some password ∧
    12 ≤ password.length ∧ password.length ≤ 63

theorem storePassword_iff {reads : Bool} {s : Store} {p : Bytes} : storePassword reads 64 s = some p ↔
    reads = true ∧ s.password = some p ∧ 12 ≤ p.length ∧ p.length ≤ 63 := by
  rw [storePassword, if_neg (by omega)]
  cases hstored : s.password with
  | none => simp
  | some q =>
    dsimp only
    constructor
    · intro h
      split at h
      · next hok =>
        cases h
        exact ⟨hok.1, rfl, by omega, by omega⟩
      · cases h
    · rintro ⟨hreads, hq, hmin, hmax⟩
      cases hq
      rw [if_pos ⟨hreads, by omega, by omega⟩]

theorem passwordValid_iff {a : Answers} {r : Request} {s : State} :
    passwordValid a r s = true ↔ RightPassword a r s := by
  unfold passwordValid RightPassword
  constructor
  · intro h
    split at h
    · cases h
    next j hbody =>
    split at h
    · next password expected hpassword hexpected =>
      simp only [Bool.and_eq_true, decide_eq_true_eq] at h
      obtain ⟨⟨hkeys, hlen⟩, hequal⟩ := h
      have hsame : password = expected := (equalSecret_iff hlen).1 hequal
      subst hsame
      obtain ⟨hreads, hstored, hmin, hmax⟩ := storePassword_iff.1 hexpected
      exact ⟨j, password, hbody, hkeys, hpassword, hreads, hstored, hmin, hmax⟩
    · cases h
  · rintro ⟨j, password, hbody, hkeys, hpassword, hreads, hstored, hmin, hmax⟩
    have hexpected : storePassword a.reads 64 s.store = some password :=
      storePassword_iff.2 ⟨hreads, hstored, hmin, hmax⟩
    rw [hbody]
    dsimp only
    rw [hpassword, hexpected]
    simp [hkeys, hmax, equalSecret_iff hmax]

/-- A login that is answered with a session. -/
structure Grants (r : Request) (a : Answers) (s : State) : Prop where
  post : r.post = true
  path : r.path = text "/api/login"
  origin : r.originAllowed = true
  room : attempts a.now s < 5
  password : RightPassword a r s

theorem resetWindow_eq (a : Answers) (s : State) : resetWindow a s =
    (⟨⟩, { s with failures := attempts a.now s, failureWindow := window a.now s }) := by
  rw [resetWindow, StateLogic.run_modify]
  unfold attempts window
  split <;> rfl

@[simp] theorem sendJson_effects (l : Library) (a : Answers) (e : Effects) (j : Json) :
    (sendJson l a e j).effects = e := by
  unfold sendJson
  split <;> rfl

theorem sendJson_status (l : Library) (a : Answers) (e : Effects) (j : Json) :
    (sendJson l a e j).status = 200 ∨ (sendJson l a e j).status = 503 := by
  unfold sendJson
  split
  · exact .inl rfl
  · exact .inr rfl

/-- What a login does to the state: nothing, an attempt more, or a new session. -/
theorem loginPost_cases (l : Library) (a : Answers) (r : Request) (s : State) :
    ∃ n w, n = attempts a.now s ∧ w = window a.now s ∧
      ((r.originAllowed = false ∧ loginPost l a r s =
        (error 403 "The request origin does not match this device.", s)) ∨
      (r.originAllowed = true ∧ 5 ≤ n ∧ loginPost l a r s =
        (error 429 "Too many attempts. Try again in one minute.", s)) ∨
      (r.originAllowed = true ∧ n < 5 ∧ ¬ RightPassword a r s ∧ loginPost l a r s =
        (error 401 "Incorrect device password or invalid request.",
          { s with failures := n + 1, failureWindow := w })) ∨
      (r.originAllowed = true ∧ n < 5 ∧ RightPassword a r s ∧ ∃ reply : Reply,
        reply.effects = {} ∧ reply.status ≠ 401 ∧ loginPost l a r s = (reply,
          { s with
            session := sessionToken a, sessionUntil := a.now + 600000, failures := 0,
            failureWindow := w }))) := by
  obtain ⟨n, hn⟩ : ∃ n, n = attempts a.now s := ⟨_, rfl⟩
  obtain ⟨w, hw⟩ : ∃ w, w = window a.now s := ⟨_, rfl⟩
  have hreset : resetWindow a s = (⟨⟩, { s with failures := n, failureWindow := w }) := by
    rw [resetWindow_eq, hn, hw]
  refine ⟨n, w, hn, hw, ?_⟩
  unfold loginPost
  rw [StateLogic.run_ite]
  cases horigin : r.originAllowed with
  | false => exact .inl ⟨rfl, rfl⟩
  | true =>
    rw [if_neg (by simp), StateLogic.run_bind_eq hreset, StateLogic.run_bind_eq (StateLogic.run_get _),
      StateLogic.run_ite]
    refine .inr ?_
    by_cases hroom : 5 ≤ n
    · have hopen : ¬ Network.elapsed a.now s.failureWindow ≥ 60000 := by
        intro hlate
        rw [attempts, if_pos hlate] at hn
        omega
      have hsame : { s with failures := n, failureWindow := w } = s := by
        rw [hn, hw, attempts, window, if_neg hopen, if_neg hopen]
      rw [if_pos hroom]
      exact .inl ⟨rfl, hroom, by rw [StateLogic.run_pure, hsame]⟩
    · rw [if_neg hroom, StateLogic.run_bind_eq (StateLogic.run_modify _ _), StateLogic.run_ite]
      have hvalid : passwordValid a r { s with failures := n, failureWindow := w } = passwordValid a r s := rfl
      rw [hvalid]
      refine .inr ?_
      cases hpassword : passwordValid a r s with
      | false =>
        have hwrong : ¬ RightPassword a r s := by rw [← passwordValid_iff, hpassword]; simp
        exact .inl ⟨rfl, by omega, hwrong, rfl⟩
      | true =>
        have hstatus (j : Json) : (sendJson l a {} j).status ≠ 401 := by
          rcases sendJson_status l a {} j with h | h <;> simp [h]
        exact .inr ⟨rfl, by omega, passwordValid_iff.1 hpassword, _, sendJson_effects l a {} _,
          hstatus _, rfl⟩

/-! ## Operations -/

/-- The request ends the session. -/
structure Revokes (r : Request) (a : Answers) (s : State) : Prop where
  post : r.post = true
  path : r.path = text "/api/logout"
  authorised : Authorised r a.now s
  body : (bodyOf a r).isSome

theorem login_ne_logout : text "/api/login" ≠ text "/api/logout" := by decide +kernel

theorem Grants.not_revokes {r : Request} {a : Answers} {s : State} (h : Grants r a s) : ¬ Revokes r a s :=
  fun h' => login_ne_logout (h.path.symm.trans h'.path)

/-- The settings that `wifi_post` takes from a body. -/
structure WifiBody (a : Answers) (j : Json) (s : State) (ssid pass : Bytes) (opened : Bool) : Prop where
  name : string j (text "ssid") = some ssid
  password : string j (text "password") = some pass
  kind : boolOf j "open" = some opened
  named : ssid ≠ [] ∧ ssid.length ≤ 32
  fits : pass.length ≤ 63
  secured : opened = false →
    8 ≤ (cString (wifiValue (storeWifi a.reads s.store).1 ssid pass opened).password).length

/-- What the store and the device are for `tunnel_post`. -/
def deviceOf (a : Answers) (s : State) : Device :=
  ⟨a.parse, a.scratch, a.memory, (storeTunnel a.reads s.store).2, a.writes⟩

/-- What an operation does to the state, with the effects of its reply. -/
inductive Operation (l : Library) (a : Answers) (r : Request) (j : Json) (s : State) : State → Effects → Prop
  | none : Operation l a r j s s {}
  | wifi {ssid pass : Bytes} {opened : Bool} (path : r.path = text "/api/wifi")
    (body : WifiBody a j s ssid pass opened) :
    Operation l a r j s { s with store := { s.store with
      wifi := some (wifiValue (storeWifi a.reads s.store).1 ssid pass opened).bytes } } { wifi := true }
  | tunnel {config : TunnelConfig} {reply : Monitor.Reply} (path : r.path = text "/api/tunnel")
    (post : Monitor.tunnelPost (deviceOf a s) (storeTunnel a.reads s.store).1 j = (config, reply))
    (effect : reply.effect = true) :
    Operation l a r j s { s with store := (saveTunnel a.writes config s.store).2 } { tunnel := true }
  | pins {pin mode value : Int} (path : r.path = text "/api/gpio")
    (asked : intOf j "pin" = some pin ∧ intOf j "mode" = some mode ∧ intOf j "value" = some value) :
    Operation l a r j s { s with pins := (ioSet a.pins pin mode value s.pins).2 } {}
  | light {on : Bool} {red green blue brightness : Nat} (path : r.path = text "/api/rgb") :
    Operation l a r j s { s with light := (ledSet a.shown on red green blue brightness s.light).2 } {}
  | ota {c : Ota.Call} (path : r.path.take 9 = text "/api/ota/") :
    Operation l a r j s { s with ota := (Ota.call a.ota l.sha l.format c s.ota).2 } {}
  | finish {id : Option Bytes} (path : r.path = text "/api/ota/finish")
    (done : (Ota.finish a.ota l.sha id s.ota).1 = true) :
    Operation l a r j s { s with ota := (Ota.finish a.ota l.sha id s.ota).2 } { reboot := true }
  | restart (path : r.path = text "/api/tunnel/restart") : Operation l a r j s s { restart := true }
  | logout (path : r.path = text "/api/logout") :
    Operation l a r j s { s with session := [], sessionUntil := 0 } {}
  | scan (path : r.path = text "/api/scan") :
    Operation l a r j s { s with net := (Network.requestScan s.net).2 } {}

/-- The program does one of these things, from every state. -/
def Does (l : Library) (a : Answers) (r : Request) (j : Json) (x : M Reply) : Prop :=
  ∀ s, Operation l a r j s (x s).2 (x s).1.effects

theorem Does.ite {l : Library} {a : Answers} {r : Request} {j : Json} {c : Prop} [Decidable c]
    {x y : M Reply} (hx : c → Does l a r j x) (hy : ¬ c → Does l a r j y) :
    Does l a r j (if c then x else y) := by
  split
  · next h => exact hx h
  · next h => exact hy h

/-- A refusal. -/
theorem Does.refuse {l : Library} {a : Answers} {r : Request} {j : Json} {status : Nat} {message : String} :
    Does l a r j (return error status message) := fun _ => .none

section
variable {l : Library} {a : Answers} {r : Request} {j : Json} {s : State}

theorem wifiPost_does (path : r.path = text "/api/wifi") : Does l a r j (wifiPost a j) := by
  unfold wifiPost
  dsimp only
  split
  · next ssid pass opened hssid hpass hopened =>
    apply Does.ite
    · intro _
      exact .refuse
    intro hbody s
    rw [StateLogic.run_bind_eq (StateLogic.run_get s), StateLogic.run_ite]
    split
    · exact .none
    next hsecured =>
    rw [StateLogic.run_bind_eq (StateLogic.run_set _ _), StateLogic.run_ite, saveWifi]
    cases hwrites : a.writes with
    | false => exact .none
    | true =>
      refine .wifi path ⟨hssid, hpass, hopened, ?_, ?_, ?_⟩
      · exact ⟨fun h => hbody (.inr (.inl h)), by omega⟩
      · omega
      · intro h
        rw [h] at hsecured ⊢
        simpa using hsecured
  · exact .refuse

theorem tunnelPost_does (path : r.path = text "/api/tunnel") : Does l a r j (tunnelPost a j) := by
  intro s
  unfold tunnelPost
  rw [StateLogic.run_bind_eq (StateLogic.run_get s)]
  dsimp only
  rw [StateLogic.run_ite]
  split
  · next heffect => exact .tunnel path rfl heffect
  · exact .none

theorem gpioPost_does (path : r.path = text "/api/gpio") : Does l a r j (gpioPost a j) := by
  unfold gpioPost
  dsimp only
  split
  · next pin mode value hpin hmode hvalue =>
    apply Does.ite
    · intro _
      exact .refuse
    intro _ s
    rw [StateLogic.run_bind_eq (StateLogic.run_get s), StateLogic.run_bind_eq (StateLogic.run_set _ _),
      StateLogic.run_ite]
    split
    · exact .pins path ⟨hpin, hmode, hvalue⟩
    · exact .pins path ⟨hpin, hmode, hvalue⟩
  · exact .refuse

theorem rgbPost_does (path : r.path = text "/api/rgb") : Does l a r j (rgbPost a j) := by
  unfold rgbPost
  dsimp only
  apply Does.ite
  · intro _
    exact .refuse
  intro _
  split
  · intro s
    rw [StateLogic.run_bind_eq (StateLogic.run_get s), StateLogic.run_bind_eq (StateLogic.run_set _ _),
      StateLogic.run_ite]
    split
    · exact .light path
    · exact .light path
  · exact .refuse

/-- The answer to a firmware request leaves the state as it is, and has the effects of a success only. -/
theorem otaReply_eq (success started : Bool) (e : Effects) (s : State) :
    (otaReply l a success started e s).2 = s ∧
      (otaReply l a success started e s).1.effects = if success then e else {} := by
  unfold otaReply
  rw [StateLogic.run_bind_eq (StateLogic.run_get s), StateLogic.run_ite]
  cases success with
  | true => exact ⟨rfl, sendJson_effects _ _ _ _⟩
  | false => exact ⟨rfl, rfl⟩

/-- A call of the firmware module with its answer. -/
theorem otaCall_does (path : r.path.take 9 = text "/api/ota/") (c : Ota.Call) (x : Ota.M Bool)
    (hx : ∀ s, (Ota.call a.ota l.sha l.format c s).2 = (x s).2) (k : Bool → Bool) :
    Does l a r j (otaCall x >>= fun ok => otaReply l a ok (k ok) {}) := by
  intro s
  have hcall : otaCall x s = ((x s.ota).1, { s with ota := (x s.ota).2 }) := rfl
  rw [StateLogic.run_bind_eq hcall]
  obtain ⟨hstate, heffects⟩ := otaReply_eq (l := l) (a := a) (x s.ota).1 (k (x s.ota).1) {}
    { s with ota := (x s.ota).2 }
  rw [hstate, heffects, ite_self, ← hx]
  exact .ota path

/-- The end of an upload. -/
theorem otaFinish_does (path : r.path = text "/api/ota/finish") (id : Option Bytes) :
    Does l a r j (otaCall (Ota.finish a.ota l.sha id) >>= fun ok =>
      otaReply l a ok false { reboot := ok }) := by
  intro s
  have hcall : otaCall (Ota.finish a.ota l.sha id) s =
    ((Ota.finish a.ota l.sha id s.ota).1, { s with ota := (Ota.finish a.ota l.sha id s.ota).2 }) := rfl
  rw [StateLogic.run_bind_eq hcall]
  obtain ⟨hstate, heffects⟩ := otaReply_eq (l := l) (a := a) (Ota.finish a.ota l.sha id s.ota).1 false
    { reboot := (Ota.finish a.ota l.sha id s.ota).1 }
    { s with ota := (Ota.finish a.ota l.sha id s.ota).2 }
  rw [hstate, heffects]
  cases hdone : (Ota.finish a.ota l.sha id s.ota).1 with
  | true => exact .finish path hdone
  | false => exact .ota (c := .finish id) (by rw [path]; decide +kernel)

theorem otaPost_does (path : r.path.take 9 = text "/api/ota/") : Does l a r j (otaPost l a r j) := by
  unfold otaPost otaStart otaChunk
  dsimp only
  apply Does.ite
  · intro _
    split
    · next size hsize =>
      apply Does.ite
      · intro _
        exact .refuse
      intro _
      exact otaCall_does path (.start size.toNat (string j (text "sha256"))) _ (fun _ => rfl) id
    · exact .refuse
  intro _
  apply Does.ite
  · intro _
    split
    · next offset data hoffset hdata =>
      apply Does.ite
      · intro _
        exact .refuse
      intro _
      split
      · exact .refuse
      · next bytes hbytes =>
        exact otaCall_does path (.write (string j (text "id")) offset.toNat (some bytes)) _
          (fun _ => rfl) fun _ => false
    · exact .refuse
  intro _
  apply Does.ite
  · intro _
    exact .refuse
  intro _
  apply Does.ite
  · intro hfinish
    exact otaFinish_does hfinish _
  intro _
  apply Does.ite
  · intro _
    exact otaCall_does path (.abort (string j (text "id"))) _ (fun _ => rfl) fun _ => false
  intro _
  exact .refuse

/-- What the branches of `change_post` do. -/
theorem operation_does (l : Library) (a : Answers) (r : Request) (j : Json) :
    Does l a r j (operation l a r j) := by
  unfold operation
  apply Does.ite wifiPost_does
  intro _
  apply Does.ite tunnelPost_does
  intro _
  apply Does.ite otaPost_does
  intro _
  apply Does.ite fun path _ => .restart path.1
  intro _
  apply Does.ite gpioPost_does
  intro _
  apply Does.ite rgbPost_does
  intro _
  apply Does.ite fun path _ => .logout path
  intro _
  apply Does.ite
  · intro path s
    rw [StateLogic.run_bind_eq (StateLogic.run_get s)]
    dsimp only
    rw [StateLogic.run_bind_eq (StateLogic.run_set _ _), StateLogic.run_ite]
    split
    · exact .scan path.1
    · exact .scan path.1
  intro _
  exact .refuse

/-! ## Requests -/

/-- What a request does to the state, with the effects of its reply. -/
inductive Change (l : Library) (a : Answers) (r : Request) (s : State) : State → Effects → Prop
  | none : Change l a r s s {}
  | attempt {n w : Nat} (post : r.post = true) (path : r.path = text "/api/login")
    (hn : n = attempts a.now s) (hw : w = window a.now s) :
    Change l a r s { s with failures := n + 1, failureWindow := w } {}
  | login {w : Nat} (hw : w = window a.now s) (grants : Grants r a s) :
    Change l a r s { s with
      session := sessionToken a, sessionUntil := a.now + 600000, failures := 0, failureWindow := w } {}
  | operation {j : Json} {s' : State} {e : Effects} (post : r.post = true)
    (authorised : Authorised r a.now s) (body : bodyOf a r = some j) (op : Operation l a r j s s' e) :
    Change l a r s s' e

theorem changePost_refused (h : ¬ Authorised r a.now s) : changePost l a r s =
    (error 401 "Unlock Settings with the device password. Sessions expire after 10 minutes.", s) := by
  have hno : authorized a r s = false := by simpa [← authorized_iff] using h
  unfold changePost
  rw [StateLogic.run_bind_eq (StateLogic.run_get s), StateLogic.run_ite, if_pos (by simp [hno])]
  rfl

theorem changePost_allowed (h : Authorised r a.now s) : changePost l a r s =
    match bodyOf a r with
    | none => (error 400 "Send a JSON object of at most 2048 bytes.", s)
    | some j => operation l a r j s := by
  unfold changePost
  rw [StateLogic.run_bind_eq (StateLogic.run_get s), StateLogic.run_ite,
    if_neg (by simp [authorized_iff.2 h])]
  cases bodyOf a r <;> rfl

theorem scanGet_eq : scanGet l a r s =
    (if authorized a r s then
      sendJson l a {} (.object [boolMember "busy" (Network.scanResults 12 s.net).2,
        (text "networks", .array ((Network.scanResults 12 s.net).1.map networkObject))])
    else error 401 "Unlock Settings with the device password.", s) := by
  unfold scanGet
  rw [StateLogic.run_bind_eq (StateLogic.run_get s), StateLogic.run_ite]
  cases authorized a r s <;> rfl

theorem statusGet_state : (statusGet l a r s).2 = s ∧ (statusGet l a r s).1.effects = {} :=
  ⟨rfl, sendJson_effects _ _ _ _⟩

theorem dispatch_login (h : r.post = true ∧ r.path = text "/api/login") :
    dispatch l a r s = loginPost l a r s := by
  unfold dispatch
  rw [StateLogic.run_ite, if_neg (by simp [h.1]), StateLogic.run_ite, if_pos h.2]

/-- **The inversion of a request.** -/
theorem dispatch_change (l : Library) (a : Answers) (r : Request) (s : State) :
    Change l a r s (dispatch l a r s).2 (dispatch l a r s).1.effects := by
  cases hpost : r.post with
  | false =>
    unfold dispatch
    rw [StateLogic.run_ite, if_pos (by simp [hpost]), StateLogic.run_ite]
    split
    · rw [statusGet_state.1, statusGet_state.2]
      exact .none
    rw [StateLogic.run_ite]
    split
    · rw [scanGet_eq]
      have heffects (j : Json) : (if authorized a r s then sendJson l a {} j
          else error 401 "Unlock Settings with the device password.").effects = {} := by
        split
        · exact sendJson_effects _ _ _ _
        · rfl
      rw [heffects]
      exact .none
    · exact .none
  | true =>
    by_cases hpath : r.path = text "/api/login"
    · rw [dispatch_login ⟨hpost, hpath⟩]
      obtain ⟨n, w, hn, hw, hcases⟩ := loginPost_cases l a r s
      rcases hcases with ⟨-, heq⟩ | ⟨-, -, heq⟩ | ⟨-, -, -, heq⟩ | ⟨ho, hroom, hright, reply, hnone, -, heq⟩
      · rw [heq]
        exact .none
      · rw [heq]
        exact .none
      · rw [heq]
        exact .attempt hpost hpath hn hw
      · rw [heq, hnone]
        exact .login hw ⟨hpost, hpath, ho, hn ▸ hroom, hright⟩
    · have hdispatch : dispatch l a r s = changePost l a r s := by
        unfold dispatch
        rw [StateLogic.run_ite, if_neg (by simp [hpost]), StateLogic.run_ite, if_neg hpath]
      rw [hdispatch]
      by_cases hauth : Authorised r a.now s
      · rw [changePost_allowed hauth]
        cases hbody : bodyOf a r with
        | none => exact .none
        | some j => exact .operation hpost hauth hbody (operation_does l a r j s)
      · rw [changePost_refused hauth]
        exact .none

/-- Only an authorised request asks for an effect or touches more than the statics of the logins. -/
theorem Change.unauthorised {s' : State} {e : Effects} (h : Change l a r s s' e)
    (hno : ¬ Authorised r a.now s) : e = {} ∧ ∃ session sessionUntil failureWindow failures,
      s' = { s with session, sessionUntil, failureWindow, failures } := by
  cases h with
  | none => exact ⟨rfl, _, _, _, _, rfl⟩
  | attempt => exact ⟨rfl, _, _, _, _, rfl⟩
  | login => exact ⟨rfl, _, _, _, _, rfl⟩
  | operation _ hauth => exact absurd hauth hno

/-- A request that is no login leaves the counter of the logins as it is. -/
theorem Change.counter {s' : State} {e : Effects} (h : Change l a r s s' e)
    (hlogin : ¬ (r.post = true ∧ r.path = text "/api/login")) :
    s'.failureWindow = s.failureWindow ∧ s'.failures = s.failures := by
  cases h with
  | none => exact ⟨rfl, rfl⟩
  | attempt post path => exact absurd ⟨post, path⟩ hlogin
  | login hw grants => exact absurd ⟨grants.post, grants.path⟩ hlogin
  | operation _ _ _ hop => cases hop <;> exact ⟨rfl, rfl⟩

/-- What is pending is left to `monitor_api_schedule_effects`. -/
theorem Change.pending {s' : State} {e : Effects} (h : Change l a r s s' e) :
    s'.pending = s.pending ∧ s'.effectsAfter = s.effectsAfter := by
  cases h with
  | operation _ _ _ hop => cases hop <;> exact ⟨rfl, rfl⟩
  | _ => exact ⟨rfl, rfl⟩

/-- The state after a request and its effects are queued. -/
theorem serve_eq (l : Library) (a : Answers) (r : Request) (s : State) : serve l a r s =
    ((dispatch l a r s).1, if (dispatch l a r s).1.effects ≠ {} then
      { (dispatch l a r s).2 with
        pending := (dispatch l a r s).2.pending.union (dispatch l a r s).1.effects,
        effectsAfter := a.scheduled + 1000 }
    else (dispatch l a r s).2) := by
  unfold serve scheduleEffects
  rw [StateLogic.run_bind, StateLogic.run_bind, StateLogic.run_ite]
  split <;> rfl

/-- A tick that has the lock. -/
theorem tick_eq (a : Answers) (s : State) : tick a true s =
    if s.pending ≠ {} ∧ a.now ≥ s.effectsAfter then
      (s.pending, { s with
        ota := (Ota.tick a.ota s.ota).2, pending := {},
        net := if s.pending.wifi then Network.requestReload s.net else s.net })
    else ({}, { s with ota := (Ota.tick a.ota s.ota).2 }) := by
  unfold tick
  rw [StateLogic.run_ite, if_neg (by simp), StateLogic.run_bind_eq (StateLogic.run_get s),
    StateLogic.run_bind_eq (StateLogic.run_set _ _), StateLogic.run_ite]
  split <;> rfl

end

end EspCfTunnel.Api
