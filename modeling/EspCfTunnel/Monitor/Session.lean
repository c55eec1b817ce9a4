import EspCfTunnel.Headers.Base64
import EspCfTunnel.Monitor.Moves

/-!
# Who may change the device

The requests of a run that change anything, or that are shown more than the status, carry the token of
a login with the device password that is not older than ten minutes and was not replaced or revoked.
-/

namespace EspCfTunnel.Api

open EspCfTunnel StateLogic Config Monitor

/-! ## One request -/

/-- The statics of the logins. -/
def State.logins (s : State) : Bytes × Nat × Nat × Nat :=
  (s.session, s.sessionUntil, s.failureWindow, s.failures)

/-- Everything else. -/
def State.device (s : State) : Effects × Nat × Store × Pins × Light × Network.State × Ota.State :=
  (s.pending, s.effectsAfter, s.store, s.pins, s.light, s.net, s.ota)

/-- A request that is answered with success, other than the status and a login. -/
def Served (r : Request) (reply : Reply) : Prop :=
  reply.status = 200 ∧ ¬ (r.post = false ∧ r.path = text "/api/status") ∧
    ¬ (r.post = true ∧ r.path = text "/api/login")

section
variable {l : Library} {a : Answers} {r : Request} {s : State}

theorem served_authorised (h : Served r (dispatch l a r s).1) : Authorised r a.now s := by
  obtain ⟨hstatus, hstatusPath, hlogin⟩ := h
  rw [← authorized_iff]
  unfold dispatch at hstatus
  rw [StateLogic.run_ite] at hstatus
  split at hstatus
  · next hget =>
    have hpost : r.post = false := by simpa using hget
    rw [StateLogic.run_ite, if_neg fun hpath => hstatusPath ⟨hpost, hpath⟩, StateLogic.run_ite] at hstatus
    split at hstatus
    · rw [scanGet_eq] at hstatus
      dsimp only at hstatus
      split at hstatus
      · assumption
      · cases hstatus
    · cases hstatus
  next hpost =>
  rw [StateLogic.run_ite, if_neg fun hpath => hlogin ⟨by simpa using hpost, hpath⟩] at hstatus
  by_cases hauth : Authorised r a.now s
  · exact authorized_iff.2 hauth
  · rw [changePost_refused hauth] at hstatus
    cases hstatus

theorem serve_reply (l : Library) (a : Answers) (r : Request) (s : State) :
    (serve l a r s).1 = (dispatch l a r s).1 := by
  rw [serve_eq]

theorem serve_logins (l : Library) (a : Answers) (r : Request) (s : State) :
    (serve l a r s).2.logins = (dispatch l a r s).2.logins := by
  rw [serve_eq]
  dsimp only
  split <;> rfl

/-- **Without a session** a request changes nothing but the statics of the logins, asks for no effect
and is shown nothing but the status. -/
theorem serve_unauthorised (h : ¬ Authorised r a.now s) :
    (serve l a r s).2.device = s.device ∧ (serve l a r s).1.effects = {} ∧
      ¬ Served r (serve l a r s).1 := by
  obtain ⟨heffects, session, sessionUntil, failureWindow, failures, hstate⟩ :=
    (dispatch_change l a r s).unauthorised h
  have hserve : serve l a r s = dispatch l a r s := by
    rw [serve_eq, if_neg (by simp [heffects]), Prod.mk.eta]
  rw [hserve]
  refine ⟨?_, heffects, fun hserved => h (served_authorised hserved)⟩
  rw [hstate]
  rfl

/-- A login that is granted hands out a session. -/
theorem Grants.session (h : Grants r a s) : (dispatch l a r s).2.session = sessionToken a ∧
    (dispatch l a r s).2.sessionUntil = a.now + 600000 := by
  rw [dispatch_login ⟨h.post, h.path⟩]
  have hroom := h.room
  obtain ⟨n, w, hn, -, hcases⟩ := loginPost_cases l a r s
  rcases hcases with ⟨ho, -⟩ | ⟨-, hfull, -⟩ | ⟨-, -, hwrong, -⟩ | ⟨-, -, -, reply, -, -, heq⟩
  · simp [h.origin] at ho
  · omega
  · exact absurd h.password hwrong
  · rw [heq]
    exact ⟨rfl, rfl⟩

/-- A logout clears the session. -/
theorem Revokes.session (h : Revokes r a s) :
    (dispatch l a r s).2 = { s with session := [], sessionUntil := 0 } := by
  have hno (q : Bytes) (hq : text "/api/logout" ≠ q) : ¬ r.path = q := by rw [h.path]; exact hq
  obtain ⟨j, hj⟩ := Option.isSome_iff_exists.1 h.body
  unfold dispatch
  rw [StateLogic.run_ite, if_neg (by simp [h.post]), StateLogic.run_ite,
    if_neg (hno _ login_ne_logout.symm), changePost_allowed h.authorised, hj]
  unfold operation
  dsimp only
  rw [if_neg (hno _ (by decide +kernel)), if_neg (hno _ (by decide +kernel)),
    if_neg (by rw [h.path]; decide +kernel), if_neg fun h => hno _ (by decide +kernel) h.1,
    if_neg (hno _ (by decide +kernel)), if_neg (hno _ (by decide +kernel)), if_pos h.path]
  rfl

/-- Nothing else touches the session. -/
theorem Change.session {s' : State} {e : Effects} (h : Change l a r s s' e) (hgrants : ¬ Grants r a s)
    (hrevokes : ¬ Revokes r a s) : s'.session = s.session ∧ s'.sessionUntil = s.sessionUntil := by
  cases h with
  | none => exact ⟨rfl, rfl⟩
  | attempt => exact ⟨rfl, rfl⟩
  | login hw h => exact absurd h hgrants
  | operation post authorised body op =>
    cases op with
    | logout path => exact absurd ⟨post, path, authorised, by simp [body]⟩ hrevokes
    | _ => exact ⟨rfl, rfl⟩

/-- What one request does to the session. -/
theorem serve_session (l : Library) (a : Answers) (r : Request) (s : State) :
    (Grants r a s ∧ (serve l a r s).2.session = sessionToken a ∧
      (serve l a r s).2.sessionUntil = a.now + 600000) ∨
    (Revokes r a s ∧ (serve l a r s).2.session = []) ∨
    (¬ Grants r a s ∧ ¬ Revokes r a s ∧ (serve l a r s).2.session = s.session ∧
      (serve l a r s).2.sessionUntil = s.sessionUntil) := by
  have hserve := serve_logins l a r s
  have hsession : (serve l a r s).2.session = (dispatch l a r s).2.session := congrArg Prod.fst hserve
  have huntil : (serve l a r s).2.sessionUntil = (dispatch l a r s).2.sessionUntil :=
    congrArg (fun x => x.2.1) hserve
  rw [hsession, huntil]
  by_cases hgrants : Grants r a s
  · exact .inl ⟨hgrants, hgrants.session⟩
  by_cases hrevokes : Revokes r a s
  · refine .inr (.inl ⟨hrevokes, ?_⟩)
    rw [hrevokes.session]
  · exact .inr (.inr ⟨hgrants, hrevokes, (dispatch_change l a r s).session hgrants hrevokes⟩)

end

/-! ## Runs -/

/-- The input ends the session that was there. -/
inductive Ends : Input → State → Prop
  | login {r : Request} {a : Answers} {s : State} (h : Grants r a s) : Ends (.request r a) s
  | logout {r : Request} {a : Answers} {s : State} (h : Revokes r a s) : Ends (.request r a) s

/-- The input is a login that hands out `token` until `expiry`. -/
def Login (token : Bytes) (expiry : Nat) (i : Input) (s : State) : Prop :=
  ∃ r a, i = .request r a ∧ Grants r a s ∧ token = sessionToken a ∧ expiry = a.now + 600000

/-- A login of the run handed out `token` until `expiry`, and no later input ended its session. -/
def Issued (l : Library) (is : List Input) (s₀ : State) (token : Bytes) (expiry : Nat) : Prop :=
  Past.Since (step l) (Login token expiry) Ends is s₀

section
variable {l : Library} {is : List Input} {s₀ : State} {token : Bytes} {expiry : Nat}

/-- A token that was handed out has the length that `equal_secret` looks at. -/
theorem Issued.of_login (h : Issued l is s₀ token expiry) : ∃ a, token = sessionToken a := by
  obtain ⟨_, _, _, _, ⟨_, a, _, _, htoken, _⟩, _⟩ := h
  exact ⟨a, htoken⟩

theorem sessionToken_ne_nil (a : Answers) : sessionToken a ≠ [] := by
  intro h
  have hlen := Token.length_hexText (List.ofFn a.random)
  rw [← sessionToken, h, List.length_ofFn] at hlen
  cases hlen

theorem length_sessionToken (a : Answers) : (sessionToken a).length = 64 := by
  rw [sessionToken, Token.length_hexText, List.length_ofFn]

theorem tick_logins {a : Answers} {locked : Bool} : Keeps State.logins (tick a locked) := by
  unfold tick
  apply Keeps.ite .ret
  apply Keeps.get_bind
  intro s
  rw [StateLogic.run_bind, StateLogic.run_ite]
  split <;> rfl

/-- What one input does to the session. -/
theorem step_session (l : Library) (i : Input) (s : State) :
    (∃ r a, i = .request r a ∧ Grants r a s ∧ (step l i s).session = sessionToken a ∧
      (step l i s).sessionUntil = a.now + 600000) ∨
    (∃ r a, i = .request r a ∧ Revokes r a s ∧ (step l i s).session = []) ∨
    (¬ Ends i s ∧ (step l i s).session = s.session ∧ (step l i s).sessionUntil = s.sessionUntil) := by
  cases i with
  | request r a =>
    rcases serve_session l a r s with ⟨hgrants, hsession, huntil⟩ | ⟨hrevokes, hsession⟩ |
      ⟨hgrants, hrevokes, hsame⟩
    · exact .inl ⟨r, a, rfl, hgrants, hsession, huntil⟩
    · exact .inr (.inl ⟨r, a, rfl, hrevokes, hsession⟩)
    · refine .inr (.inr ⟨fun h => ?_, hsame⟩)
      cases h with
      | login h => exact hgrants h
      | logout h => exact hrevokes h
  | tick locked a =>
    refine .inr (.inr ⟨nofun, ?_⟩)
    have hkeep : (tick a locked s).2.logins = s.logins := tick_logins s
    exact ⟨congrArg Prod.fst hkeep, congrArg (fun x => x.2.1) hkeep⟩
  | network reads t => exact .inr (.inr ⟨nofun, rfl, rfl⟩)
  | event o => exact .inr (.inr ⟨nofun, rfl, rfl⟩)

/-- The session of the state is the one that was handed out last, unless it was ended. -/
theorem issued_iff (hboot : s₀.session = []) : Issued l is s₀ token expiry ↔
    token ≠ [] ∧ (run l is s₀).session = token ∧ (run l is s₀).sessionUntil = expiry := by
  induction is using List.reverseRecOn with
  | nil =>
    refine iff_of_false Past.not_since_nil ?_
    rintro ⟨hne, htoken, -⟩
    exact hne (htoken ▸ hboot)
  | append_singleton is i ih =>
    have hrun : run l (is ++ [i]) s₀ = step l i (run l is s₀) := Past.run_concat _ _ _ _
    rw [Issued, Past.since_concat, hrun]
    rcases step_session l i (run l is s₀) with ⟨r, a, rfl, hgrants, hsession, huntil⟩ |
      ⟨r, a, rfl, hrevokes, hsession⟩ | ⟨hquiet, hsession, huntil⟩
    · rw [hsession, huntil]
      constructor
      · rintro (⟨r', a', heq, -, htoken, hexpiry⟩ | ⟨-, hquiet⟩)
        · cases heq
          exact ⟨htoken ▸ sessionToken_ne_nil a, htoken.symm, hexpiry.symm⟩
        · exact absurd (.login hgrants) hquiet
      · rintro ⟨-, htoken, hexpiry⟩
        exact .inl ⟨r, a, rfl, hgrants, htoken.symm, hexpiry.symm⟩
    · rw [hsession]
      constructor
      · rintro (⟨r', a', heq, hgrants, -⟩ | ⟨-, hquiet⟩)
        · cases heq
          exact absurd hrevokes hgrants.not_revokes
        · exact absurd (.logout hrevokes) hquiet
      · rintro ⟨hne, htoken, -⟩
        exact absurd htoken.symm hne
    · rw [hsession, huntil, ← ih]
      constructor
      · rintro (⟨r, a, rfl, hgrants, -⟩ | ⟨hissued, -⟩)
        · exact absurd (.login hgrants) hquiet
        · exact hissued
      · exact fun hissued => .inr ⟨hissued, hquiet⟩

/-- The request comes from an allowed origin and carries the token of a login of the run that is not
older than ten minutes, and no later login or logout has ended its session. -/
def Entitled (l : Library) (is : List Input) (s₀ : State) (r : Request) (now : Nat) : Prop :=
  r.originAllowed = true ∧ ∃ token expiry, Issued l is s₀ token expiry ∧ now < expiry ∧
    r.authorization = some (text "Bearer " ++ token)

theorem entitled_iff (hboot : s₀.session = []) {r : Request} {now : Nat} :
    Entitled l is s₀ r now ↔ Authorised r now (run l is s₀) := by
  constructor
  · rintro ⟨horigin, token, expiry, hissued, hlive, hauth⟩
    obtain ⟨a, htoken⟩ := hissued.of_login
    obtain ⟨hne, rfl, rfl⟩ := (issued_iff hboot).1 hissued
    have hlen : (run l is s₀).session.length ≤ 64 := by rw [htoken, length_sessionToken]
    have hsplit : (text "Bearer ").length = 7 := by decide +kernel
    refine ⟨horigin, hne, hlive, _, hauth, List.take_left' hsplit, ?_⟩
    rw [List.drop_left' hsplit]
    exact (equalSecret_iff hlen).2 rfl
  · intro h
    have hissued : Issued l is s₀ _ _ := (issued_iff hboot).2 ⟨h.session, rfl, rfl⟩
    obtain ⟨a, htoken⟩ := hissued.of_login
    have hlen : (run l is s₀).session.length = 64 := by rw [htoken, length_sessionToken]
    exact ⟨h.origin, _, _, hissued, h.live, h.token hlen⟩

/-- Someone with a live session has sent a body of this kind to this path. -/
def Requested (l : Library) (is : List Input) (s₀ : State) (path : String) (kind : Json → Prop) : Prop :=
  ∃ before r a after j, is = before ++ .request r a :: after ∧ Entitled l before s₀ r a.now ∧
    r.path = text path ∧ bodyOf a r = some j ∧ kind j

theorem Requested.concat {path : String} {kind : Json → Prop} (h : Requested l is s₀ path kind) (i : Input) :
    Requested l (is ++ [i]) s₀ path kind := by
  obtain ⟨before, r, a, after, j, rfl, hentitled, hpath, hbody, hkind⟩ := h
  refine ⟨before, r, a, after ++ [i], j, ?_, hentitled, hpath, hbody, hkind⟩
  rw [List.append_assoc, List.cons_append]

/-- The last request of a run. -/
theorem Requested.last {path : String} {kind : Json → Prop} {r : Request} {a : Answers} {j : Json}
    (hboot : s₀.session = []) (hauth : Authorised r a.now (run l is s₀)) (hpath : r.path = text path)
    (hbody : bodyOf a r = some j) (hkind : kind j) : Requested l (is ++ [.request r a]) s₀ path kind :=
  ⟨is, r, a, [], j, rfl, (entitled_iff hboot).2 hauth, hpath, hbody, hkind⟩

end

/-- **Only entitled requests change the device**, whatever the run from boot was: a request without the
token of a live session leaves the settings, the firmware update, the pins, the light, the network and
the pending effects as they are, asks for no effect and is answered with success only if it is the
status or a login. A request with one passes the check. -/
theorem only_entitled_change (l : Library) (store : Store) (light : Light) (net : Network.State)
    (is : List Input) (r : Request) (a : Answers) :
    let s₀ : State := { store, light, net }
    let s := run l is s₀
    (¬ Entitled l is s₀ r a.now → (serve l a r s).2.device = s.device ∧
      (serve l a r s).1.effects = {} ∧ ¬ Served r (serve l a r s).1) ∧
    (Entitled l is s₀ r a.now ↔ authorized a r s = true) := by
  intro s₀ s
  have hentitled : Entitled l is s₀ r a.now ↔ Authorised r a.now s := entitled_iff rfl
  refine ⟨fun h => ?_, by rw [hentitled, authorized_iff]⟩
  exact serve_unauthorised fun hauth => h (hentitled.2 hauth)

/-! ## A sample device -/

mutual

/-- The text of a tree whose numbers are integers and whose strings need no escapes. -/
def printed : Json → Bytes
  | .null => text "null"
  | .bool value => text (if value then "true" else "false")
  | .number value => text (toString value.num)
  | .string value => 34 :: (value ++ [34])
  | .array items => 91 :: ([44].intercalate (printedItems items) ++ [93])
  | .object members => 123 :: ([44].intercalate (printedMembers members) ++ [125])

def printedItems : List Json → List Bytes
  | [] => []
  | j :: items => printed j :: printedItems items

def printedMembers : List (Bytes × Json) → List Bytes
  | [] => []
  | m :: members => printedMember m :: printedMembers members

def printedMember : Bytes × Json → Bytes
  | (key, j) => 34 :: (key ++ 34 :: 58 :: printed j)

end

/-- The structures of an image of an ESP32-S3. -/
def sampleFormat : Ota.Format where
  headerSize := 24
  segmentSize := 8
  appSize := 256
  magic header := (header.getD 0 0).toNat
  chipId header := (header.getD 12 0).toNat + (header.getD 13 0).toNat * 256
  hashAppended header := header.getD 23 0 ≠ 0
  magicWord app := (app.take 4).foldr (fun b n => b.toNat + 256 * n) 0
  projectName app := (app.drop 48).take 32
  version app := cString ((app.drop 16).take 32)
  imageMagic := 0xE9
  firmwareChip := 9
  appMagic := 0xABCD5432
  current := charArray 32 (text "esp_system_monitor")

/-- An image with no segments. -/
def sampleImage : Bytes :=
  (0xE9 :: List.replicate 11 0) ++ (9 :: List.replicate 10 0) ++ (1 :: List.replicate 8 0) ++
    [0x32, 0x54, 0xCD, 0xAB] ++ List.replicate 12 0 ++ charArray 32 (text "1.0") ++
    charArray 208 (text "esp_system_monitor")

/-- The SHA-256 of the image. -/
def sampleDigest : Bytes := text "d0c239fcf6555fd223ac243c2ad0e37a43f1c424e5da5f5b048bbe60de1f8383"

/-- A library that does with the samples what the real one does. -/
def sampleLibrary : Library where
  sha _ := (Token.hexBytes sampleDigest).getD []
  format := sampleFormat
  base64 room data :=
    let out := Headers.base64Raw data room
    if out.rc = .ok then some out.stored else none
  print room j := if (printed j).length < room then some (printed j) else none
/-- A request of the page whose body is an object of these members. -/
def samplePost (path : String) (members : List (Bytes × Json)) : Request where
  path := text path
  body := printed (.object members)
  post := true
  jsonContent := true
  originAllowed := true

/-- What such a request meets. -/
def sampleAnswers (now : Nat) (members : List (Bytes × Json)) : Answers :=
  { now := now, parse := fun _ => .ok (.object members) }

/-- A login. -/
def sampleLogin (password : String) (now : Nat) : Input :=
  let members := [stringMember "password" (text password)]
  .request (samplePost "/api/login" members) (sampleAnswers now members)

/-- The device password of the samples. -/
def sampleStore : Store := { password := some (text "correct horse battery") }

/-- A request in a session whose token is of zeros. -/
def sampleCall (path : String) (now : Nat) (members : List (Bytes × Json)) : Input :=
  .request { samplePost path members with
      authorization := some (text "Bearer " ++ List.replicate 64 48) }
    { sampleAnswers now members with ota := {
      running := some ⟨0x10000, 0x200000, text "ota_0"⟩
      next := some ⟨0x210000, 0x200000, text "ota_1"⟩
      now := now
      begun := some 1 } }

end EspCfTunnel.Api
