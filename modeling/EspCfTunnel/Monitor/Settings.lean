import EspCfTunnel.Token

/-!
# The tunnel settings of the monitor

`tunnel_post` of `monitor_api.c` stores the connector token and the public hostname of the device.
It has a `hostname_valid` of its own, which differs from the one that checks the ingress policy of
`cf_config_apply_ex` in one thing: it takes capital letters (`hostnameValid_iff`). A hostname that was
saved with one is refused by the policy check whatever the update is.
-/

namespace EspCfTunnel.Monitor

open EspCfTunnel Config Token

/-- `monitor_tunnel_config`. -/
structure TunnelConfig where
  token : Bytes := []
  hostname : Bytes := []
  deriving DecidableEq, Repr

/-- What `r->reply` says, and whether it asks for `MONITOR_EFFECT_TUNNEL`. -/
structure Reply where
  status : Nat
  message : String
  effect : Bool := false
  deriving DecidableEq, Repr

/-- What a request depends on besides its body: the JSON parser, the bytes on the stack of the token
check, and whether `calloc`, loading and saving succeed. -/
structure Device where
  parse : Parser
  scratch : Mem
  memory : Bool
  loads : Bool
  saves : Bool

/-- `string` -/
def string (j : Json) (key : Bytes) : Option Bytes :=
  match getItem (some j) key with
  | some (.string value) => some value
  | _ => none

/-- The member `clear`, if it is a boolean. -/
def clearOf (j : Json) : Option Bool :=
  match getItem (some j) (text "clear") with
  | some (.bool value) => some value
  | _ => none

/-- A character that `hostname_valid` takes in a label. -/
def settingChar (c : UInt8) : Bool :=
  (97 ≤ c ∧ c ≤ 122) ∨ (65 ≤ c ∧ c ≤ 90) ∨ (48 ≤ c ∧ c ≤ 57) ∨ c = 45

/-- The loop of `hostname_valid` after the character `previous`, in a label of `label` characters so
far; the result is the length of the last label. -/
def settingLabels (previous : UInt8) (label : Nat) : Bytes → Option Nat
  | [] => some label
  | c :: rest =>
    if c = 46 then
      if label = 0 ∨ previous = 45 then none else settingLabels c 0 rest
    else if !settingChar c ∨ (label = 0 ∧ c = 45) ∨ label + 1 > 63 then none
    else settingLabels c (label + 1) rest

/-- `hostname_valid` of `monitor_api.c`. An empty name may be supplied later. -/
def hostnameValid (name : Bytes) : Bool :=
  name = [] ∨ (name.length ≤ 253 ∧ name.getLast? ≠ some 46 ∧
    (settingLabels 0 0 name).any (· ≠ 0) ∧ name.getLast? ≠ some 45)

/-- `cf_token_diagnostic_message`. -/
def diagnosticMessage : Diagnostic → String
  | .valid => "Tunnel token accepted."
  | .inputSize => "Tunnel token must contain 1 to 1024 characters."
  | .base64 => "Invalid token encoding. Paste only the tunnel token from the connector install " ++
    "command, without the command, quotes, or an API key."
  | .json => "This value is not a named tunnel token: its decoded content is not valid JSON."
  | .fields => "The token must contain account (a), tunnel ID (t), and secret (s), with no duplicate " ++
    "or unsupported fields."
  | .account => "The token account ID must be 32 hexadecimal characters."
  | .uuid => "The token tunnel ID must be a nonzero UUID in the standard format."
  | .secretBase64 => "The token contains an invalid Base64 tunnel secret."
  | .secretSize => "This firmware supports tunnel secrets of 32 to 128 decoded bytes."
  | .endpoint => "Custom tunnel endpoints are not supported by this firmware."
  | .memory => "Not enough memory to validate the tunnel token. Please retry."

/-- `tunnel_post` -/
def tunnelPost (d : Device) (stored : TunnelConfig) (j : Json) : TunnelConfig × Reply :=
  let refused : TunnelConfig × Reply :=
    (stored, ⟨400, "Use a valid hostname and either a tunnel token or Clear stored token.", false⟩)
  match string j (text "token"), string j (text "hostname"), clearOf j with
  | some token, some host, some clear =>
    if !jsonKeys (some j) [text "token", text "hostname", text "clear"] ∨ token.length > tokenMax ∨
        !hostnameValid host ∨ (clear = true ∧ token ≠ []) then refused
    else
      let check := credentialsParse d.parse (some token) (some d.scratch) (jsonMax + 1)
      if token ≠ [] ∧ check.result ≠ .ok then
        (stored, ⟨if check.result = .memory then 503 else 400, diagnosticMessage check.diagnostic, false⟩)
      else if !d.memory then (stored, ⟨503, "Not enough memory.", false⟩)
      else
        let value := if d.loads then stored else {}
        let kept := if clear = true then [] else if token ≠ [] then token else value.token
        if d.saves then (⟨kept, host⟩, ⟨200, "ok", true⟩)
        else (stored, ⟨500, "Unable to save tunnel settings.", false⟩)
  | _, _, _ => refused

/-! ## Two checks of a hostname -/

/-- A capital letter. -/
def capital (c : UInt8) : Bool := 65 ≤ c ∧ c ≤ 90

theorem settingChar_eq (c : UInt8) : settingChar c = (hostChar c || capital c) := by
  simp only [settingChar, hostChar, capital]
  by_cases h : 65 ≤ c ∧ c ≤ 90 <;> simp [h]

theorem hostChar_not_capital : ∀ c : UInt8, hostChar c = true → capital c = false :=
  Bytes.forall_byte (by decide +kernel)

/-- Without capitals the loops take the same names; the one looks for a dash behind each dot, the
other at the start of each label. -/
theorem hostLabels_eq {s : Bytes} {previous : UInt8} {label : Nat} (hlow : ∀ c ∈ s, capital c = false)
    (hstart : label = 0 → s.head? ≠ some 45) :
    hostLabels previous label s = settingLabels previous label s := by
  induction s generalizing previous label with
  | nil => rfl
  | cons c rest ih =>
    have hrest : ∀ c ∈ rest, capital c = false := fun c hc => hlow c (List.mem_cons_of_mem _ hc)
    rw [hostLabels, settingLabels]
    by_cases hdot : c = 46
    · rw [if_pos hdot, if_pos hdot]
      by_cases hend : label = 0 ∨ previous = 45
      · rw [if_pos hend, if_pos (by tauto)]
      · rw [if_neg hend]
        by_cases hdash : rest.head? = some 45
        · rw [if_pos (by tauto)]
          obtain ⟨rest', rfl⟩ : ∃ rest', rest = 45 :: rest' := List.head?_eq_some_iff.1 hdash
          rfl
        · rw [if_neg (by tauto)]
          exact ih hrest fun _ => hdash
    · rw [if_neg hdot, if_neg hdot]
      have hchar : settingChar c = hostChar c := by
        rw [settingChar_eq, hlow c List.mem_cons_self, Bool.or_false]
      have hfirst : ¬ (label = 0 ∧ c = 45) := by
        rintro ⟨hzero, rfl⟩
        exact hstart hzero rfl
      rw [hchar, ih hrest (fun h => absurd h (Nat.succ_ne_zero label))]
      by_cases hbad : hostChar c = true
      · simp [hbad, hfirst]
      · simp [hbad]

/-- The check of the policy takes no capital letter. -/
theorem hostLabels_low {s : Bytes} {previous : UInt8} {label n : Nat}
    (h : hostLabels previous label s = some n) : ∀ c ∈ s, capital c = false := by
  induction s generalizing previous label with
  | nil => nofun
  | cons c rest ih =>
    rw [hostLabels] at h
    split at h
    · next hdot =>
      split at h
      · cases h
      · exact List.forall_mem_cons.2 ⟨by rw [hdot]; rfl, ih h⟩
    · split at h
      · cases h
      next hchar =>
      split at h
      · cases h
      · exact List.forall_mem_cons.2 ⟨hostChar_not_capital c (by simpa using hchar), ih h⟩

/-- **The policy takes what the settings take**, but for capital letters. -/
theorem hostnameValid_iff {host : Bytes} (h : hostnameValid host = true) (hne : host ≠ []) :
    Config.hostnameValid host = true ↔ ∀ c ∈ host, capital c = false := by
  rw [hostnameValid, decide_eq_true_eq] at h
  obtain ⟨hlen, -, hlabels, hlast⟩ := h.resolve_left hne
  rw [Config.hostnameValid, decide_eq_true_eq]
  constructor
  · rintro ⟨-, -, -, -, hany⟩
    cases hrun : hostLabels 0 0 host with
    | none =>
      rw [hrun] at hany
      cases hany
    | some n => exact hostLabels_low hrun
  · intro hlow
    have hhead : host.head? ≠ some 45 := by
      intro hhead
      obtain ⟨rest, rfl⟩ : ∃ rest, host = 45 :: rest := List.head?_eq_some_iff.1 hhead
      cases hlabels
    refine ⟨hne, hlen, hhead, hlast, ?_⟩
    rw [hostLabels_eq hlow fun _ => hhead]
    exact hlabels

/-! ## A saved hostname in use -/

/-- What a request that is answered with success has stored. -/
theorem tunnelPost_ok {d : Device} {stored : TunnelConfig} {j : Json} {host : Bytes}
    (hhost : string j (text "hostname") = some host) (hok : (tunnelPost d stored j).2.status = 200) :
    hostnameValid host = true ∧ (tunnelPost d stored j).1.hostname = host := by
  unfold tunnelPost at hok ⊢
  rw [hhost] at hok ⊢
  dsimp only at hok ⊢
  split at hok
  · next htoken hh hclear =>
    cases hh
    split at hok
    · cases hok
    next hcheck =>
    split at hok
    · dsimp only at hok
      split at hok <;> cases hok
    next hcred =>
    split at hok
    · cases hok
    next hmem =>
    split at hok
    · next hsave =>
      rw [if_neg hcheck, if_neg hcred, if_neg hmem, if_pos hsave]
      exact ⟨by simpa using fun h => hcheck (.inr (.inr (.inl h))), rfl⟩
    · cases hok
  · cases hok

/-- No check of an update blames the local policy. -/
theorem checkUpdate_reason {root : Json} {hostname service : Bytes} {reason : String} {rc : Result}
    (h : checkUpdate root hostname service = .error (reason, rc)) :
    reason ≠ "Invalid local ingress policy." := by
  rintro rfl
  unfold checkUpdate at h
  dsimp only at h
  repeat' split at h
  all_goals simp at h

/-- The check of the local policy fails or passes for every update alike. -/
theorem configApply_policy {hostname service : Bytes} (hne : service ≠ [])
    (hlen : service.length ≤ serviceMax) (parse : Parser) (state : Remote) (update : Bytes) :
    (configApply parse state update hostname service).reason = "Invalid local ingress policy." ↔
      Config.hostnameValid hostname = false := by
  unfold configApply
  by_cases hhost : Config.hostnameValid hostname = true
  · rw [if_neg (by simp [hhost, hne, hlen])]
    refine iff_of_false ?_ (by simp [hhost])
    split
    · simp
    split
    · simp
    split
    · next hcheck => exact checkUpdate_reason hcheck
    · simp
  · rw [if_pos (.inl (by simpa using hhost))]
    exact iff_of_true rfl (by simpa using hhost)

/-- **Saved hostnames.** A hostname that the settings accept is stored as it is, and it passes the
check of the ingress policy if and only if it has no capital letter. -/
theorem saved_hostname_policy (d : Device) (stored : TunnelConfig) (j : Json) {host : Bytes}
    (hhost : string j (text "hostname") = some host) (hne : host ≠ [])
    (hok : (tunnelPost d stored j).2.status = 200) :
    (tunnelPost d stored j).1.hostname = host ∧
      ((∀ (parse : Parser) (state : Remote) (update service : Bytes),
          service ≠ [] → service.length ≤ serviceMax →
          (configApply parse state update (tunnelPost d stored j).1.hostname service).reason ≠
            "Invalid local ingress policy.") ↔
        ∀ c ∈ host, ¬ (65 ≤ c ∧ c ≤ 90)) := by
  obtain ⟨hvalid, hstored⟩ := tunnelPost_ok hhost hok
  have hlow : (∀ c ∈ host, capital c = false) ↔ ∀ c ∈ host, ¬ (65 ≤ c ∧ c ≤ 90) :=
    forall₂_congr fun c _ => by rw [capital, decide_eq_false_iff_not]
  refine ⟨hstored, ?_⟩
  rw [hstored, ← hlow, ← hostnameValid_iff hvalid hne]
  constructor
  · intro h
    have hpolicy := h (fun _ => .error .malformed) configInit [] [0] (by simp) (by simp)
    rw [Ne, configApply_policy (by simp) (by simp)] at hpolicy
    simpa using hpolicy
  · intro hname parse state update service hservice hlen hreason
    rw [configApply_policy hservice hlen, hname] at hreason
    cases hreason

/-- A device on which everything succeeds. -/
def sampleDevice : Device := ⟨fun _ => .error .malformed, fun _ => 0, true, true, true⟩

/-- A request that keeps the token and sets a hostname. -/
def sampleSettings (hostname : String) : Json :=
  .object [(text "token", .string []), (text "hostname", .string (text hostname)),
    (text "clear", .bool false)]

theorem saved_hostname_policy_low :
    (tunnelPost sampleDevice {} (sampleSettings "device.example.com")).1.hostname =
        text "device.example.com" ∧
      (configApply (fun _ => .error .malformed) configInit [32]
        (tunnelPost sampleDevice {} (sampleSettings "device.example.com")).1.hostname
        (text "http://localhost:80")).reason ≠ "Invalid local ingress policy." := by
  have h := saved_hostname_policy sampleDevice {} (sampleSettings "device.example.com") rfl
    (by decide +kernel) (by decide +kernel)
  exact ⟨h.1, h.2.2 (by decide +kernel) _ _ _ _ (by decide +kernel) (by decide +kernel)⟩

/-- `Device.example.com` is saved, and then refused with every update. -/
theorem saved_hostname_refused :
    (tunnelPost sampleDevice {} (sampleSettings "Device.example.com")).2.status = 200 ∧
      (tunnelPost sampleDevice {} (sampleSettings "Device.example.com")).1.hostname =
        text "Device.example.com" ∧
      ∀ (parse : Parser) (state : Remote) (update : Bytes),
        configApply parse state update
          (tunnelPost sampleDevice {} (sampleSettings "Device.example.com")).1.hostname
          (text "http://localhost:80") = ⟨state, .argument, "Invalid local ingress policy."⟩ := by
  have hstored : (tunnelPost sampleDevice {} (sampleSettings "Device.example.com")).1.hostname =
      text "Device.example.com" := by decide +kernel
  have hbad : Config.hostnameValid (text "Device.example.com") = false := by decide +kernel
  refine ⟨by decide +kernel, hstored, fun parse state update => ?_⟩
  rw [hstored, configApply, if_pos (.inl (by simp [hbad]))]

end EspCfTunnel.Monitor
