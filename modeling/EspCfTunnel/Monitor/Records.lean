import EspCfTunnel.Monitor.Stored

/-!
# The tunnel settings in the store

Whatever the requests were, the tunnel settings that are stored have a hostname that the check takes and,
unless the token is empty, a token that was accepted when it was typed in. So the credentials of a stored
token can always be had: the tunnel never finds out later that its token is malformed.
-/

namespace EspCfTunnel.Monitor

open EspCfTunnel Config Token Headers

/-- The parser does what the other one does, or there is no memory. -/
def Follows (parse reference : Parser) : Prop :=
  ∀ doc, parse doc = reference doc ∨ parse doc = .error .allocation

/-- The token is the digits of a document with an account, a secret and a tunnel. -/
def Usable (reference : Parser) (token : Bytes) (credentials : Rpc.Credentials) : Prop :=
  ∃ doc members tag id secret, token = base64Digits true doc ∧ doc ≠ [] ∧ doc.length ≤ jsonMax ∧
    reference doc = .ok (.object members) ∧ Fields members tag id secret ∧
    credentials = credentialsOf tag id secret

/-- Settings that the monitor can use. -/
structure TunnelConfig.Sound (reference : Parser) (c : TunnelConfig) : Prop where
  fits : c.token.length ≤ tokenMax
  ends : 0 ∉ c.token ∧ 0 ∉ c.hostname
  hostname : hostnameValid c.hostname = true
  usable : c.token ≠ [] → ∃ credentials, Usable reference c.token credentials

section
variable {p reference : Parser} {token : Bytes} {scratch : Mem} {c : TunnelConfig} {s : Store}

theorem hostname_fits {name : Bytes} (h : hostnameValid name = true) : name.length ≤ 253 := by
  rw [hostnameValid, decide_eq_true_eq] at h
  rcases h with rfl | ⟨hlen, -⟩
  · exact Nat.zero_le _
  · exact hlen

/-- The credentials of a token that can be used, unless there is no memory. -/
theorem Usable.accepted {credentials : Rpc.Credentials} (h : Usable reference token credentials)
    (hparse : Follows p reference) (scratch : Mem) :
    let outcome := credentialsParse p (some token) (some scratch) (jsonMax + 1)
    (outcome.result, outcome.out) = (.ok, credentials) ∨
      (outcome.result, outcome.out) = (.memory, noCredentials) := by
  obtain ⟨doc, members, tag, id, secret, rfl, hpos, hmax, hdoc, hfields, rfl⟩ := h
  intro outcome
  rcases hparse doc with heq | heq
  · obtain ⟨scratch', hout⟩ := credentialsParse_digits hpos hmax (heq.trans hdoc) scratch
      (Nat.le_refl (jsonMax + 1))
    have hread : readFields (.object members) = .ok (credentialsOf tag id secret) :=
      readFields_iff.2 ⟨members, tag, id, secret, rfl, hfields, rfl⟩
    refine .inl ?_
    show (outcome.result, outcome.out) = _
    rw [show outcome = _ from hout, hread]
    rfl
  · refine .inr ?_
    have hout : ∃ scratch', outcome = finish scratch' (jsonMax + 1) (.error (.memory, .json)) := by
      show ∃ scratch', credentialsParse p _ _ _ = _
      rw [credentialsParse, if_neg (by omega), if_neg (digits_fit hpos hmax),
        base64Decode_digits_mode true hmax]
      dsimp only
      rw [if_neg (by simp), Mem.read_write_disjoint _ _ (by omega), Mem.read_write_same, heq]
      exact ⟨_, rfl⟩
    obtain ⟨scratch', hout⟩ := hout
    rw [hout]
    rfl

/-- Sound settings are loaded as they were saved. -/
theorem TunnelConfig.Sound.load (h : c.Sound reference) (hs : s.tunnel = some c.bytes) (reads : Bool) :
    storeTunnel reads s = if reads then (c, true) else ({}, false) := by
  cases reads with
  | true =>
    have hsaved : s = (saveTunnel true c s).2 := by
      rw [saveTunnel, if_pos rfl, ← hs]
    rw [hsaved]
    exact storeTunnel_saveTunnel h.fits h.ends.1 (hostname_fits h.hostname) h.ends.2 s
  | false =>
    rw [storeTunnel, hs]
    rfl

end

end EspCfTunnel.Monitor

namespace EspCfTunnel.Api

open EspCfTunnel StateLogic Config Monitor

/-- The token was stored before the run, or someone with a session has typed it in. -/
def TokenKnown (l : Library) (is : List Input) (s₀ : State) (token : Bytes) : Prop :=
  (∃ c : TunnelConfig, s₀.store.tunnel = some c.bytes ∧ c.token = token) ∨
    Requested l is s₀ "/api/tunnel" fun j => string j (text "token") = some token

section
variable {l : Library} {s s₀ : State} {is : List Input} {reference : Parser}

theorem TokenKnown.concat {token : Bytes} (h : TokenKnown l is s₀ token) (i : Input) :
    TokenKnown l (is ++ [i]) s₀ token := by
  rcases h with h | h
  · exact .inl h
  · exact .inr (h.concat i)

/-- The tunnel settings that are stored are sound. -/
def State.Sound (reference : Parser) (s : State) : Prop :=
  ∀ b, s.store.tunnel = some b → ∃ c : TunnelConfig, b = c.bytes ∧ c.Sound reference

end

end EspCfTunnel.Api
