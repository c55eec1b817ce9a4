import EspCfTunnel.Config.Acceptance
import EspCfTunnel.Headers.Padding
import EspCfTunnel.Rpc.Basic

/-!
# Connector tokens

`cf_credentials.c`: a connector token is the Base64 text of a JSON object with an account tag, a
tunnel id and a secret, which is Base64 again. The JSON parser is a parameter, as in the configuration.
A call leaves its result, the credentials, the scratch memory and a diagnostic.
-/

namespace EspCfTunnel.Token

open EspCfTunnel Config Headers

/-- `CF_TOKEN_MAX`. -/
abbrev tokenMax : Nat := 1024

/-- `CF_TOKEN_JSON_MAX`. -/
abbrev jsonMax : Nat := 768

/-- `CF_TUNNEL_SECRET_MIN`. -/
abbrev secretMin : Nat := 32

/-- `CF_TUNNEL_SECRET_MAX`. -/
abbrev secretMax : Nat := 128

/-- `cf_token_diagnostic`. -/
inductive Diagnostic
  | valid | inputSize | base64 | json | fields | account | uuid | secretBase64 | secretSize | endpoint
  | memory
  deriving DecidableEq, Repr

/-- `hex`; `none` for `-1`. -/
def hex (c : UInt8) : Option Nat :=
  if 48 ≤ c ∧ c ≤ 57 then some (c.toNat - 48)
  else if 97 ≤ c ∧ c ≤ 102 then some (c.toNat - 97 + 10)
  else if 65 ≤ c ∧ c ≤ 70 then some (c.toNat - 65 + 10)
  else none

/-- The places of the dashes. -/
def dashAt (i : Nat) : Bool := i = 8 ∨ i = 13 ∨ i = 18 ∨ i = 23

/-- The loop of `uuid`, for `fuel` rounds at most: the position, and the bytes in `out`. -/
def uuidLoop (s : Bytes) : Nat → Nat → Bytes → Option Bytes
  | 0, _, out => some out
  | fuel + 1, i, out =>
    if i < 36 then
      if dashAt i then
        if s.getD i 0 ≠ 45 then none else uuidLoop s fuel (i + 1) out
      else
        match hex (s.getD i 0), hex (s.getD (i + 1) 0) with
        | some a, some b =>
          if out.length ≥ 16 then none else uuidLoop s fuel (i + 2) (out ++ [UInt8.ofNat (a * 16 + b)])
        | _, _ => none
    else some out

/-- `uuid`: the bytes, if the text is accepted. -/
def uuid (s : Bytes) : Option Bytes :=
  if s.length ≠ 36 then none
  else
    match uuidLoop s 36 0 [] with
    | none => none
    | some out => if out.length = 16 ∧ out.any (· ≠ 0) then some out else none

/-- `cf_credentials` with an account tag, a tunnel id and a secret; the other bytes are zero. -/
def credentialsOf (tag id secret : Bytes) : Rpc.Credentials :=
  ⟨Mem.write (fun _ => 0) 0 tag, Mem.write (fun _ => 0) 0 id, Mem.write (fun _ => 0) 0 secret, secret.length⟩

/-- `cf_credentials` after `cf_secure_zero`. -/
def noCredentials : Rpc.Credentials := ⟨fun _ => 0, fun _ => 0, fun _ => 0, 0⟩

/-- The part of `cf_credentials_parse_ex` for the three texts: `rc` and `why`, or the candidate. -/
def readValues (a s t : Bytes) : Except (Result × Diagnostic) Rpc.Credentials :=
  match uuid t with
  | none => .error (.format, .uuid)
  | some id =>
    if a.length ≠ 32 ∨ !a.all fun c => (hex c).isSome then .error (.format, .account)
    else
      let secret := base64Decode (some s) true (some secretMax)
      if secret.rc ≠ .ok then
        .error (secret.rc, if secret.rc = .limit then .secretSize else .secretBase64)
      else if secret.written < secretMin then .error (.format, .secretSize)
      else .ok (credentialsOf a id secret.stored)

/-- The part of `cf_credentials_parse_ex` for the fields of the object. -/
def readFields (root : Json) : Except (Result × Diagnostic) Rpc.Credentials :=
  if !jsonKeys (some root) [text "a", text "s", text "t", text "e"] then .error (.format, .fields)
  else
    match getItem (some root) (text "a"), getItem (some root) (text "s"),
        getItem (some root) (text "t") with
    | some (.string a), some (.string s), some (.string t) =>
      match getItem (some root) (text "e") with
      | none => readValues a s t
      | some (.string e) => if e ≠ [] then .error (.unsupported, .endpoint) else readValues a s t
      | some _ => .error (.format, .fields)
    | _, _, _ => .error (.format, .fields)

/-- What a call leaves. -/
structure Outcome where
  result : Result
  out : Rpc.Credentials
  scratch : Option Mem
  diagnostic : Diagnostic

/-- What follows `done`: the candidate and the scratch memory are erased. -/
def finish (scratch : Mem) (cap : Nat) : Except (Result × Diagnostic) Rpc.Credentials → Outcome
  | .ok candidate => ⟨.ok, candidate, some (scratch.write 0 (List.replicate cap 0)), .valid⟩
  | .error (rc, why) =>
    ⟨rc, noCredentials, some (scratch.write 0 (List.replicate cap 0)),
      if rc = .ok then .valid else if rc = .memory then .memory else why⟩

/-- `cf_credentials_parse_ex`, for an `out` that is not null. An absent `token` is a null pointer with a
length, an absent `scratch` a null pointer. -/
def credentialsParse (parse : Parser) (token : Option Bytes) (scratch : Option Mem) (cap : Nat) :
    Outcome :=
  match token, scratch with
  | some token, some scratch =>
    if cap < jsonMax + 1 then ⟨.argument, noCredentials, some scratch, .fields⟩
    else if token.length = 0 ∨ token.length > tokenMax then finish scratch cap (.error (.limit, .inputSize))
    else
      let decoded := base64Decode (some token) true (some jsonMax)
      let scratch := scratch.write 0 decoded.stored
      if decoded.rc ≠ .ok then finish scratch cap (.error (decoded.rc, .base64))
      else
        let scratch := scratch.write decoded.written [0]
        match parse (scratch.read 0 decoded.written) with
        | .error failure => finish scratch cap (.error (jsonFailure failure, .json))
        | .ok root => finish scratch cap (readFields root)
  | _, scratch => ⟨.argument, noCredentials, scratch, .fields⟩

/-! ## Hexadecimal texts -/

/-- The byte of two digits. -/
def hexByte (a b : UInt8) : Option UInt8 :=
  (hex a).bind fun x => (hex b).map fun y => UInt8.ofNat (x * 16 + y)

/-- The bytes of a text of hexadecimal digits. -/
def hexBytes : Bytes → Option Bytes
  | [] => some []
  | [_] => none
  | a :: b :: rest => (hexByte a b).bind fun c => (hexBytes rest).map (c :: ·)

/-- A text in five groups of 8, 4, 4, 4 and 12 hexadecimal digits, and its bytes. -/
def UuidText (s id : Bytes) : Prop :=
  ∃ g₁ g₂ g₃ g₄ g₅ : Bytes, g₁.length = 8 ∧ g₂.length = 4 ∧ g₃.length = 4 ∧ g₄.length = 4 ∧
    g₅.length = 12 ∧ s = g₁ ++ 45 :: (g₂ ++ 45 :: (g₃ ++ 45 :: (g₄ ++ 45 :: g₅))) ∧
    hexBytes (g₁ ++ (g₂ ++ (g₃ ++ (g₄ ++ g₅)))) = some id

theorem even_of_cons_cons {a b : UInt8} {g : Bytes} (h : (a :: b :: g).length % 2 = 0) :
    g.length % 2 = 0 := by
  rw [List.length_cons, List.length_cons] at h
  omega

/-- The bytes of two texts, one after the other. -/
theorem hexBytes_append {g : Bytes} (heven : g.length % 2 = 0) (h : Bytes) :
    hexBytes (g ++ h) = (hexBytes g).bind fun x => (hexBytes h).map (x ++ ·) := by
  induction g using hexBytes.induct with
  | case1 => cases hh : hexBytes h <;> simp [hexBytes, hh]
  | case2 c => simp at heven
  | case3 a b g ih =>
    rw [List.cons_append, List.cons_append, hexBytes, hexBytes, ih (even_of_cons_cons heven)]
    cases hexByte a b <;> cases hexBytes g <;> cases hexBytes h <;> rfl

theorem length_hexBytes {g id : Bytes} (h : hexBytes g = some id) : g.length = 2 * id.length := by
  induction g using hexBytes.induct generalizing id with
  | case1 =>
    cases h
    rfl
  | case2 c => cases h
  | case3 a b g ih =>
    rw [hexBytes, Option.bind_eq_some_iff] at h
    obtain ⟨c, -, h⟩ := h
    obtain ⟨out, hout, rfl⟩ := Option.map_eq_some_iff.1 h
    rw [List.length_cons, List.length_cons, List.length_cons, ih hout]
    omega

/-- A round of the loop at two digits. -/
theorem uuidLoop_digits {s : Bytes} {i : Nat} (hi : i < 36) (hdash : dashAt i = false) {out : Bytes}
    (hroom : out.length < 16) (fuel : Nat) :
    uuidLoop s (fuel + 1) i out = (hexByte (s.getD i 0) (s.getD (i + 1) 0)).bind fun c =>
      uuidLoop s fuel (i + 2) (out ++ [c]) := by
  rw [uuidLoop, if_pos hi, hdash, if_neg (by simp), hexByte]
  cases hex (s.getD i 0) with
  | none => rfl
  | some x =>
    cases hex (s.getD (i + 1) 0) with
    | none => rfl
    | some y => exact if_neg (by omega)

/-- The loop reads a group of digits. -/
theorem uuidLoop_group (g : Bytes) {s rest : Bytes} (before : Bytes) (hs : s = before ++ (g ++ rest))
    (hfree : ∀ j < g.length, dashAt (before.length + j) = false) (hinside : before.length + g.length ≤ 36)
    (heven : g.length % 2 = 0) (out : Bytes) (hroom : out.length + g.length / 2 ≤ 16) (fuel : Nat) :
    uuidLoop s (fuel + g.length / 2) before.length out =
      (hexBytes g).bind fun bytes => uuidLoop s fuel (before.length + g.length) (out ++ bytes) := by
  induction g using hexBytes.induct generalizing before out with
  | case1 => simp [hexBytes]
  | case2 c => simp at heven
  | case3 a b g ih =>
    have hlen : (a :: b :: g).length = g.length + 2 := rfl
    rw [hlen] at hfree hinside hroom
    have hhalf : (a :: b :: g).length / 2 = g.length / 2 + 1 := by
      rw [hlen]
      omega
    have hdash : dashAt before.length = false := hfree 0 (by omega)
    have hfull : out.length < 16 := by omega
    have ha : s.getD before.length 0 = a := by
      rw [hs, List.getD_append_right _ _ _ _ le_rfl, Nat.sub_self]
      rfl
    have hb : s.getD (before.length + 1) 0 = b := by
      rw [hs, List.getD_append_right _ _ _ _ (by omega), Nat.add_sub_cancel_left]
      rfl
    rw [hhalf, ← Nat.add_assoc, uuidLoop_digits (by omega) hdash hfull, ha, hb, hexBytes]
    cases hexByte a b with
    | none => rfl
    | some c =>
      have hbefore : (before ++ [a, b]).length = before.length + 2 := by simp
      have hfree' : ∀ j < g.length, dashAt ((before ++ [a, b]).length + j) = false := by
        intro j hj
        rw [hbefore, Nat.add_assoc, Nat.add_comm 2 j]
        exact hfree (j + 2) (by omega)
      have hroom' : (out ++ [c]).length + g.length / 2 ≤ 16 := by
        rw [List.length_append, List.length_singleton]
        omega
      have hrest := ih (before ++ [a, b]) (by simp [hs]) hfree' (by omega) (even_of_cons_cons heven)
        (out ++ [c]) hroom'
      rw [hbefore] at hrest
      rw [Option.bind_some, hrest, hlen]
      cases hexBytes g with
      | none => rfl
      | some bytes => simp [Nat.add_comm, Nat.add_left_comm]

/-- The loop reads a dash, the group of `2 * n` digits behind it and the rest. -/
theorem uuidLoop_part {i n m fuel : Nat} (hdash : dashAt i = true)
    (hfree : ∀ j < 2 * n, dashAt (i + 1 + j) = false) (hinside : i + 1 + 2 * n ≤ 36) (hroom : m + n ≤ 16)
    {s g tail : Bytes} (before rest : Bytes) {c : UInt8} {P : Prop} [Decidable P]
    (hs : s = before ++ c :: (g ++ rest)) (hbefore : before.length = i) (hg : g.length = 2 * n)
    (htail : ∀ out : Bytes, out.length = m + n → uuidLoop s fuel (i + 1 + 2 * n) out =
      if P then (hexBytes tail).map (out ++ ·) else none) :
    ∀ out : Bytes, out.length = m → uuidLoop s (fuel + n + 1) i out =
      if c = 45 ∧ P then (hexBytes (g ++ tail)).map (out ++ ·) else none := by
  intro out hout
  have hc : s.getD i 0 = c := by
    rw [hs, ← hbefore, List.getD_append_right _ _ _ _ le_rfl, Nat.sub_self]
    rfl
  have hlength : (before ++ [c]).length = i + 1 := by simp [hbefore]
  have hs' : s = (before ++ [c]) ++ (g ++ rest) := by simp [hs]
  have hhalf : g.length / 2 = n := by omega
  have hgroup := uuidLoop_group g (before ++ [c]) hs' (by rwa [hlength, hg]) (by omega) (by omega) out (by omega)
    fuel
  rw [hlength, hhalf, hg] at hgroup
  rw [uuidLoop, if_pos (show i < 36 by omega), if_pos hdash, hc, hgroup, hexBytes_append (by omega)]
  by_cases h45 : c = 45
  · rw [if_neg (not_not.2 h45)]
    simp only [h45, true_and]
    cases hbytes : hexBytes g with
    | none => simp
    | some bytes =>
      have hlen : (out ++ bytes).length = m + n := by
        have := length_hexBytes hbytes
        rw [List.length_append]
        omega
      rw [Option.bind_some, htail _ hlen]
      cases hexBytes tail <;> simp
  · rw [if_pos h45, if_neg fun h => h45 h.1]

/-- A text splits at any place inside it. -/
theorem exists_split (n : Nat) {s : Bytes} (h : n < s.length) :
    ∃ g c rest, g.length = n ∧ rest.length + (n + 1) = s.length ∧ s = g ++ c :: rest := by
  refine ⟨s.take n, s[n], s.drop (n + 1), ?_, ?_, ?_⟩
  · rw [List.length_take]
    omega
  · rw [List.length_drop]
    omega
  · rw [← List.drop_eq_getElem_cons h, List.take_append_drop]

section
variable {g₁ g₂ g₃ g₄ g₅ : Bytes} (h₁ : g₁.length = 8) (h₂ : g₂.length = 4) (h₃ : g₃.length = 4)
  (h₄ : g₄.length = 4) (h₅ : g₅.length = 12)
include h₁ h₂ h₃ h₄ h₅

/-- The loop reads a text of five groups. -/
theorem uuidLoop_groups (c₁ c₂ c₃ c₄ : UInt8) :
    uuidLoop (g₁ ++ c₁ :: (g₂ ++ c₂ :: (g₃ ++ c₃ :: (g₄ ++ c₄ :: g₅)))) 36 0 [] =
      if c₁ = 45 ∧ c₂ = 45 ∧ c₃ = 45 ∧ c₄ = 45 then hexBytes (g₁ ++ (g₂ ++ (g₃ ++ (g₄ ++ g₅))))
      else none := by
  obtain ⟨s, hs⟩ : ∃ s, s = g₁ ++ c₁ :: (g₂ ++ c₂ :: (g₃ ++ c₃ :: (g₄ ++ c₄ :: g₅))) := ⟨_, rfl⟩
  rw [← hs]
  -- From the last group to the first, with the bytes that are there before it.
  have hend : ∀ out : Bytes, out.length = 10 + 6 → uuidLoop s 16 36 out =
      if True then (hexBytes []).map (out ++ ·) else none := by
    intro out _
    simp [uuidLoop, hexBytes]
  have hlast : ∀ out : Bytes, out.length = 8 + 2 → uuidLoop s 23 23 out =
      if c₄ = 45 ∧ True then (hexBytes (g₅ ++ [])).map (out ++ ·) else none :=
    uuidLoop_part rfl (by decide) (by decide) (by decide) (g₁ ++ c₁ :: (g₂ ++ c₂ :: (g₃ ++ c₃ :: g₄)))
      [] (by simp [hs]) (by simp [h₁, h₂, h₃, h₄]) h₅ hend
  have hfourth : ∀ out : Bytes, out.length = 6 + 2 → uuidLoop s 26 18 out =
      if c₃ = 45 ∧ c₄ = 45 ∧ True then (hexBytes (g₄ ++ (g₅ ++ []))).map (out ++ ·) else none :=
    uuidLoop_part rfl (by decide) (by decide) (by decide) (g₁ ++ c₁ :: (g₂ ++ c₂ :: g₃))
      (c₄ :: g₅) (by simp [hs]) (by simp [h₁, h₂, h₃]) h₄ hlast
  have hthird : ∀ out : Bytes, out.length = 4 + 2 → uuidLoop s 29 13 out =
      if c₂ = 45 ∧ c₃ = 45 ∧ c₄ = 45 ∧ True then (hexBytes (g₃ ++ (g₄ ++ (g₅ ++ [])))).map (out ++ ·)
      else none :=
    uuidLoop_part rfl (by decide) (by decide) (by decide) (g₁ ++ c₁ :: g₂)
      (c₃ :: (g₄ ++ c₄ :: g₅)) (by simp [hs]) (by simp [h₁, h₂]) h₃ hfourth
  have hsecond : ∀ out : Bytes, out.length = 4 → uuidLoop s 32 8 out =
      if c₁ = 45 ∧ c₂ = 45 ∧ c₃ = 45 ∧ c₄ = 45 ∧ True then
        (hexBytes (g₂ ++ (g₃ ++ (g₄ ++ (g₅ ++ []))))).map (out ++ ·)
      else none :=
    uuidLoop_part rfl (by decide) (by decide) (by decide) g₁
      (c₂ :: (g₃ ++ c₃ :: (g₄ ++ c₄ :: g₅))) hs h₁ h₂ hthird
  have hfirst : uuidLoop s 36 0 [] = (hexBytes g₁).bind fun bytes => uuidLoop s 32 8 bytes := by
    have hgroup := uuidLoop_group g₁ [] hs (by rw [h₁]; decide) (by simp [h₁]) (by simp [h₁]) []
      (by simp [h₁]) 32
    rw [h₁] at hgroup
    exact hgroup
  rw [hfirst, hexBytes_append (by omega)]
  simp only [List.append_nil, and_true] at hsecond
  cases hbytes : hexBytes g₁ with
  | none => simp
  | some bytes =>
    have := length_hexBytes hbytes
    rw [Option.bind_some, hsecond bytes (by omega), Option.bind_some]

end

/-- **The texts that `uuid` accepts** are those of five groups whose bytes are not all zero. -/
theorem uuid_iff {s id : Bytes} : uuid s = some id ↔ UuidText s id ∧ ∃ b ∈ id, b ≠ 0 := by
  constructor
  · intro h
    unfold uuid at h
    split at h
    · cases h
    next hlength =>
    rw [not_not] at hlength
    split at h
    · cases h
    next out hloop =>
    split at h
    · next hout =>
      cases h
      obtain ⟨g₁, c₁, s₁, h₁, hs₁, rfl⟩ := exists_split 8 (s := s) (by omega)
      obtain ⟨g₂, c₂, s₂, h₂, hs₂, rfl⟩ := exists_split 4 (s := s₁) (by omega)
      obtain ⟨g₃, c₃, s₃, h₃, hs₃, rfl⟩ := exists_split 4 (s := s₂) (by omega)
      obtain ⟨g₄, c₄, g₅, h₄, hs₄, rfl⟩ := exists_split 4 (s := s₃) (by omega)
      have h₅ : g₅.length = 12 := by omega
      rw [uuidLoop_groups h₁ h₂ h₃ h₄ h₅] at hloop
      split at hloop
      · next hdashes =>
        obtain ⟨rfl, rfl, rfl, rfl⟩ := hdashes
        refine ⟨⟨g₁, g₂, g₃, g₄, g₅, h₁, h₂, h₃, h₄, h₅, rfl, hloop⟩, ?_⟩
        simpa using hout.2
      · cases hloop
    · cases h
  · rintro ⟨⟨g₁, g₂, g₃, g₄, g₅, h₁, h₂, h₃, h₄, h₅, rfl, hbytes⟩, hnonzero⟩
    have hlength : id.length = 16 := by
      have := length_hexBytes hbytes
      simp only [List.length_append, h₁, h₂, h₃, h₄, h₅] at this
      omega
    rw [uuid, if_neg (by simp [h₁, h₂, h₃, h₄, h₅]), uuidLoop_groups h₁ h₂ h₃ h₄ h₅,
      if_pos ⟨rfl, rfl, rfl, rfl⟩, hbytes]
    exact if_pos ⟨hlength, by simpa using hnonzero⟩

/-- The digit of a number below 16. -/
def hexDigit (n : Nat) : UInt8 := UInt8.ofNat (if n < 10 then 48 + n else 87 + n)

/-- The digits of a byte string. -/
def hexText : Bytes → Bytes
  | [] => []
  | b :: rest => hexDigit (b.toNat / 16) :: hexDigit (b.toNat % 16) :: hexText rest

/-- The canonical text of a tunnel id. -/
def uuidText (id : Bytes) : Bytes :=
  hexText (id.take 4) ++ 45 :: (hexText ((id.drop 4).take 2) ++ 45 :: (hexText ((id.drop 6).take 2) ++
    45 :: (hexText ((id.drop 8).take 2) ++ 45 :: hexText (id.drop 10))))

theorem hexByte_digits (b : UInt8) :
    hexByte (hexDigit (b.toNat / 16)) (hexDigit (b.toNat % 16)) = some b :=
  Bytes.forall_byte (P := fun b => hexByte (hexDigit (b.toNat / 16)) (hexDigit (b.toNat % 16)) = some b)
    (by decide +kernel) b

theorem length_hexText (x : Bytes) : (hexText x).length = 2 * x.length := by
  induction x with
  | nil => rfl
  | cons b x ih =>
    rw [hexText, List.length_cons, List.length_cons, ih, List.length_cons]
    omega

theorem hexText_append (x y : Bytes) : hexText (x ++ y) = hexText x ++ hexText y := by
  induction x with
  | nil => rfl
  | cons b x ih => simp [hexText, ih]

theorem hexBytes_hexText (x : Bytes) : hexBytes (hexText x) = some x := by
  induction x with
  | nil => rfl
  | cons b x ih => simp [hexText, hexBytes, hexByte_digits, ih]

/-- Every tunnel id has its canonical text. -/
theorem uuidText_text {id : Bytes} (h : id.length = 16) : UuidText (uuidText id) id := by
  refine ⟨_, _, _, _, _, ?_, ?_, ?_, ?_, ?_, rfl, ?_⟩
  iterate 5 simp [length_hexText, h]
  have hparts : id = id.take 4 ++ ((id.drop 4).take 2 ++ ((id.drop 6).take 2 ++
      ((id.drop 8).take 2 ++ id.drop 10))) := by
    have h₄ := List.take_append_drop 2 (id.drop 8)
    have h₃ := List.take_append_drop 2 (id.drop 6)
    have h₂ := List.take_append_drop 2 (id.drop 4)
    rw [List.drop_drop] at h₂ h₃ h₄
    rw [h₄, h₃, h₂, List.take_append_drop]
  rw [← hexText_append, ← hexText_append, ← hexText_append, ← hexText_append, ← hparts, hexBytes_hexText]

/-! ## The fields -/

/-- The members of an object that is accepted, with the values they stand for. -/
structure Fields (members : Members) (tag id secret : Bytes) : Prop where
  only : Only [text "a", text "s", text "t", text "e"] members
  account : (text "a", .string tag) ∈ members
  tag_length : tag.length = 32
  tag_hex : ∀ c ∈ tag, (hex c).isSome
  secret_digits : (text "s", .string (base64Digits true secret)) ∈ members
  secret_min : secretMin ≤ secret.length
  secret_max : secret.length ≤ secretMax
  tunnel : ∃ t, (text "t", .string t) ∈ members ∧ UuidText t id
  nonzero : ∃ b ∈ id, b ≠ 0
  endpoint : ∀ e, (text "e", e) ∈ members → e = .string []

theorem readValues_iff {a s t : Bytes} {c : Rpc.Credentials} : readValues a s t = .ok c ↔
    ∃ id secret, UuidText t id ∧ (∃ b ∈ id, b ≠ 0) ∧ a.length = 32 ∧ (∀ c ∈ a, (hex c).isSome) ∧
      s = base64Digits true secret ∧ secretMin ≤ secret.length ∧ secret.length ≤ secretMax ∧
      c = credentialsOf a id secret := by
  constructor
  · intro h
    unfold readValues at h
    split at h
    · cases h
    next id hid =>
    split at h
    · cases h
    next htag =>
    rw [not_or, not_not, Bool.not_eq_true', Bool.not_eq_false, List.all_eq_true] at htag
    dsimp only at h
    split at h
    · cases h
    next hrc =>
    rw [not_not] at hrc
    obtain ⟨secret, hdecode, hdigits, -, hmax⟩ := base64Decode_ok_mode hrc
    rw [hdecode] at h
    split at h
    · cases h
    next hmin =>
    cases h
    obtain ⟨htext, hnonzero⟩ := uuid_iff.1 hid
    exact ⟨id, secret, htext, hnonzero, htag.1, htag.2, hdigits.symm, not_lt.1 hmin, hmax, rfl⟩
  · rintro ⟨id, secret, htext, hnonzero, hlength, hhex, rfl, hmin, hmax, rfl⟩
    have htag : ¬(a.length ≠ 32 ∨ (!a.all fun c => (hex c).isSome) = true) := by
      rw [not_or, not_not, Bool.not_eq_true', Bool.not_eq_false, List.all_eq_true]
      exact ⟨hlength, hhex⟩
    rw [readValues, uuid_iff.2 ⟨htext, hnonzero⟩]
    dsimp only
    rw [if_neg htag, base64Decode_digits_mode true hmax, if_neg (by simp)]
    exact if_neg (not_lt.2 hmin)

/-- **The fields that are accepted**, and what becomes of them. -/
theorem readFields_iff {root : Json} {c : Rpc.Credentials} : readFields root = .ok c ↔
    ∃ members tag id secret, root = .object members ∧ Fields members tag id secret ∧
      c = credentialsOf tag id secret := by
  constructor
  · intro h
    unfold readFields at h
    split at h
    · cases h
    next hkeys =>
    rw [Bool.not_eq_true', Bool.not_eq_false, jsonKeys_iff] at hkeys
    obtain ⟨members, heq, honly⟩ := hkeys
    cases heq
    split at h
    · next a s t ha hs ht =>
      rw [getItem_iff honly.2] at ha hs ht
      obtain ⟨hvalues, hendpoint⟩ : readValues a s t = .ok c ∧
          ∀ e, (text "e", e) ∈ members → e = .string [] := by
        split at h
        · next he =>
          rw [getItem_none honly.2] at he
          exact ⟨h, fun e hmem => absurd hmem (he e)⟩
        · next e he =>
          split at h
          · cases h
          next hempty =>
          rw [not_not] at hempty
          subst hempty
          refine ⟨h, fun e hmem => ?_⟩
          rw [← getItem_iff honly.2, he] at hmem
          exact (Option.some.inj hmem).symm
        · cases h
      obtain ⟨id, secret, htext, hnonzero, hlength, hhex, rfl, hmin, hmax, rfl⟩ := readValues_iff.1 hvalues
      exact ⟨members, a, id, secret, rfl,
        ⟨honly, ha, hlength, hhex, hs, hmin, hmax, ⟨t, ht, htext⟩, hnonzero, hendpoint⟩, rfl⟩
    · cases h
  · rintro ⟨members, tag, id, secret, rfl, h, rfl⟩
    obtain ⟨t, ht, htext⟩ := h.tunnel
    have hkeys := jsonKeys_iff.2 ⟨members, rfl, h.only⟩
    have hvalues := readValues_iff.2 ⟨id, secret, htext, h.nonzero, h.tag_length, h.tag_hex, rfl,
      h.secret_min, h.secret_max, rfl⟩
    rw [readFields, hkeys, if_neg (by simp), (getItem_iff h.only.2).2 h.account,
      (getItem_iff h.only.2).2 h.secret_digits, (getItem_iff h.only.2).2 ht]
    dsimp only
    cases he : getItem (some (.object members)) (text "e") with
    | none => exact hvalues
    | some e =>
      rw [h.endpoint e ((getItem_iff h.only.2).1 he)]
      exact hvalues

/-! ## Tokens -/

/-- The fields of a token, in one order; the others are its permutations. -/
def tokenFields (tag t secret : Bytes) : List (Bytes × Bytes) :=
  [(text "a", tag), (text "s", base64Digits true secret), (text "t", t)]

/-- An object whose values are strings. -/
def stringObject (fields : List (Bytes × Bytes)) : Members := fields.map fun f => (f.1, .string f.2)

/-- The members of an object, one after the other: `"name":"value",` -/
def membersText : List (Bytes × Bytes) → Bytes
  | [] => []
  | f :: fields => 34 :: (f.1 ++ 34 :: 58 :: 34 :: (f.2 ++ 34 :: 44 :: membersText fields))

/-- The text of an object in the shortest form: the last comma becomes a brace. -/
def objectText (fields : List (Bytes × Bytes)) : Bytes := 123 :: ((membersText fields).dropLast ++ [125])

theorem length_membersText (fields : List (Bytes × Bytes)) :
    (membersText fields).length = (fields.map fun f => f.1.length + f.2.length + 6).sum := by
  induction fields with
  | nil => rfl
  | cons f fields ih =>
    simp only [membersText, List.length_cons, List.length_append, List.map_cons, List.sum_cons, ih]
    omega

theorem length_objectText (fields : List (Bytes × Bytes)) :
    (objectText fields).length ≤ (fields.map fun f => f.1.length + f.2.length + 6).sum + 2 := by
  rw [← length_membersText]
  simp only [objectText, List.length_cons, List.length_append, List.length_dropLast, List.length_nil]
  omega

/-- A tunnel id is written with 36 characters. -/
theorem UuidText.length {t id : Bytes} (h : UuidText t id) : t.length = 36 := by
  obtain ⟨g₁, g₂, g₃, g₄, g₅, h₁, h₂, h₃, h₄, h₅, rfl, -⟩ := h
  simp [h₁, h₂, h₃, h₄, h₅]

section
variable {tag id secret t : Bytes} {fields : List (Bytes × Bytes)}

/-- The fields of a token make it fit. -/
theorem objectText_fits (htag : tag.length = 32) (ht : UuidText t id) (hmax : secret.length ≤ secretMax)
    (h : fields.Perm (tokenFields tag t secret) ∨ fields.Perm ((text "e", []) :: tokenFields tag t secret)) :
    (objectText fields).length ≤ jsonMax := by
  have hdigits : (base64Digits true secret).length ≤ 172 := by
    rw [length_base64Digits, base64Need]
    change secret.length ≤ 128 at hmax
    split
    · omega
    · split <;> omega
  have hsum : (fields.map fun f => f.1.length + f.2.length + 6).sum ≤ 300 := by
    have hname : (text "a").length = 1 ∧ (text "s").length = 1 ∧ (text "t").length = 1 ∧
        (text "e").length = 1 := by decide
    rcases h with h | h
    all_goals
      rw [(h.map _).sum_nat]
      simp only [tokenFields, List.map_cons, List.map_nil, List.sum_cons, List.sum_nil, htag, ht.length,
        hname, List.length_nil]
      omega
  exact (length_objectText fields).trans (by simp only [jsonMax]; omega)

/-- The fields of a token are accepted in any order, with or without an empty endpoint. -/
theorem fields_of_perm (htag : tag.length = 32) (hhex : ∀ c ∈ tag, (hex c).isSome) (ht : UuidText t id)
    (hnonzero : ∃ b ∈ id, b ≠ 0) (hmin : secretMin ≤ secret.length) (hmax : secret.length ≤ secretMax)
    (h : fields.Perm (tokenFields tag t secret) ∨ fields.Perm ((text "e", []) :: tokenFields tag t secret)) :
    Fields (stringObject fields) tag id secret := by
  have hmem : ∀ f, f ∈ tokenFields tag t secret → (f.1, .string f.2) ∈ stringObject fields := by
    intro f hf
    refine List.mem_map.2 ⟨f, ?_, rfl⟩
    rcases h with h | h
    · exact h.mem_iff.2 hf
    · exact h.mem_iff.2 (List.mem_cons_of_mem _ hf)
  have honly : Only [text "a", text "s", text "t", text "e"] (stringObject fields) := by
    rcases h with h | h
    all_goals
      refine Only.perm (h.map _) ⟨?_, ?_⟩
      · simp [tokenFields]
      · simp only [tokenFields, List.map_cons, List.map_nil]
        decide
  have hendpoint : ∀ e, (text "e", e) ∈ stringObject fields → e = .string [] := by
    intro e he
    obtain ⟨f, hf, heq⟩ := List.mem_map.1 he
    obtain ⟨hname, rfl⟩ := Prod.mk.inj heq
    have hf' : f ∈ (text "e", []) :: tokenFields tag t secret := by
      rcases h with h | h
      · exact List.mem_cons_of_mem _ (h.mem_iff.1 hf)
      · exact h.mem_iff.1 hf
    simp only [tokenFields, List.mem_cons, List.not_mem_nil, or_false] at hf'
    rcases hf' with rfl | rfl | rfl | rfl
    · rfl
    all_goals
      dsimp only at hname
      exact absurd hname (by decide)
  exact ⟨honly, hmem _ (.head _), htag, hhex, hmem _ (.tail _ (.head _)), hmin, hmax,
    ⟨t, hmem _ (.tail _ (.tail _ (.head _))), ht⟩, hnonzero, hendpoint⟩

end

/-- A text of at most 768 bytes has at most 1024 digits. -/
theorem digits_fit {doc : Bytes} (hpos : doc ≠ []) (h : doc.length ≤ jsonMax) :
    ¬((base64Digits true doc).length = 0 ∨ (base64Digits true doc).length > tokenMax) := by
  have := List.length_pos_iff.2 hpos
  change doc.length ≤ 768 at h
  rw [length_base64Digits, base64Need]
  simp only [tokenMax]
  split
  · omega
  · split <;> omega

/-- What a call does with the digits of a text. -/
theorem credentialsParse_digits {parse : Parser} {doc : Bytes} (hpos : doc ≠ []) (h : doc.length ≤ jsonMax)
    {root : Json} (hparse : parse doc = .ok root) (scratch : Mem) {cap : Nat} (hcap : jsonMax + 1 ≤ cap) :
    ∃ scratch', credentialsParse parse (some (base64Digits true doc)) (some scratch) cap =
      finish scratch' cap (readFields root) := by
  rw [credentialsParse, if_neg (by omega), if_neg (digits_fit hpos h), base64Decode_digits_mode true h]
  dsimp only
  rw [if_neg (by simp), Mem.read_write_disjoint _ _ (by omega), Mem.read_write_same, hparse]
  exact ⟨_, rfl⟩

/-- All of the scratch memory is erased at `done`. -/
theorem finish_scratch (scratch : Mem) (cap : Nat) (verdict : Except (Result × Diagnostic) Rpc.Credentials) :
    ∃ mem, (finish scratch cap verdict).scratch = some mem ∧ ∀ i < cap, mem i = 0 := by
  refine ⟨scratch.write 0 (List.replicate cap 0), ?_, ?_⟩
  · cases verdict <;> rfl
  · intro i hi
    rw [Mem.write, if_pos (Nat.zero_le i), Nat.sub_zero, List.getD_eq_getElem _ _ (by simpa using hi),
      List.getElem_replicate]

/-- An error is not `CF_OK`. -/
theorem readValues_error {a s t : Bytes} {rc : Result} {why : Diagnostic}
    (h : readValues a s t = .error (rc, why)) : rc ≠ .ok := by
  unfold readValues at h
  split at h
  · cases h
    decide
  split at h
  · cases h
    decide
  dsimp only at h
  split at h
  · next hrc =>
    cases h
    exact hrc
  split at h
  · cases h
    decide
  · cases h

theorem readFields_error {root : Json} {rc : Result} {why : Diagnostic}
    (h : readFields root = .error (rc, why)) : rc ≠ .ok := by
  unfold readFields at h
  split at h
  · cases h
    decide
  split at h
  · split at h
    · exact readValues_error h
    · split at h
      · cases h
        decide
      · exact readValues_error h
    · cases h
      decide
  · cases h
    decide

/-- A call past the checks of its arguments ends at `done`. -/
theorem credentialsParse_finish (parse : Parser) (token : Bytes) (scratch : Mem) {cap : Nat}
    (hcap : jsonMax + 1 ≤ cap) : ∃ scratch' verdict,
      credentialsParse parse (some token) (some scratch) cap = finish scratch' cap verdict ∧
      (∀ c, verdict = .ok c → ∃ doc root, token = base64Digits true doc ∧ doc.length ≤ jsonMax ∧
        parse doc = .ok root ∧ readFields root = .ok c) ∧
      ∀ rc why, verdict = .error (rc, why) → rc ≠ .ok := by
  rw [credentialsParse, if_neg (by omega)]
  split
  · refine ⟨_, _, rfl, nofun, fun rc why h => ?_⟩
    cases h
    decide
  dsimp only
  split
  · next hrc =>
    refine ⟨_, _, rfl, nofun, fun rc why h => ?_⟩
    cases h
    exact hrc
  next hrc =>
  rw [not_not] at hrc
  obtain ⟨doc, hdecode, hdigits, -, hmax⟩ := base64Decode_ok_mode hrc
  rw [hdecode]
  dsimp only
  rw [Mem.read_write_disjoint _ _ (by omega), Mem.read_write_same]
  split
  · next failure _ =>
    refine ⟨_, _, rfl, nofun, fun rc why h => ?_⟩
    cases h
    cases failure <;> decide
  · next root hparse =>
    exact ⟨_, _, rfl, fun c h => ⟨doc, root, hdigits.symm, hmax, hparse, h⟩, fun rc why => readFields_error⟩

/-- A token that is accepted. -/
theorem credentialsParse_accepted {parse : Parser} {token : Bytes} {scratch : Mem} {cap : Nat}
    (hcap : jsonMax + 1 ≤ cap)
    (h : (credentialsParse parse (some token) (some scratch) cap).result = .ok) :
    ∃ doc members tag id secret, token = base64Digits true doc ∧ doc.length ≤ jsonMax ∧
      parse doc = .ok (.object members) ∧ Fields members tag id secret ∧
      (credentialsParse parse (some token) (some scratch) cap).out = credentialsOf tag id secret := by
  obtain ⟨scratch', verdict, heq, hok, herror⟩ := credentialsParse_finish parse token scratch hcap
  rw [heq] at h ⊢
  cases verdict with
  | error e =>
    obtain ⟨rc, why⟩ := e
    exact absurd h (herror rc why rfl)
  | ok c =>
    obtain ⟨doc, root, hdigits, hmax, hparse, hfields⟩ := hok c rfl
    obtain ⟨members, tag, id, secret, rfl, hmembers, rfl⟩ := readFields_iff.1 hfields
    exact ⟨doc, members, tag, id, secret, hdigits, hmax, hparse, hmembers, rfl⟩

/-- Nothing is left in the credentials on an error. -/
theorem credentialsParse_rejected {parse : Parser} {token : Option Bytes} {scratch : Option Mem} {cap : Nat}
    (h : (credentialsParse parse token scratch cap).result ≠ .ok) :
    (credentialsParse parse token scratch cap).out = noCredentials := by
  cases token with
  | none => cases scratch <;> rfl
  | some token =>
    cases scratch with
    | none => rfl
    | some scratch =>
      by_cases hcap : cap < jsonMax + 1
      · rw [credentialsParse, if_pos hcap]
      · obtain ⟨scratch', verdict, heq, -, -⟩ := credentialsParse_finish parse token scratch (not_lt.1 hcap)
        rw [heq] at h ⊢
        cases verdict with
        | error e => rfl
        | ok c => exact absurd rfl h

/-- Connector tokens are parsed exactly. The digits of a document whose tree is an object with an account
tag, a secret and a tunnel id, in any order and with an empty endpoint or none, are accepted with these
values, and the shortest document of that kind always fits. Conversely a token that is accepted is the
digits of such a document, and its values are what comes out. On an error the output is zero, and past
the checks of the arguments all of the scratch memory is erased. -/
theorem credentials_parse_exact (parse : Parser) :
    (∀ (tag id secret t : Bytes) (fields : List (Bytes × Bytes)), tag.length = 32 →
      (∀ c ∈ tag, (hex c).isSome) → UuidText t id → (∃ b ∈ id, b ≠ 0) → secretMin ≤ secret.length →
      secret.length ≤ secretMax →
      fields.Perm (tokenFields tag t secret) ∨ fields.Perm ((text "e", []) :: tokenFields tag t secret) →
      (objectText fields).length ≤ jsonMax ∧
        ∀ doc, doc ≠ [] → doc.length ≤ jsonMax → parse doc = .ok (.object (stringObject fields)) →
        ∀ scratch cap, jsonMax + 1 ≤ cap →
          let call := credentialsParse parse (some (base64Digits true doc)) (some scratch) cap
          call.result = .ok ∧ call.diagnostic = .valid ∧ call.out = credentialsOf tag id secret) ∧
      (∀ id : Bytes, id.length = 16 → UuidText (uuidText id) id) ∧
      (∀ token scratch cap, (credentialsParse parse token scratch cap).result = .ok →
        ∃ doc members tag id secret, token = some (base64Digits true doc) ∧ doc.length ≤ jsonMax ∧
          parse doc = .ok (.object members) ∧ Fields members tag id secret ∧
          (credentialsParse parse token scratch cap).out = credentialsOf tag id secret) ∧
      (∀ token scratch cap, (credentialsParse parse token scratch cap).result ≠ .ok →
        (credentialsParse parse token scratch cap).out = noCredentials) ∧
      ∀ token scratch cap, jsonMax + 1 ≤ cap →
        ∃ mem, (credentialsParse parse (some token) (some scratch) cap).scratch = some mem ∧
          ∀ i < cap, mem i = 0 := by
  refine ⟨?_, fun id => uuidText_text, ?_, fun token scratch cap => credentialsParse_rejected, ?_⟩
  · intro tag id secret t fields htag hhex ht hnonzero hmin hmax hperm
    refine ⟨objectText_fits htag ht hmax hperm, ?_⟩
    intro doc hpos hdoc hparse scratch cap hcap
    obtain ⟨scratch', heq⟩ := credentialsParse_digits hpos hdoc hparse scratch hcap
    have hfields := readFields_iff.2 ⟨_, tag, id, secret, rfl,
      fields_of_perm htag hhex ht hnonzero hmin hmax hperm, rfl⟩
    dsimp only
    rw [heq, hfields]
    exact ⟨rfl, rfl, rfl⟩
  · intro token scratch cap h
    cases token with
    | none => cases scratch <;> cases h
    | some token =>
      cases scratch with
      | none => cases h
      | some scratch =>
        have hcap : jsonMax + 1 ≤ cap := by
          by_contra hcap
          rw [credentialsParse, if_pos (not_le.1 hcap)] at h
          cases h
        obtain ⟨doc, members, tag, id, secret, rfl, hall⟩ := credentialsParse_accepted hcap h
        exact ⟨doc, members, tag, id, secret, rfl, hall⟩
  · intro token scratch cap hcap
    obtain ⟨scratch', verdict, heq, -, -⟩ := credentialsParse_finish parse token scratch hcap
    rw [heq]
    exact finish_scratch scratch' cap verdict

/-- The tag of the sample token. -/
def sampleTag : Bytes := text "0123456789abcdef0123456789abcdef"

/-- The secret of the sample token. -/
def sampleSecret : Bytes := (List.range 32).map UInt8.ofNat

/-- The tunnel id of the sample token. -/
def sampleId : Bytes := [0, 17, 34, 51, 68, 85, 70, 119, 136, 153, 170, 187, 204, 221, 238, 255]

/-- The fields of the sample token, the tunnel id first. -/
def sampleFields : List (Bytes × Bytes) :=
  [(text "t", uuidText sampleId), (text "a", sampleTag), (text "s", base64Digits true sampleSecret)]

/-- A parser that knows the sample token. -/
def sampleParse : Parser := fun doc =>
  if doc = objectText sampleFields then .ok (.object (stringObject sampleFields)) else .error .malformed

theorem credentials_parse_sample : uuidText sampleId = text "00112233-4455-4677-8899-aabbccddeeff" ∧
    (credentialsParse sampleParse (some (base64Digits true (objectText sampleFields))) (some fun _ => 165)
      769).out = credentialsOf sampleTag sampleId sampleSecret := by
  refine ⟨by decide +kernel, ?_⟩
  have hperm : sampleFields.Perm (tokenFields sampleTag (uuidText sampleId) sampleSecret) := by
    refine .trans (.swap _ _ _) (.trans (.cons _ (.swap _ _ _)) ?_)
    exact .refl _
  obtain ⟨hfits, hcall⟩ := (credentials_parse_exact sampleParse).1 sampleTag sampleId sampleSecret
    (uuidText sampleId) sampleFields (by decide +kernel) (by decide +kernel)
    ((credentials_parse_exact sampleParse).2.1 sampleId rfl) (by decide +kernel) (by decide +kernel)
    (by decide +kernel) (.inl hperm)
  exact (hcall _ (by simp [objectText]) hfits (if_pos rfl) _ _ le_rfl).2.2

end EspCfTunnel.Token
