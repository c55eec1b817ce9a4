import EspCfTunnel.Core

/-!
# Serialized headers

The encoding half of `cf_headers.c`, with the Base64 encoder of `cf_base64.c` that it uses: a list of
header fields becomes one field value, each name and value in Base64 without padding.
-/

namespace EspCfTunnel

/-- `cf_header`. -/
structure Header where
  name : Bytes
  value : Bytes
  deriving DecidableEq, Repr

namespace Headers

/-- `CF_HEADER_COUNT_MAX`. -/
abbrev countMax : Nat := 32

/-- `CF_HEADER_DECODED_MAX`. -/
abbrev decodedMax : Nat := 4096

/-- `CF_HEADER_WIRE_MAX`. -/
abbrev wireMax : Nat := 6144

/-- `alphabet[]` in `cf_base64_encode`. -/
def alphabet (n : Nat) : UInt8 :=
  if n < 26 then UInt8.ofNat (65 + n)
  else if n < 52 then UInt8.ofNat (97 + (n - 26))
  else if n < 62 then UInt8.ofNat (48 + (n - 52))
  else if n = 62 then 43 else 47

/-- The loop of `cf_base64_encode`, three bytes at a time. -/
def base64Digits (padded : Bool) : Bytes → Bytes
  | [] => []
  | [a] =>
    let word := a.toNat * 2 ^ 16
    let pad := if padded then [61] else []
    alphabet (word / 2 ^ 18 % 64) :: alphabet (word / 2 ^ 12 % 64) :: (pad ++ pad)
  | [a, b] =>
    let word := a.toNat * 2 ^ 16 + b.toNat * 2 ^ 8
    alphabet (word / 2 ^ 18 % 64) :: alphabet (word / 2 ^ 12 % 64) :: alphabet (word / 2 ^ 6 % 64) ::
      if padded then [61] else []
  | a :: b :: c :: rest =>
    let word := a.toNat * 2 ^ 16 + b.toNat * 2 ^ 8 + c.toNat
    alphabet (word / 2 ^ 18 % 64) :: alphabet (word / 2 ^ 12 % 64) :: alphabet (word / 2 ^ 6 % 64) ::
      alphabet (word % 64) :: base64Digits padded rest

/-- The size that `cf_base64_encode` computes for `n` bytes. -/
def base64Need (padded : Bool) (n : Nat) : Nat :=
  n / 3 * 4 + if n % 3 = 0 then 0 else if padded then 4 else n % 3 + 1

/-- `cf_base64_encode`: the digits that are written; none on an error. The first limit is that of
`SIZE_MAX`, here for a 32-bit `size_t`. -/
def base64Encode (input : Bytes) (padded : Bool) (cap : Nat) : Except Result Bytes :=
  if input.length / 3 > (2 ^ 32 - 1 - 4) / 4 then .error .limit
  else if base64Need padded input.length > cap then .error .limit
  else .ok (base64Digits padded input)

/-- `valid_name`. -/
def validName (s : Bytes) : Bool :=
  s ≠ [] ∧ ∀ c ∈ s, (97 ≤ c ∧ c ≤ 122) ∨ (65 ≤ c ∧ c ≤ 90) ∨ (48 ≤ c ∧ c ≤ 57) ∨
    c ∈ ([33, 35, 36, 37, 38, 39, 42, 43, 45, 46, 94, 95, 96, 124, 126] : Bytes)

/-- `valid_value`. -/
def validValue (s : Bytes) : Bool := ∀ c ∈ s, ¬ ((c < 32 ∧ c ≠ 9) ∨ c = 127)

/-- The first loop of `cf_headers_encode`, from entry `i` on: the checks, and the size needed. -/
def encodeSize : List Header → Nat → Nat → Nat → Except Result Nat
  | [], _, _, need => .ok need
  | e :: es, i, decoded, need =>
    let a := e.name.length
    let b := e.value.length
    if a > decodedMax - decoded then .error .limit
    else if b > decodedMax - (decoded + a) then .error .limit
    else if !validName e.name ∨ !validValue e.value then .error .format
    else encodeSize es (i + 1) (decoded + a + b)
      (need + base64Need false a + (base64Need false b + 1 + if i ≠ 0 then 1 else 0))

/-- What an ignored failure of `cf_base64_encode` leaves: nothing is written. -/
def encoded (input : Bytes) (cap : Nat) : Bytes := (base64Encode input false cap).toOption.getD []

/-- The second loop of `cf_headers_encode`, after the bytes `wire`. -/
def encodeWire (cap : Nat) : List Header → Nat → Bytes → Bytes
  | [], _, wire => wire
  | e :: es, i, wire =>
    let wire := if i ≠ 0 then wire ++ [59] else wire
    let wire := wire ++ encoded e.name (cap - wire.length) ++ [58]
    encodeWire cap es (i + 1) (wire ++ encoded e.value (cap - wire.length))

/-- `cf_headers_encode`. -/
def headersEncode (entries : List Header) (cap : Nat) : Except Result Bytes :=
  if entries.length > countMax then .error .limit
  else
    match encodeSize entries 0 0 0 with
    | .error rc => .error rc
    | .ok need => if need > cap ∨ need > wireMax then .error .limit else .ok (encodeWire cap entries 0 [])

end Headers

end EspCfTunnel
