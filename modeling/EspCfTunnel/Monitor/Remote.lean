import EspCfTunnel.Config
import EspCfTunnel.H2.Basic
import EspCfTunnel.Headers.Codec

/-!
# The head of a remote request

`monitor_remote.c`: what the monitor takes from the fields of a request that comes through the tunnel,
those of the request itself (raw) and those that one of them carries in serialized form.
-/

namespace EspCfTunnel.Remote

open EspCfTunnel

/-- `MONITOR_BODY_MAX`. -/
abbrev bodyMax : Nat := 2048

/-- `CF_REQUEST_HEADERS`: the field that carries others. -/
def requestHeaders : Bytes := text "cf-cloudflared-request-headers"

/-- `monitor_remote_head`. -/
structure RemoteHead where
  path : Bytes := []
  authorization : Bytes := []
  post : Bool := false
  head : Bool := false
  jsonContent : Bool := false
  originAllowed : Bool := false
  hasLength : Bool := false
  contentLength : Nat := 0
  deriving DecidableEq, Repr

/-- `name_is`: `s` is in lower case. -/
def nameIs (b s : Bytes) : Bool := b.map (fun c => if 65 ≤ c ∧ c ≤ 90 then c + 32 else c) = s

/-- `copy` into an array of `cap` characters. -/
def copy (b : Bytes) (cap : Nat) : Except Result Bytes :=
  if b.length ≥ cap ∨ 0 ∈ b then .error .limit else .ok b

/-- The names that `field` keeps the value of. -/
inductive Special
  | authorization | origin | contentType | contentLength
  deriving DecidableEq, Repr

def Special.name : Special → Bytes
  | authorization => text "authorization"
  | origin => text "origin"
  | contentType => text "content-type"
  | contentLength => text "content-length"

/-- `bit` -/
def Special.bit : Special → Nat
  | authorization => 1
  | origin => 2
  | contentType => 4
  | contentLength => 8

/-- The tests of `field` that set `bit`. -/
def specialOf (name : Bytes) : Option Special :=
  if nameIs name (text "authorization") then some .authorization
  else if nameIs name (text "origin") then some .origin
  else if nameIs name (text "content-type") then some .contentType
  else if nameIs name (text "content-length") then some .contentLength
  else none

/-- A field that makes a request unsupported. -/
def refused (h : Header) : Bool :=
  nameIs h.name (text "transfer-encoding") ∨
    (nameIs h.name (text "content-encoding") ∧ h.value ≠ text "identity") ∨
    (nameIs h.name (text "cf-cloudflared-proxy-src") ∧ h.value ≠ [])

/-- The loop over the digits of a length. -/
def lengthLoop (n : Nat) : Bytes → Except Result Nat
  | [] => .ok n
  | c :: rest =>
    if c < 48 ∨ c > 57 then .error .format
    else if n * 10 + (c.toNat - 48) > bodyMax then .error .limit
    else lengthLoop (n * 10 + (c.toNat - 48)) rest

/-- The value of a `content-length` field. -/
def lengthOf (value : Bytes) : Except Result Nat :=
  if value = [] then .error .format else lengthLoop 0 value

/-- `fields`, with what `out` points to. -/
structure Fields where
  seen : Nat := 0
  origin : Bytes := []
  type : Bytes := []
  out : RemoteHead
  deriving DecidableEq, Repr

/-- What `field` stores once it has seen the name. -/
def store (f : Fields) (value : Bytes) : Special → Except Result Fields
  | .authorization => do
    let v ← copy value 80
    return { f with out := { f.out with authorization := v } }
  | .origin => do
    let v ← copy value 272
    return { f with origin := v }
  | .contentType => do
    let v ← copy value 64
    return { f with type := v }
  | .contentLength => do
    let n ← lengthOf value
    return { f with out := { f.out with hasLength := true, contentLength := n } }

/-- `field` -/
def field (f : Fields) (h : Header) : Except Result Fields :=
  match specialOf h.name with
  | none => if refused h then .error .unsupported else .ok f
  | some s =>
    if f.seen &&& s.bit ≠ 0 then .error .format
    else store { f with seen := f.seen ||| s.bit } h.value s

/-- The loop over the raw fields, where `packed` is the serialized form found so far. -/
def rawFields : List Header → Fields → Option Bytes → Except Result (Fields × Option Bytes)
  | [], f, packed => .ok (f, packed)
  | h :: rest, f, packed =>
    if nameIs h.name requestHeaders then
      if packed.isSome then .error .format else rawFields rest f (some h.value)
    else
      match field f h with
      | .error rc => .error rc
      | .ok f => rawFields rest f packed

/-- The fields in serialized form. `buffer` is what `malloc` gives, with the bytes that are there. -/
def packedFields (buffer : Option Mem) (f : Fields) (wire : Bytes) : Except Result Fields :=
  match buffer with
  | none => .error .memory
  | some arena =>
    let decoded :=
      Headers.headersDecode (some wire) (some Headers.countMax) (some Headers.decodedMax) arena
    if decoded.rc ≠ .ok then .error decoded.rc else decoded.headers.foldlM field f

/-- Both loops. -/
def allFields (buffer : Option Mem) (headers : List Header) (f : Fields) : Except Result Fields :=
  match rawFields headers f none with
  | .error rc => .error rc
  | .ok (f, none) => .ok f
  | .ok (f, some wire) => packedFields buffer f wire

/-- What is left to do when all fields are taken. -/
def finish (f : Fields) (authority : Bytes) : Except Result RemoteHead :=
  -- `%.*s` stops at a NUL.
  let expected := text "https://" ++ Config.cString authority
  let n := expected.length
  let next := f.type.getD 16 0
  let out : RemoteHead := { f.out with
    originAllowed := f.seen &&& 2 = 0 ∨ (n > 0 ∧ n < 272 ∧ f.origin = expected) ∨
      (n > 0 ∧ n + 4 < 272 ∧ f.origin = expected ++ text ":443")
    jsonContent := f.type.take 16 = text "application/json" ∧ (next = 0 ∨ next = 59) }
  if !out.post ∧ out.contentLength ≠ 0 then .error .format else .ok out

/-- The checks of `:method`, `:path` and `:authority`, and what they leave in the head. -/
def opening (method path authority : Bytes) : Result × RemoteHead :=
  let out : RemoteHead := { post := method = text "POST", head := method = text "HEAD" }
  if !out.post ∧ !out.head ∧ method ≠ text "GET" then (.unsupported, out)
  else if path = [] ∨ path.head? ≠ some 47 ∨ authority = [] ∨ authority.length > 253 then
    (.format, out)
  else
    match copy (path.takeWhile (· ≠ 63)) 128 with
    | .error rc => (rc, out)
    | .ok path => (.ok, { out with path })

/-- `monitor_remote_parse` behind the check of its pointers. -/
def remoteParse (buffer : Option Mem) (headers : List Header) : Result × RemoteHead :=
  let authority := H2.header headers (text ":authority")
  match opening (H2.header headers (text ":method")) (H2.header headers (text ":path")) authority with
  | (.ok, out) =>
    match allFields buffer headers { out } with
    | .error rc => (rc, {})
    | .ok f =>
      match finish f authority with
      | .error rc => (rc, {})
      | .ok head => (.ok, head)
  | failed => failed

/-- `monitor_remote_parse`. An absent request or head is a null pointer. -/
def monitorRemoteParse (buffer : Option Mem) (r : Option H2.Request) (out : Option RemoteHead) :
    Result × Option RemoteHead :=
  match r, out with
  | some r, some _ =>
    let x := remoteParse buffer r.headers
    (x.1, some x.2)
  | _, _ => (.argument, out)

end EspCfTunnel.Remote
