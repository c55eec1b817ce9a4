import EspCfTunnel.Core
import Mathlib.Data.Rat.Defs

/-!
# Remote configuration

`cf_config.c`: the narrow subset of ingress configurations that a tunnel accepts, over the JSON tree
of an update. The parser behind `cf_json_parse` is a parameter; an object keeps its members in order,
duplicates included, as cJSON does. Strings are C strings without their NUL.
-/

namespace EspCfTunnel.Config

open EspCfTunnel

/-- `CF_CONFIG_MESSAGE_MAX`. -/
abbrev messageMax : Nat := 8192

/-- `CF_HOSTNAME_MAX`. -/
abbrev hostnameMax : Nat := 253

/-- `CF_LOCAL_SERVICE_MAX`. -/
abbrev serviceMax : Nat := 63

/-- The string in an array of characters: the bytes before the first NUL. -/
def cString (array : Bytes) : Bytes := array.takeWhile (· ≠ 0)

/-- `cf_cJSON`. An infinite number is one above all others. -/
inductive Json
  | null
  | bool (value : Bool)
  | number (value : Rat)
  | string (value : Bytes)
  | array (items : List Json)
  | object (members : List (Bytes × Json))

/-- Why there is no tree. -/
inductive Failure
  | allocation | malformed
  deriving DecidableEq, Repr

/-- `cf_json_failure`. -/
def jsonFailure : Failure → Result
  | .allocation => .memory
  | .malformed => .format

/-- `cf_json_parse`. -/
abbrev Parser := Bytes → Except Failure Json

/-- `cf_remote_config`. -/
structure Remote where
  valid : Bool
  version : Int
  hostname : Bytes
  service : Bytes
  deriving DecidableEq, Repr

/-- `cf_config_init`. -/
def configInit : Remote := ⟨false, -1, [], []⟩

/-! ## JSON helpers -/

/-- The names of the members are allowed, and no name comes twice. -/
def keysOf (allowed : List Bytes) : List (Bytes × Json) → Bool
  | [] => true
  | (name, _) :: rest => allowed.contains name && !rest.any (·.1 = name) && keysOf allowed rest

/-- `cf_json_keys`. -/
def jsonKeys (item : Option Json) (allowed : List Bytes) : Bool :=
  match item with
  | some (.object members) => keysOf allowed members
  | _ => false

/-- `cf_cJSON_GetObjectItemCaseSensitive`. -/
def getItem (item : Option Json) (name : Bytes) : Option Json :=
  match item with
  | some (.object members) => (members.find? (·.1 = name)).map Prod.snd
  | _ => none

/-- `empty_object`. -/
def emptyObject : Option Json → Bool
  | none => true
  | some (.object []) => true
  | _ => false

/-- `same_string`. -/
def sameString (item : Option Json) (expected : Bytes) : Bool :=
  match item with
  | some (.string value) => value = expected
  | _ => false

/-- `cf_cJSON_IsFalse`. -/
def isFalse : Option Json → Bool
  | some (.bool false) => true
  | _ => false

/-- The version of an update, if it is a number that an `int32_t` holds and not negative. -/
def versionOf : Option Json → Option Int
  | some (.number value) =>
    if 0 ≤ value ∧ value ≤ 2147483647 ∧ value.den = 1 then some value.num else none
  | _ => none

/-- The items of an array of two. -/
def twoItems : Option Json → Option (Json × Json)
  | some (.array [first, last]) => some (first, last)
  | _ => none

/-! ## The policy -/

/-- A character of a host name. -/
def hostChar (c : UInt8) : Bool := (97 ≤ c ∧ c ≤ 122) ∨ (48 ≤ c ∧ c ≤ 57) ∨ c = 45

/-- The loop of `hostname_valid` after the character `previous`, in a label of `label` characters
so far; the result is the length of the last label. -/
def hostLabels (previous : UInt8) (label : Nat) : Bytes → Option Nat
  | [] => some label
  | c :: rest =>
    if c = 46 then
      if label = 0 ∨ previous = 45 ∨ rest.head? = some 45 then none else hostLabels c 0 rest
    else if !hostChar c then none
    else if label + 1 > 63 then none
    else hostLabels c (label + 1) rest

/-- `hostname_valid`. -/
def hostnameValid (s : Bytes) : Bool :=
  s ≠ [] ∧ s.length ≤ hostnameMax ∧ s.head? ≠ some 45 ∧ s.getLast? ≠ some 45 ∧
    ((hostLabels 0 0 s).any (· ≠ 0))

/-- What `cf_config_apply_ex` checks of an update's tree: the reason and the result of the first
check that fails, or the version. -/
def checkUpdate (root : Json) (hostname service : Bytes) : Except (String × Result) Int :=
  if !jsonKeys (some root) [text "version", text "config"] then
    .error ("Unknown or duplicate fields in the configuration update envelope.", .unsupported)
  else
    let config := getItem (some root) (text "config")
    match versionOf (getItem (some root) (text "version")) with
    | none => .error ("Invalid configuration version.", .format)
    | some version =>
      if !jsonKeys config [text "ingress", text "originRequest", text "warp-routing"] then
        .error ("Unknown or duplicate fields in the tunnel configuration.", .unsupported)
      else if !emptyObject (getItem config (text "originRequest")) then
        .error ("Global originRequest options are unsupported.", .unsupported)
      else
        let warp := getItem config (text "warp-routing")
        if warp.isSome ∧ (!jsonKeys warp [text "enabled"] ∨
            !isFalse (getItem warp (text "enabled"))) then
          .error ("WARP routing options are unsupported; only enabled=false is accepted.",
            .unsupported)
        else match twoItems (getItem config (text "ingress")) with
          | none =>
            .error ("Expected one hostname rule followed by one 404 fallback rule.", .unsupported)
          | some (first, last) =>
            if !jsonKeys (some first) [text "hostname", text "service", text "originRequest"] then
              .error ("Unknown or duplicate fields in the hostname ingress rule.", .unsupported)
            else if !jsonKeys (some last) [text "service"] then
              .error ("Unknown or duplicate fields in the fallback ingress rule.", .unsupported)
            else if !sameString (getItem (some first) (text "hostname")) hostname then
              .error ("Ingress hostname differs from the hostname saved on this device.",
                .unsupported)
            else if !sameString (getItem (some first) (text "service")) service then
              .error ("Ingress service differs from the permitted local service " ++
                "(http://localhost:80 for ESP Monitor).", .unsupported)
            else if !sameString (getItem (some last) (text "service")) (text "http_status:404") then
              .error ("The final ingress service must be http_status:404.", .unsupported)
            else if !emptyObject (getItem (some first) (text "originRequest")) then
              .error ("Hostname originRequest options are unsupported.", .unsupported)
            else .ok version

/-- What a call leaves: the configuration, the result and the reason. -/
structure Applied where
  config : Remote
  result : Result
  reason : String

/-- A fully validated candidate is published if it is newer. -/
def publish (state : Remote) (hostname service : Bytes) (version : Int) : Remote :=
  if !state.valid ∨ version > state.version then ⟨true, version, hostname, service⟩ else state

/-- `cf_config_apply_ex`. -/
def configApply (parse : Parser) (state : Remote) (update hostname service : Bytes) : Applied :=
  if !hostnameValid hostname ∨ service = [] ∨ service.length > serviceMax then
    ⟨state, .argument, "Invalid local ingress policy."⟩
  else if update = [] ∨ update.length > messageMax then
    ⟨state, .limit, "Ingress update exceeds the message limit."⟩
  else match parse update with
    | .error failure => ⟨state, jsonFailure failure, "Invalid ingress JSON or JSON memory limit reached."⟩
    | .ok root =>
      match checkUpdate root hostname service with
      | .error (reason, rc) => ⟨state, rc, reason⟩
      | .ok version =>
        ⟨publish state hostname service version, .ok, "Remote ingress configuration applied."⟩

/-- An update that is rejected leaves the configuration as it is; one that is accepted has passed
every check. -/
inductive Applies (parse : Parser) (state : Remote) (update hostname service : Bytes) :
    Applied → Prop
  | rejected {rc : Result} {reason : String} : rc ≠ .ok →
      Applies parse state update hostname service ⟨state, rc, reason⟩
  | accepted {root : Json} {version : Int} {reason : String} : parse update = .ok root →
      checkUpdate root hostname service = .ok version →
      Applies parse state update hostname service
        ⟨publish state hostname service version, .ok, reason⟩

theorem checkUpdate_error {root : Json} {hostname service : Bytes} {reason : String} {rc : Result}
    (h : checkUpdate root hostname service = .error (reason, rc)) : rc ≠ .ok := by
  rintro rfl
  unfold checkUpdate at h
  dsimp only at h
  repeat' split at h
  all_goals cases h

theorem configApply_applies (parse : Parser) (state : Remote) (update hostname service : Bytes) :
    Applies parse state update hostname service
      (configApply parse state update hostname service) := by
  unfold configApply
  split
  · exact .rejected (by decide)
  split
  · exact .rejected (by decide)
  split
  · next failure _ => exact .rejected (by cases failure <;> decide)
  next root hroot =>
  split
  · next hcheck => exact .rejected (checkUpdate_error hcheck)
  · next hcheck => exact .accepted hroot hcheck

/-- The text of `cf_config_response`. -/
def responseText (config : Remote) (result : Result) : String :=
  "\x7b\"lastAppliedVersion\":" ++ toString (if config.valid then config.version else -1) ++
    (if result = .ok then ",\"err\":null" else ",\"err\":\x7b\x7d") ++ "\x7d"

/-- `cf_config_response`: nothing is written if the text and its NUL do not fit. -/
def configResponse (config : Remote) (result : Result) (cap : Nat) : Except Result Bytes :=
  if cap = 0 then .error .argument
  else if (text (responseText config result)).length ≥ cap then .error .limit
  else .ok (text (responseText config result))

end EspCfTunnel.Config
