import EspCfTunnel.Config.Runs
import Mathlib.Data.List.Nodup

/-!
# The updates that are accepted

An update is accepted exactly if its tree has the shape `Acceptable`. The checks of
`cf_config_apply_ex` look members up by their first match; since every object they look into has been
checked for duplicates, a member is found exactly if it is there (`getItem_iff`).
-/

namespace EspCfTunnel.Config

open EspCfTunnel

/-! ## Objects -/

/-- The members of an object. -/
abbrev Members := List (Bytes × Json)

/-- The names are allowed, and none comes twice. -/
def Only (allowed : List Bytes) (members : Members) : Prop :=
  (∀ m ∈ members, m.1 ∈ allowed) ∧ (members.map Prod.fst).Nodup

/-- The member is absent or an empty object. -/
def AbsentOrEmpty (members : Members) (name : Bytes) : Prop :=
  ∀ value, (name, value) ∈ members → value = .object []

section
variable {allowed : List Bytes} {members : Members} {name : Bytes}

theorem keysOf_iff : keysOf allowed members = true ↔ Only allowed members := by
  induction members with
  | nil => simp [keysOf, Only]
  | cons m members ih =>
    have hfresh : (!members.any (·.1 = m.1)) = true ↔ m.1 ∉ members.map Prod.fst := by
      rw [Bool.not_eq_true', ← Bool.not_eq_true, List.any_eq_true, List.mem_map]
      simp only [decide_eq_true_eq]
    rw [keysOf, Bool.and_eq_true, Bool.and_eq_true, ih, hfresh, List.contains_iff_mem, Only, Only,
      List.forall_mem_cons, List.map_cons, List.nodup_cons]
    tauto

/-- The order of the members does not matter. -/
theorem Only.perm {members' : Members} (h : members.Perm members')
    (hall : Only allowed members') : Only allowed members :=
  ⟨fun m hm => hall.1 m (h.mem_iff.1 hm), (h.map _).nodup_iff.2 hall.2⟩

/-- A value that `cf_json_keys` passes is an object. -/
theorem jsonKeys_iff {item : Option Json} :
    jsonKeys item allowed = true ↔ ∃ members, item = some (.object members) ∧ Only allowed members := by
  unfold jsonKeys
  split
  · next members =>
    rw [keysOf_iff]
    constructor
    · intro h
      exact ⟨members, rfl, h⟩
    · rintro ⟨members', heq, h⟩
      cases heq
      exact h
  · next hno =>
    constructor
    · intro h
      cases h
    · rintro ⟨members, rfl, -⟩
      exact absurd rfl (hno members)

/-- A member is found if it is there. -/
theorem getItem_iff (h : (members.map Prod.fst).Nodup) {value : Json} :
    getItem (some (.object members)) name = some value ↔ (name, value) ∈ members := by
  change (members.find? (·.1 = name)).map Prod.snd = some value ↔ _
  induction members with
  | nil => simp
  | cons m members ih =>
    obtain ⟨key, v⟩ := m
    rw [List.map_cons, List.nodup_cons] at h
    rw [List.find?_cons, List.mem_cons]
    by_cases hkey : key = name
    · subst hkey
      have hnot : (key, value) ∉ members := fun hm => h.1 (List.mem_map.2 ⟨_, hm, rfl⟩)
      simp [hnot, eq_comm]
    · rw [decide_eq_false hkey]
      simp only [ih h.2, Prod.mk.injEq, Ne.symm hkey, false_and, false_or]

theorem getItem_none (h : (members.map Prod.fst).Nodup) :
    getItem (some (.object members)) name = none ↔ ∀ value, (name, value) ∉ members := by
  rw [Option.eq_none_iff_forall_ne_some]
  exact forall_congr' fun value => not_congr (getItem_iff h)

theorem emptyObject_iff (h : (members.map Prod.fst).Nodup) :
    emptyObject (getItem (some (.object members)) name) = true ↔ AbsentOrEmpty members name := by
  cases hitem : getItem (some (.object members)) name with
  | none =>
    have hnone := (getItem_none h).1 hitem
    exact ⟨fun _ value hm => absurd hm (hnone value), fun _ => rfl⟩
  | some item =>
    have hmem := (getItem_iff h).1 hitem
    constructor
    · intro hempty value hm
      have hvalue : item = value := by
        have := (getItem_iff h).2 hm
        rw [hitem] at this
        exact Option.some.inj this
      subst hvalue
      unfold emptyObject at hempty
      split at hempty
      · next heq => cases heq
      · next heq => exact Option.some.inj heq
      · cases hempty
    · intro hall
      rw [hall item hmem]
      rfl

theorem sameString_iff (h : (members.map Prod.fst).Nodup) {expected : Bytes} :
    sameString (getItem (some (.object members)) name) expected = true ↔
      (name, .string expected) ∈ members := by
  rw [← getItem_iff h]
  cases getItem (some (.object members)) name with
  | none => simp [sameString]
  | some item => cases item <;> simp [sameString]

end

/-! ## Updates -/

/-- The first rule: the hostname and the service of the policy. -/
def HostnameRule (rule : Json) (hostname service : Bytes) : Prop :=
  ∃ members, rule = .object members ∧
    Only [text "hostname", text "service", text "originRequest"] members ∧
    (text "hostname", .string hostname) ∈ members ∧ (text "service", .string service) ∈ members ∧
    AbsentOrEmpty members (text "originRequest")

/-- The last rule. -/
def FallbackRule (rule : Json) : Prop :=
  rule = .object [(text "service", .string (text "http_status:404"))]

/-- The configuration of a tunnel. -/
def TunnelConfig (config : Json) (hostname service : Bytes) : Prop :=
  ∃ members, config = .object members ∧
    Only [text "ingress", text "originRequest", text "warp-routing"] members ∧
    AbsentOrEmpty members (text "originRequest") ∧
    (∀ warp, (text "warp-routing", warp) ∈ members → warp = .object [(text "enabled", .bool false)]) ∧
    ∃ first last, (text "ingress", .array [first, last]) ∈ members ∧
      HostnameRule first hostname service ∧ FallbackRule last

/-- An update that is accepted. -/
def Acceptable (root : Json) (hostname service : Bytes) : Prop :=
  ∃ members, root = .object members ∧ Only [text "version", text "config"] members ∧
    (∃ version : Nat, (text "version", .number version) ∈ members ∧ version ≤ 2 ^ 31 - 1) ∧
    ∃ config, (text "config", config) ∈ members ∧ TunnelConfig config hostname service

/-- A version is an integer that an `int32_t` holds, and not negative. -/
theorem versionOf_isSome {item : Option Json} :
    (versionOf item).isSome = true ↔ ∃ n : Nat, item = some (.number n) ∧ n ≤ 2 ^ 31 - 1 := by
  cases item with
  | none => simp [versionOf]
  | some json =>
    cases json with
    | number value =>
      have hsome : (versionOf (some (.number value))).isSome = true ↔
          0 ≤ value ∧ value ≤ 2147483647 ∧ value.den = 1 := by
        unfold versionOf
        split <;> simp_all
      rw [hsome]
      constructor
      · rintro ⟨hlow, hhigh, hden⟩
        have hnum : (value.num : Rat) = value := Rat.den_eq_one_iff value |>.1 hden
        obtain ⟨n, hn⟩ := Int.eq_ofNat_of_zero_le (Rat.num_nonneg.2 hlow)
        refine ⟨n, ?_, ?_⟩
        · rw [← hnum, hn]
          rfl
        · rw [← hnum, hn] at hhigh
          have hle : (n : Int) ≤ 2147483647 := Rat.intCast_le_intCast.1 hhigh
          omega
      · rintro ⟨n, heq, hn⟩
        cases heq
        refine ⟨Rat.natCast_nonneg, ?_, Rat.den_natCast n⟩
        have hle : (n : Int) ≤ 2147483647 := by omega
        exact Rat.intCast_le_intCast.2 hle
    | _ => simp [versionOf]

/-- The checks of `cf_config_apply_ex`, in one line. -/
theorem checkUpdate_isOk_iff {root : Json} {hostname service : Bytes} :
    (∃ version, checkUpdate root hostname service = .ok version) ↔
      jsonKeys (some root) [text "version", text "config"] = true ∧
      (versionOf (getItem (some root) (text "version"))).isSome = true ∧
      ∃ config, config = getItem (some root) (text "config") ∧
      jsonKeys config [text "ingress", text "originRequest", text "warp-routing"] = true ∧
      emptyObject (getItem config (text "originRequest")) = true ∧
      ¬ ((getItem config (text "warp-routing")).isSome ∧
        (!jsonKeys (getItem config (text "warp-routing")) [text "enabled"] ∨
          !isFalse (getItem (getItem config (text "warp-routing")) (text "enabled")))) ∧
      ∃ first last, twoItems (getItem config (text "ingress")) = some (first, last) ∧
        jsonKeys (some first) [text "hostname", text "service", text "originRequest"] = true ∧
        jsonKeys (some last) [text "service"] = true ∧
        sameString (getItem (some first) (text "hostname")) hostname = true ∧
        sameString (getItem (some first) (text "service")) service = true ∧
        sameString (getItem (some last) (text "service")) (text "http_status:404") = true ∧
        emptyObject (getItem (some first) (text "originRequest")) = true := by
  unfold checkUpdate
  generalize getItem (some root) (text "config") = config
  generalize versionOf (getItem (some root) (text "version")) = version
  constructor
  · rintro ⟨v, h⟩
    -- One check after the other; a check that fails is no acceptance.
    split at h
    · cases h
    next hkeys =>
    dsimp only at h
    split at h
    · cases h
    split at h
    · cases h
    next hconfig =>
    split at h
    · cases h
    next horigin =>
    split at h
    · cases h
    next hwarp =>
    split at h
    · cases h
    next first last hitems =>
    split at h
    · cases h
    next hfirst =>
    split at h
    · cases h
    next hlast =>
    split at h
    · cases h
    next hhostname =>
    split at h
    · cases h
    next hservice =>
    split at h
    · cases h
    next hfallback =>
    split at h
    · cases h
    next hrule =>
    simp only [Bool.not_eq_true', Bool.not_eq_false] at hkeys hconfig horigin hfirst hlast hhostname hservice hfallback hrule
    exact ⟨hkeys, rfl, config, rfl, hconfig, horigin, hwarp, first, last, hitems, hfirst, hlast,
      hhostname, hservice, hfallback, hrule⟩
  · rintro ⟨hkeys, hversion, config, rfl, hconfig, horigin, hwarp, first, last, hitems, hfirst, hlast,
      hhostname, hservice, hfallback, hrule⟩
    obtain ⟨v, rfl⟩ := Option.isSome_iff_exists.1 hversion
    refine ⟨v, ?_⟩
    dsimp only
    rw [hkeys, hconfig, horigin, if_neg hwarp, hitems]
    dsimp only
    rw [hfirst, hlast, hhostname, hservice, hfallback, hrule]
    rfl

/-- The items of an array of two. -/
theorem twoItems_iff {item : Option Json} {first last : Json} :
    twoItems item = some (first, last) ↔ item = some (.array [first, last]) := by
  unfold twoItems
  split
  · simp
  · next hno =>
    constructor
    · intro h
      cases h
    · intro h
      exact absurd h (hno first last)

/-- An object with one allowed name that is there. -/
theorem only_singleton_iff {name : Bytes} {members : Members} {value : Json} :
    Only [name] members ∧ (name, value) ∈ members ↔ members = [(name, value)] := by
  constructor
  · rintro ⟨⟨hallowed, hnodup⟩, hmem⟩
    cases members with
    | nil => cases hmem
    | cons m members =>
      have hm : m.1 = name := by simpa using hallowed m List.mem_cons_self
      have hnone : members = [] := by
        cases members with
        | nil => rfl
        | cons m' members =>
          have hm' : m'.1 = name := by simpa using hallowed m' (by simp)
          simp [hm, hm'] at hnodup
      subst hnone
      rw [List.mem_singleton.1 hmem]
  · rintro rfl
    simp [Only]

/-- The first rule passes its checks exactly if it is one for the policy. -/
theorem hostnameRule_iff {rule : Json} {hostname service : Bytes} :
    (jsonKeys (some rule) [text "hostname", text "service", text "originRequest"] = true ∧
      sameString (getItem (some rule) (text "hostname")) hostname = true ∧
      sameString (getItem (some rule) (text "service")) service = true ∧
      emptyObject (getItem (some rule) (text "originRequest")) = true) ↔
      HostnameRule rule hostname service := by
  rw [jsonKeys_iff]
  constructor
  · rintro ⟨⟨members, heq, honly⟩, hhostname, hservice, horigin⟩
    cases heq
    exact ⟨members, rfl, honly, (sameString_iff honly.2).1 hhostname, (sameString_iff honly.2).1 hservice,
      (emptyObject_iff honly.2).1 horigin⟩
  · rintro ⟨members, rfl, honly, hhostname, hservice, horigin⟩
    exact ⟨⟨members, rfl, honly⟩, (sameString_iff honly.2).2 hhostname, (sameString_iff honly.2).2 hservice,
      (emptyObject_iff honly.2).2 horigin⟩

theorem fallbackRule_iff {rule : Json} :
    (jsonKeys (some rule) [text "service"] = true ∧
      sameString (getItem (some rule) (text "service")) (text "http_status:404") = true) ↔
      FallbackRule rule := by
  rw [jsonKeys_iff, FallbackRule]
  constructor
  · rintro ⟨⟨members, heq, honly⟩, hservice⟩
    cases heq
    rw [only_singleton_iff.1 ⟨honly, (sameString_iff honly.2).1 hservice⟩]
  · rintro rfl
    obtain ⟨honly, hmem⟩ := only_singleton_iff.2 (rfl :
      [(text "service", Json.string (text "http_status:404"))] = [(text "service", _)])
    exact ⟨⟨_, rfl, honly⟩, (sameString_iff honly.2).2 hmem⟩

/-- WARP routing is absent, or switched off. -/
theorem warp_iff {members : Members} (h : (members.map Prod.fst).Nodup) :
    ¬ ((getItem (some (.object members)) (text "warp-routing")).isSome ∧
      (!jsonKeys (getItem (some (.object members)) (text "warp-routing")) [text "enabled"] ∨
        !isFalse (getItem (getItem (some (.object members)) (text "warp-routing")) (text "enabled")))) ↔
      ∀ warp, (text "warp-routing", warp) ∈ members → warp = .object [(text "enabled", .bool false)] := by
  have hwarp : ∀ warp : Json, (jsonKeys (some warp) [text "enabled"] = true ∧
      isFalse (getItem (some warp) (text "enabled")) = true) ↔
      warp = .object [(text "enabled", .bool false)] := by
    intro warp
    rw [jsonKeys_iff]
    constructor
    · rintro ⟨⟨enabled, heq, honly⟩, hfalse⟩
      cases heq
      have hitem : getItem (some (.object enabled)) (text "enabled") = some (.bool false) := by
        unfold isFalse at hfalse
        split at hfalse
        · next heq => exact heq
        · cases hfalse
      rw [only_singleton_iff.1 ⟨honly, (getItem_iff honly.2).1 hitem⟩]
    · rintro rfl
      obtain ⟨honly, hmem⟩ := only_singleton_iff.2 (rfl :
        [(text "enabled", Json.bool false)] = [(text "enabled", _)])
      exact ⟨⟨_, rfl, honly⟩, by rw [(getItem_iff honly.2).2 hmem]; rfl⟩
  cases hitem : getItem (some (.object members)) (text "warp-routing") with
  | none =>
    refine iff_of_true (fun hsome => by cases hsome.1) fun warp hm => ?_
    exact absurd hm ((getItem_none h).1 hitem warp)
  | some item =>
    have hmem := (getItem_iff h).1 hitem
    constructor
    · intro hchecks warp hm
      obtain rfl : item = warp := by
        have := (getItem_iff h).2 hm
        rw [hitem] at this
        exact Option.some.inj this
      refine (hwarp item).1 ?_
      simpa using hchecks
    · intro hall
      have := (hwarp item).2 (hall item hmem)
      simpa using this

/-- The checks are those of the shape. -/
theorem checkUpdate_iff {root : Json} {hostname service : Bytes} :
    (∃ version, checkUpdate root hostname service = .ok version) ↔ Acceptable root hostname service := by
  rw [checkUpdate_isOk_iff, jsonKeys_iff, versionOf_isSome]
  constructor
  · rintro ⟨⟨top, heq, honly⟩, ⟨n, hversion, hn⟩, config, hconfig, hkeys, horigin, hwarp, first, last, hitems,
      hfirst, hlast, hhostname, hservice, hfallback, hrule⟩
    cases heq
    obtain ⟨members, rfl, honly'⟩ := jsonKeys_iff.1 hkeys
    refine ⟨top, rfl, honly, ⟨n, (getItem_iff honly.2).1 hversion, hn⟩, .object members,
      (getItem_iff honly.2).1 hconfig.symm, members, rfl, honly', (emptyObject_iff honly'.2).1 horigin,
      (warp_iff honly'.2).1 hwarp, first, last, (getItem_iff honly'.2).1 (twoItems_iff.1 hitems), ?_, ?_⟩
    · exact hostnameRule_iff.1 ⟨hfirst, hhostname, hservice, hrule⟩
    · exact fallbackRule_iff.1 ⟨hlast, hfallback⟩
  · rintro ⟨top, rfl, honly, ⟨n, hversion, hn⟩, _, hconfig, members, rfl, honly', horigin, hwarp, first,
      last, hitems, hrule, hfallback⟩
    obtain ⟨hfirst, hhostname, hservice, hrule⟩ := hostnameRule_iff.2 hrule
    obtain ⟨hlast, hfallback⟩ := fallbackRule_iff.2 hfallback
    exact ⟨⟨top, rfl, honly⟩, ⟨n, (getItem_iff honly.2).2 hversion, hn⟩, some (.object members),
      ((getItem_iff honly.2).2 hconfig).symm, jsonKeys_iff.2 ⟨members, rfl, honly'⟩,
      (emptyObject_iff honly'.2).2 horigin, (warp_iff honly'.2).2 hwarp, first, last,
      twoItems_iff.2 ((getItem_iff honly'.2).2 hitems), hfirst, hlast, hhostname, hservice, hfallback, hrule⟩

/-! ## Other keys -/

/-- The objects of an update at the levels that are checked, by whatever members lead to them, and the
names that are allowed there. -/
inductive Level : Json → List Bytes → Members → Prop
  | update {top : Members} : Level (.object top) [text "version", text "config"] top
  | config {top config : Members} : (text "config", .object config) ∈ top →
      Level (.object top) [text "ingress", text "originRequest", text "warp-routing"] config
  | originRequest {top config options : Members} : (text "config", .object config) ∈ top →
      (text "originRequest", .object options) ∈ config → Level (.object top) [] options
  | warpRouting {top config options : Members} : (text "config", .object config) ∈ top →
      (text "warp-routing", .object options) ∈ config → Level (.object top) [text "enabled"] options
  | first {top config rule : Members} {rest : List Json} : (text "config", .object config) ∈ top →
      (text "ingress", .array (.object rule :: rest)) ∈ config →
      Level (.object top) [text "hostname", text "service", text "originRequest"] rule
  | ruleOriginRequest {top config rule options : Members} {rest : List Json} :
      (text "config", .object config) ∈ top → (text "ingress", .array (.object rule :: rest)) ∈ config →
      (text "originRequest", .object options) ∈ rule → Level (.object top) [] options
  | last {top config rule : Members} {first : Json} {rest : List Json} :
      (text "config", .object config) ∈ top →
      (text "ingress", .array (first :: .object rule :: rest)) ∈ config →
      Level (.object top) [text "service"] rule

theorem Only.unique {allowed : List Bytes} {members : Members} (h : Only allowed members) {name : Bytes}
    {value value' : Json} (hv : (name, value) ∈ members) (hv' : (name, value') ∈ members) :
    value = value' := by
  have hsome := (getItem_iff h.2).2 hv
  rw [(getItem_iff h.2).2 hv'] at hsome
  exact (Option.some.inj hsome).symm

/-- An update that is accepted has no other keys at these levels. -/
theorem Acceptable.level {root : Json} {hostname service : Bytes} (h : Acceptable root hostname service)
    {allowed : List Bytes} {members : Members} (hlevel : Level root allowed members) :
    ∀ m ∈ members, m.1 ∈ allowed := by
  obtain ⟨top, hroot, honly, -, config, hconfig, members', hmembers, honly', horigin, hwarp, first, last,
    hingress, ⟨rule, hfirst, hrule, -, -, hruleOrigin⟩, hlast⟩ := h
  -- Whatever member leads down, it is the one that was checked.
  have hsame : ∀ {top' config' : Members}, Json.object top' = root →
      (text "config", .object config') ∈ top' → top' = top ∧ config' = members' := by
    intro top' config' htop hmem
    rw [hroot] at htop
    cases htop
    have hobject := honly.unique hmem hconfig
    rw [hmembers] at hobject
    cases hobject
    exact ⟨rfl, rfl⟩
  cases hlevel with
  | update =>
    cases hroot
    exact honly.1
  | config hc =>
    obtain ⟨-, rfl⟩ := hsame rfl hc
    exact honly'.1
  | originRequest hc ho =>
    obtain ⟨-, rfl⟩ := hsame rfl hc
    cases horigin _ ho
    simp
  | warpRouting hc hw =>
    obtain ⟨-, rfl⟩ := hsame rfl hc
    cases hwarp _ hw
    simp
  | first hc hi =>
    obtain ⟨-, rfl⟩ := hsame rfl hc
    cases honly'.unique hi hingress
    cases hfirst
    exact hrule.1
  | ruleOriginRequest hc hi ho =>
    obtain ⟨-, rfl⟩ := hsame rfl hc
    cases honly'.unique hi hingress
    cases hfirst
    cases hruleOrigin _ ho
    simp
  | last hc hi =>
    obtain ⟨-, rfl⟩ := hsame rfl hc
    cases honly'.unique hi hingress
    cases hlast
    simp

/-- Configuration acceptance is exact: for a policy that passes the argument check and an update of
1 to 8192 bytes, the update is applied if and only if its tree is acceptable; in particular, no update
with any other key at these levels is. -/
theorem config_acceptance_exact {parse : Parser} {state : Remote} {update hostname service : Bytes}
    {root : Json} (hpolicy : hostnameValid hostname = true ∧ service ≠ [] ∧ service.length ≤ serviceMax)
    (hsize : 1 ≤ update.length ∧ update.length ≤ messageMax) (hparse : parse update = .ok root) :
    ((configApply parse state update hostname service).result = .ok ↔ Acceptable root hostname service) ∧
      ∀ allowed members, Level root allowed members → (∃ m ∈ members, m.1 ∉ allowed) →
        (configApply parse state update hostname service).result ≠ .ok := by
  have hiff : (configApply parse state update hostname service).result = .ok ↔
      Acceptable root hostname service := by
    rw [← checkUpdate_iff]
    obtain ⟨hhost, hservice, hlong⟩ := hpolicy
    have hargs : ¬ (!hostnameValid hostname ∨ service = [] ∨ service.length > serviceMax) := by
      simp [hhost, hservice, hlong]
    have hlimit : ¬ (update = [] ∨ update.length > messageMax) := by
      rintro (rfl | hlong)
      · exact absurd hsize.1 (by simp)
      · exact absurd hsize.2 (Nat.not_le.2 hlong)
    rw [configApply, if_neg hargs, if_neg hlimit, hparse]
    dsimp only
    cases hcheck : checkUpdate root hostname service with
    | error failure =>
      obtain ⟨reason, rc⟩ := failure
      exact iff_of_false (checkUpdate_error hcheck) nofun
    | ok version => exact iff_of_true rfl ⟨version, rfl⟩
  refine ⟨hiff, fun allowed members hlevel ⟨m, hm, hother⟩ hok => ?_⟩
  exact hother ((hiff.1 hok).level hlevel m hm)

/-- The text of the sample update with version 3. -/
def sampleText : Bytes :=
  text ("\x7b\"version\":3,\"config\":\x7b\"ingress\":[\x7b\"hostname\":\"a.b\",\"service\":" ++
    "\"http://s\"\x7d,\x7b\"service\":\"http_status:404\"\x7d]\x7d\x7d")

/-- The sample update is applied. -/
theorem config_acceptance_sample :
    (configApply (fun bytes => if bytes = sampleText then .ok (sampleDocument 3) else .error .malformed)
      configInit sampleText (text "a.b") (text "http://s")).result = .ok := by
  have hacceptable : Acceptable (sampleDocument 3) (text "a.b") (text "http://s") :=
    checkUpdate_iff.1 ⟨3, by decide +kernel⟩
  exact (config_acceptance_exact (by decide +kernel) (by decide +kernel) (if_pos rfl)).1.2 hacceptable

end EspCfTunnel.Config
