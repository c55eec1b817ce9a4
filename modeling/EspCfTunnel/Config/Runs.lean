import EspCfTunnel.Config
import Mathlib.Data.Nat.Digits.Defs
import Mathlib.Order.Bounds.Basic

/-!
# Runs of remote configuration

Any updates, applied in any order under one policy. The parser may fail at one call and not at
another, so each call has its own. The configuration that a run leaves is a function of the set of
versions that were accepted: their greatest one, under the policy.
-/

namespace EspCfTunnel.Config

open EspCfTunnel

/-- A call of `cf_config_apply_ex`, with the configuration before it and what it leaves. -/
structure Entry where
  parse : Parser
  update : Bytes
  before : Remote
  applied : Applied

/-- Runs from `cf_config_init` under a policy, with their calls, the last one first. -/
inductive Run (hostname service : Bytes) : List Entry → Remote → Prop
  | init : Run hostname service [] configInit
  | apply {log : List Entry} {r : Remote} (parse : Parser) (update : Bytes) : Run hostname service log r →
      Run hostname service (⟨parse, update, r, configApply parse r update hostname service⟩ :: log)
        (configApply parse r update hostname service).config

/-- The version field of an update. -/
def updateVersion (parse : Parser) (update : Bytes) : Option Int :=
  match parse update with
  | .ok root => versionOf (getItem (some root) (text "version"))
  | .error _ => none

/-- The version of an update that was accepted. -/
def Entry.version (e : Entry) : Option Int :=
  if e.applied.result = .ok then updateVersion e.parse e.update else none

/-- The versions of the updates that were accepted. -/
def accepted (log : List Entry) : List Int := log.filterMap Entry.version

theorem checkUpdate_version {root : Json} {hostname service : Bytes} {version : Int}
    (h : checkUpdate root hostname service = .ok version) :
    versionOf (getItem (some root) (text "version")) = some version := by
  unfold checkUpdate at h
  dsimp only at h
  repeat' split at h
  all_goals cases h
  assumption

theorem versionOf_bounds {item : Option Json} {version : Int} (h : versionOf item = some version) :
    0 ≤ version ∧ version ≤ 2147483647 := by
  unfold versionOf at h
  split at h
  · split at h
    · next value hvalue =>
      obtain rfl := Option.some.inj h
      obtain ⟨hlow, hhigh, hden⟩ := hvalue
      have heq : (value.num : Rat) = value := Rat.coe_int_num_of_den_eq_one hden
      rw [← heq] at hlow hhigh
      exact ⟨by exact_mod_cast hlow, by exact_mod_cast hhigh⟩
    · cases h
  · cases h

/-- What the calls so far say about a configuration. -/
structure Told (hostname service : Bytes) (log : List Entry) (r : Remote) : Prop where
  valid : r.valid = true → r.hostname = hostname ∧ r.service = service ∧
    IsGreatest {v | v ∈ accepted log} r.version
  invalid : r.valid = false → r = configInit ∧ accepted log = []
  accepts : ∀ e ∈ log, e.applied.result = .ok → ∃ v, e.version = some v
  unchanged : ∀ e ∈ log, e.applied.result ≠ .ok → e.applied.config = e.before

section
variable {hostname service : Bytes} {log : List Entry} {r : Remote}

theorem Told.reject (h : Told hostname service log r) {e : Entry} (hrc : e.applied.result ≠ .ok)
    (heq : e.applied.config = e.before) : Told hostname service (e :: log) r := by
  have haccepted : accepted (e :: log) = accepted log :=
    List.filterMap_cons_none (if_neg hrc)
  refine ⟨?_, ?_, ?_, ?_⟩
  · rw [haccepted]
    exact h.valid
  · rw [haccepted]
    exact h.invalid
  · rintro e' hmem hok
    rcases List.mem_cons.1 hmem with rfl | hmem
    · exact absurd hok hrc
    · exact h.accepts e' hmem hok
  · rintro e' hmem hno
    rcases List.mem_cons.1 hmem with rfl | hmem
    · exact heq
    · exact h.unchanged e' hmem hno

/-- An accepted version is published exactly if it is the greatest so far. -/
theorem Told.accept (h : Told hostname service log r) {e : Entry} {v : Int}
    (hok : e.applied.result = .ok) (hv : e.version = some v) :
    Told hostname service (e :: log) (publish r hostname service v) := by
  have haccepted : accepted (e :: log) = v :: accepted log := List.filterMap_cons_some hv
  have haccepts : ∀ e' ∈ e :: log, e'.applied.result = .ok → ∃ v, e'.version = some v := by
    rintro e' hmem hok'
    rcases List.mem_cons.1 hmem with rfl | hmem
    · exact ⟨v, hv⟩
    · exact h.accepts e' hmem hok'
  have hunchanged : ∀ e' ∈ e :: log, e'.applied.result ≠ .ok → e'.applied.config = e'.before := by
    rintro e' hmem hno
    rcases List.mem_cons.1 hmem with rfl | hmem
    · exact absurd hok hno
    · exact h.unchanged e' hmem hno
  unfold publish
  split
  · next hnew =>
    refine ⟨fun _ => ⟨rfl, rfl, ?_, ?_⟩, nofun, haccepts, hunchanged⟩
    · rw [haccepted]
      exact List.mem_cons_self
    · rw [haccepted]
      rintro w hw
      rcases List.mem_cons.1 hw with rfl | hw
      · exact le_rfl
      · cases hvalid : r.valid with
        | false =>
          rw [(h.invalid hvalid).2] at hw
          cases hw
        | true =>
          have hgreater : v > r.version := by simpa [hvalid] using hnew
          exact ((h.valid hvalid).2.2.2 hw).trans hgreater.le
  · next hold =>
    have hvalid : r.valid = true ∧ v ≤ r.version := by simpa using hold
    obtain ⟨hhostname, hservice, hmem, hbound⟩ := h.valid hvalid.1
    refine ⟨fun _ => ⟨hhostname, hservice, ?_, ?_⟩, fun hno => ?_, haccepts, hunchanged⟩
    · rw [haccepted]
      exact List.mem_cons_of_mem _ hmem
    · rw [haccepted]
      rintro w hw
      rcases List.mem_cons.1 hw with rfl | hw
      · exact hvalid.2
      · exact hbound hw
    · exact absurd (hvalid.1.symm.trans hno) nofun

theorem Run.told (h : Run hostname service log r) : Told hostname service log r := by
  induction h with
  | init => exact ⟨nofun, fun _ => ⟨rfl, rfl⟩, nofun, nofun⟩
  | @apply log r parse update _ ih =>
    have happlies := configApply_applies parse r update hostname service
    generalize happlied : configApply parse r update hostname service = applied at happlies
    cases happlies with
    | rejected hrc => exact ih.reject hrc rfl
    | @accepted root version reason hroot hcheck =>
      refine ih.accept rfl ?_
      rw [Entry.version, if_pos rfl, updateVersion]
      dsimp only
      rw [hroot]
      exact checkUpdate_version hcheck

/-- Every version that is accepted fits an `int32_t`. -/
theorem accepted_bounds {v : Int} (h : v ∈ accepted log) : 0 ≤ v ∧ v ≤ 2147483647 := by
  obtain ⟨e, -, hv⟩ := List.mem_filterMap.1 h
  unfold Entry.version updateVersion at hv
  split at hv
  · split at hv
    · exact versionOf_bounds hv
    · cases hv
  · cases hv

end

/-! ## The response -/

/-- The version that a response reports. -/
def reported (r : Remote) : Int := if r.valid then r.version else -1

theorem length_text (s : String) : (text s).length = s.length := by
  rw [text, List.length_map, String.length_toList]

theorem length_toString_le {v : Int} (hlow : -1 ≤ v) (hhigh : v ≤ 2147483647) :
    (toString v).length ≤ 10 := by
  cases v with
  | ofNat n =>
    have hn : n < 10 ^ 10 := by
      have : (n : Int) ≤ 2147483647 := hhigh
      omega
    exact (Nat.length_repr_le_iff (by simp)).2 hn
  | negSucc n =>
    obtain rfl : n = 0 := by omega
    decide

/-- A buffer of 64 characters holds every response. -/
theorem configResponse_ok {r : Remote} (hlow : -1 ≤ reported r) (hhigh : reported r ≤ 2147483647)
    (rc : Result) {cap : Nat} (hcap : 64 ≤ cap) :
    configResponse r rc cap = .ok (text (responseText r rc)) := by
  have hversion := length_toString_le hlow hhigh
  have herr : (if rc = .ok then ",\"err\":null" else ",\"err\":\x7b\x7d").length ≤ 12 := by
    split <;> decide
  have hopen : "\x7b\"lastAppliedVersion\":".length = 22 := by decide
  have hclose : "\x7d".length = 1 := by decide
  have hsum : ∀ a b c d : String,
      (a ++ b ++ c ++ d).length = a.length + b.length + c.length + d.length := by
    intro a b c d
    simp only [String.length_append]
  have hlength : (text (responseText r rc)).length ≤ 22 + 10 + 12 + 1 := by
    refine ((length_text _).trans (hsum _ _ _ _)).trans_le ?_
    rw [hopen, hclose]
    exact Nat.add_le_add (Nat.add_le_add (Nat.add_le_add_left hversion 22) herr) le_rfl
  rw [configResponse, if_neg (by omega), if_neg (by omega)]

/-- Remote configuration over whole runs: only an accepted update changes the configuration, which is
the greatest accepted version under the policy, whatever the order and whatever was rejected; and
that is what a response reports. -/
theorem config_runs {hostname service : Bytes} {log : List Entry} {r : Remote}
    (h : Run hostname service log r) :
    (∀ e ∈ log, e.applied.result ≠ .ok → e.applied.config = e.before) ∧
      (r.valid = true ↔ ∃ e ∈ log, e.applied.result = .ok) ∧
      (r.valid = true → r.hostname = hostname ∧ r.service = service ∧
        IsGreatest {v | v ∈ accepted log} r.version) ∧
      (∀ log' r', Run hostname service log' r' → (∀ v, v ∈ accepted log' ↔ v ∈ accepted log) → r' = r) ∧
      ∀ rc cap, 64 ≤ cap → ∃ v : Int, (r.valid = true → IsGreatest {v | v ∈ accepted log} v) ∧
        (r.valid = false → v = -1) ∧
        configResponse r rc cap = .ok (text ("\x7b\"lastAppliedVersion\":" ++ toString v ++
          (if rc = .ok then ",\"err\":null" else ",\"err\":\x7b\x7d") ++ "\x7d")) := by
  have htold := h.told
  refine ⟨htold.unchanged, ⟨fun hvalid => ?_, ?_⟩, htold.valid, fun log' r' h' hsame => ?_,
    fun rc cap hcap => ⟨reported r, fun hvalid => ?_, fun hno => ?_, ?_⟩⟩
  · obtain ⟨e, hmem, hv⟩ := List.mem_filterMap.1 (htold.valid hvalid).2.2.1
    refine ⟨e, hmem, ?_⟩
    by_contra hrc
    rw [Entry.version, if_neg hrc] at hv
    cases hv
  · rintro ⟨e, hmem, hok⟩
    obtain ⟨v, hv⟩ := htold.accepts e hmem hok
    by_contra hno
    have hnone := (htold.invalid (by simpa using hno)).2
    have hsome : v ∈ accepted log := List.mem_filterMap.2 ⟨e, hmem, hv⟩
    rw [hnone] at hsome
    cases hsome
  · have htold' := h'.told
    by_cases hvalid : r.valid = true
    · obtain ⟨hhostname, hservice, hgreatest⟩ := htold.valid hvalid
      have hvalid' : r'.valid = true := by
        by_contra hno
        have hmem := (hsame r.version).2 hgreatest.1
        rw [(htold'.invalid (by simpa using hno)).2] at hmem
        cases hmem
      obtain ⟨hhostname', hservice', hgreatest'⟩ := htold'.valid hvalid'
      have hversion : r'.version = r.version :=
        le_antisymm (hgreatest.2 ((hsame _).1 hgreatest'.1)) (hgreatest'.2 ((hsame _).2 hgreatest.1))
      cases r
      cases r'
      simp_all
    · obtain ⟨rfl, hnone⟩ := htold.invalid (by simpa using hvalid)
      have hno : r'.valid = false := by
        by_contra hyes
        have hmem := (hsame r'.version).1 (htold'.valid (by simpa using hyes)).2.2.1
        rw [hnone] at hmem
        cases hmem
      exact (htold'.invalid hno).1
  · rw [reported, if_pos hvalid]
    exact (htold.valid hvalid).2.2
  · rw [reported, hno]
    rfl
  · have hbounds : -1 ≤ reported r ∧ reported r ≤ 2147483647 := by
      unfold reported
      split
      · next hvalid =>
        obtain ⟨hlow, hhigh⟩ := accepted_bounds (htold.valid hvalid).2.2.1
        exact ⟨by omega, hhigh⟩
      · decide
    exact configResponse_ok hbounds.1 hbounds.2 rc hcap

/-- An update of a version, for the hostname `a.b`. -/
def sampleDocument (version : Rat) : Json :=
  .object [(text "version", .number version), (text "config", .object [(text "ingress", .array [
    .object [(text "hostname", .string (text "a.b")), (text "service", .string (text "http://s"))],
    .object [(text "service", .string (text "http_status:404"))]])])]

/-- A stale update after a newer one. -/
theorem config_runs_stale :
    ∃ log r, Run (text "a.b") (text "http://s") log r ∧ r = ⟨true, 7, text "a.b", text "http://s"⟩ ∧
      IsGreatest {v | v ∈ accepted log} r.version := by
  have hrun : Run (text "a.b") (text "http://s") _ _ :=
    .apply (fun _ => .ok (sampleDocument 3)) [32] (.apply (fun _ => .ok (sampleDocument 7)) [32] .init)
  refine ⟨_, _, hrun, by decide +kernel, ((config_runs hrun).2.2.1 (by decide +kernel)).2.2⟩

end EspCfTunnel.Config
