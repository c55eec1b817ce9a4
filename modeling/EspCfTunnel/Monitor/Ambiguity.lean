import Mathlib.Data.Nat.Digits.Defs
import Mathlib.Tactic.Ring
import EspCfTunnel.Monitor.Remote

/-!
# Ambiguous requests

The fields of a request, raw and serialized, are taken when each name that matters occurs once at most
and its value is in order (`Clean`). What is taken then depends on the values of these names only
(`gathered`), so neither the order of the fields nor how they were sent is seen in the head
(`remoteParse_ok`).
-/

namespace EspCfTunnel.Remote

open EspCfTunnel Headers

variable {hs hs' done : List Header} {f f' : Fields} {out head : RemoteHead} {s : Special} {x : Header}

/-! ## The names of fields -/

/-- The values of the fields with a name, in any case. -/
def values (name : Bytes) (hs : List Header) : List Bytes :=
  (hs.filter fun h => nameIs h.name name).map Header.value

theorem values_append (name : Bytes) (hs hs' : List Header) :
    values name (hs ++ hs') = values name hs ++ values name hs' := by
  rw [values, List.filter_append, List.map_append]
  rfl

theorem values_single (name : Bytes) (x : Header) :
    values name [x] = if nameIs x.name name then [x.value] else [] := by
  cases hx : nameIs x.name name with
  | false => simp [values, hx]
  | true => simp [values, hx]

theorem mem_values {name v : Bytes} : v ∈ values name hs ↔ ∃ h ∈ hs, nameIs h.name name = true ∧ h.value = v := by
  simp [values, and_assoc]

theorem values_perm (h : hs.Perm hs') (name : Bytes) : (values name hs).Perm (values name hs') :=
  (h.filter _).map _

/-- The names are told apart. -/
theorem specialOf_iff {name : Bytes} : specialOf name = some s ↔ nameIs name s.name = true := by
  unfold specialOf nameIs
  generalize name.map _ = low
  simp only [decide_eq_true_eq]
  constructor
  · intro h
    split_ifs at h with h₁ h₂ h₃ h₄
    all_goals
      cases h
      assumption
  · rintro rfl
    cases s <;> decide +kernel

theorem nameIs_ne {name t : Bytes} (h : nameIs name s.name = true) (hne : s.name ≠ t) : nameIs name t = false := by
  simp only [nameIs, decide_eq_true_eq, decide_eq_false_iff_not] at h ⊢
  rw [h]
  exact hne

/-- A field with none of the three names does not make a request unsupported. -/
theorem refused_of_names (htransfer : nameIs x.name (text "transfer-encoding") = false)
    (hencoding : nameIs x.name (text "content-encoding") = false)
    (hproxy : nameIs x.name (text "cf-cloudflared-proxy-src") = false) : refused x = false := by
  simp [refused, htransfer, hencoding, hproxy]

theorem refused_special (h : specialOf x.name = some s) : refused x = false := by
  have hname := specialOf_iff.1 h
  refine refused_of_names (nameIs_ne hname ?_) (nameIs_ne hname ?_) (nameIs_ne hname ?_)
  all_goals cases s <;> decide +kernel

theorem values_mine (h : specialOf x.name = some s) (hs : List Header) :
    values s.name (hs ++ [x]) = values s.name hs ++ [x.value] := by
  rw [values_append, values_single, if_pos (specialOf_iff.1 h)]

theorem values_other (h : specialOf x.name ≠ some s) (hs : List Header) :
    values s.name (hs ++ [x]) = values s.name hs := by
  rw [values_append, values_single, if_neg (mt specialOf_iff.2 h), List.append_nil]

/-! ## The fields that are taken -/

/-- A value that can be stored under the name. -/
def Accepts : Special → Bytes → Prop
  | .authorization, v => v.length < 80 ∧ 0 ∉ v
  | .origin, v => v.length < 272 ∧ 0 ∉ v
  | .contentType, v => v.length < 64 ∧ 0 ∉ v
  | .contentLength, v => ∃ n, lengthOf v = .ok n

/-- No name that matters comes twice, its value is in order, and no field makes the request
unsupported. -/
structure Clean (hs : List Header) : Prop where
  once : ∀ s : Special, (values s.name hs).length ≤ 1
  accepts : ∀ s : Special, ∀ v ∈ values s.name hs, Accepts s v
  permitted : ∀ h ∈ hs, refused h = false

theorem Clean.nil : Clean [] := ⟨fun _ => Nat.zero_le _, nofun, nofun⟩

theorem Clean.of_append (h : Clean (hs ++ hs')) : Clean hs where
  once s := by
    have hall := h.once s
    rw [values_append, List.length_append] at hall
    omega
  accepts s v hv := by
    refine h.accepts s v ?_
    rw [values_append]
    exact List.mem_append_left _ hv
  permitted x hx := h.permitted x (List.mem_append_left _ hx)

/-- The value of the first field with the name. -/
def value (s : Special) (hs : List Header) : Bytes := (values s.name hs).headD []

/-- The length that a value stands for; none is zero. -/
def lengthIn (v : Bytes) : Nat :=
  match lengthOf v with
  | .ok n => n
  | .error _ => 0

/-- What is kept of some fields. -/
def gathered (out : RemoteHead) (seen : Nat) (hs : List Header) : Fields where
  seen := seen
  origin := value .origin hs
  type := value .contentType hs
  out := { out with
    authorization := value .authorization hs
    hasLength := values Special.contentLength.name hs ≠ []
    contentLength := lengthIn (value .contentLength hs) }

/-- The fields `hs` were taken. -/
structure Taken (out : RemoteHead) (hs : List Header) (f : Fields) : Prop where
  seen : ∀ s : Special, f.seen &&& s.bit = 0 ↔ values s.name hs = []
  eq : f = gathered out f.seen hs

/-- The bits of two names do not overlap. -/
theorem bit_and (s s' : Special) : s.bit &&& s'.bit = 0 ↔ s ≠ s' := by
  cases s <;> cases s' <;> decide

theorem copy_ok {v : Bytes} {cap : Nat} (hlen : v.length < cap) (hnul : 0 ∉ v) : copy v cap = .ok v :=
  if_neg (by rintro (h | h) <;> [omega; exact hnul h])

theorem copy_error {v : Bytes} {cap : Nat} (h : ¬ (v.length < cap ∧ 0 ∉ v)) :
    copy v cap = .error .limit :=
  if_pos (by by_contra hno; exact h ⟨by omega, fun h => hno (.inr h)⟩)

/-- A value that is not in order is not stored. -/
theorem store_error {v : Bytes} (h : ¬ Accepts s v) : ∃ rc, store f v s = .error rc := by
  cases s with
  | contentLength =>
    cases hlength : lengthOf v with
    | error rc => exact ⟨rc, by rw [store, hlength]; rfl⟩
    | ok n => exact absurd ⟨n, hlength⟩ h
  | _ => exact ⟨.limit, by rw [store, copy_error h]; rfl⟩

/-- A value that is in order is stored as the first one of its name. -/
theorem store_ok (hname : specialOf x.name = some s) (hfirst : values s.name hs = [])
    (h : Accepts s x.value) (seen : Nat) :
    store (gathered out seen hs) x.value s = .ok (gathered out seen (hs ++ [x])) := by
  have hmine := values_mine hname hs
  rw [hfirst, List.nil_append] at hmine
  have hother : ∀ s', s ≠ s' → values s'.name (hs ++ [x]) = values s'.name hs := by
    intro s' hne
    refine values_other (fun h => hne ?_) hs
    exact Option.some_inj.1 (hname.symm.trans h)
  cases s with
  | authorization =>
    rw [store, copy_ok h.1 h.2]
    simp only [gathered, value, hmine, hother .origin nofun, hother .contentType nofun,
      hother .contentLength nofun]
    rfl
  | origin =>
    rw [store, copy_ok h.1 h.2]
    simp only [gathered, value, hmine, hother .authorization nofun, hother .contentType nofun,
      hother .contentLength nofun]
    rfl
  | contentType =>
    rw [store, copy_ok h.1 h.2]
    simp only [gathered, value, hmine, hother .authorization nofun, hother .origin nofun,
      hother .contentLength nofun]
    rfl
  | contentLength =>
    obtain ⟨n, hn⟩ := h
    rw [store, hn]
    simp only [gathered, value, hmine, hother .authorization nofun, hother .origin nofun,
      hother .contentType nofun, lengthIn, List.headD_cons, hn]
    rfl

/-- The first field of a name is in order with its value. -/
theorem Clean.concat (h : Clean hs) (hname : specialOf x.name = some s) (hfirst : values s.name hs = [])
    (haccepts : Accepts s x.value) : Clean (hs ++ [x]) where
  once s' := by
    by_cases hs' : specialOf x.name = some s'
    · cases hname.symm.trans hs'
      rw [values_mine hname, hfirst]
      exact Nat.le_refl 1
    · rw [values_other hs']
      exact h.once s'
  accepts s' v hv := by
    by_cases hs' : specialOf x.name = some s'
    · cases hname.symm.trans hs'
      rw [values_mine hname, hfirst, List.nil_append, List.mem_singleton] at hv
      rw [hv]
      exact haccepts
    · rw [values_other hs'] at hv
      exact h.accepts s' v hv
  permitted y hy := by
    rcases List.mem_append.1 hy with hy | hy
    · exact h.permitted y hy
    · rw [List.mem_singleton.1 hy]
      exact refused_special hname

theorem Taken.seen_concat (h : Taken out hs f) (hname : specialOf x.name = some s)
    (hfirst : values s.name hs = []) (s' : Special) :
    (f.seen ||| s.bit) &&& s'.bit = 0 ↔ values s'.name (hs ++ [x]) = [] := by
  rw [Nat.and_or_distrib_right, Nat.or_eq_zero_iff, h.seen s', bit_and]
  by_cases hs' : specialOf x.name = some s'
  · cases hname.symm.trans hs'
    rw [values_mine hname, hfirst]
    simp
  · rw [values_other hs']
    have hne : s ≠ s' := by
      rintro rfl
      exact hs' hname
    simp [hne]

/-- A field is taken if the fields up to it are in order, and stops everything otherwise. -/
theorem Taken.step (h : Taken out done f) (hclean : Clean done) (x : Header) :
    (Clean (done ++ [x]) ∧ ∃ f', field f x = .ok f' ∧ Taken out (done ++ [x]) f') ∨
      (¬ Clean (done ++ [x]) ∧ ∃ rc, field f x = .error rc) := by
  rw [field]
  cases hname : specialOf x.name with
  | none =>
    have hsame : ∀ s : Special, values s.name (done ++ [x]) = values s.name done :=
      fun s => values_other (by rw [hname]; exact nofun) done
    dsimp only
    cases hrefused : refused x with
    | true =>
      refine .inr ⟨fun hno => ?_, .unsupported, rfl⟩
      have := hno.permitted x (List.mem_append_right _ (List.mem_singleton_self x))
      rw [hrefused] at this
      cases this
    | false =>
      refine .inl ⟨⟨?_, ?_, ?_⟩, f, rfl, ?_, ?_⟩
      · intro s
        rw [hsame]
        exact hclean.once s
      · intro s v hv
        rw [hsame] at hv
        exact hclean.accepts s v hv
      · intro y hy
        rcases List.mem_append.1 hy with hy | hy
        · exact hclean.permitted y hy
        · rw [List.mem_singleton.1 hy]
          exact hrefused
      · intro s
        rw [hsame]
        exact h.seen s
      · rw [h.eq]
        simp only [gathered, value, hsame]
  | some s =>
    dsimp only
    have hmine := values_mine hname done
    by_cases hseen : f.seen &&& s.bit = 0
    · have hfirst := (h.seen s).1 hseen
      rw [if_neg (not_not.2 hseen)]
      by_cases haccepts : Accepts s x.value
      · have hf : { f with seen := f.seen ||| s.bit } = gathered out (f.seen ||| s.bit) done := by
          rw [h.eq]
          rfl
        rw [hf, store_ok hname hfirst haccepts]
        exact .inl ⟨hclean.concat hname hfirst haccepts, _, rfl, h.seen_concat hname hfirst, rfl⟩
      · refine .inr ⟨fun hno => haccepts (hno.accepts s x.value ?_), store_error haccepts⟩
        rw [hmine]
        exact List.mem_append_right _ (List.mem_singleton_self _)
    · rw [if_pos hseen]
      refine .inr ⟨fun hno => hseen ((h.seen s).2 ?_), .format, rfl⟩
      have hlen := hno.once s
      rw [hmine, List.length_append, List.length_singleton] at hlen
      exact List.length_eq_zero_iff.1 (by omega)

/-- Fields are taken one after the other as long as they are in order. -/
theorem Taken.run (h : Taken out done f) (hs : List Header) (hclean : Clean done) :
    (Clean (done ++ hs) ∧ ∃ f', hs.foldlM field f = .ok f' ∧ Taken out (done ++ hs) f') ∨
      (¬ Clean (done ++ hs) ∧ ∃ rc, hs.foldlM field f = .error rc) := by
  induction hs generalizing done f with
  | nil =>
    rw [List.append_nil]
    exact .inl ⟨hclean, f, rfl, h⟩
  | cons x hs ih =>
    rw [List.append_cons, List.foldlM_cons]
    rcases h.step hclean x with ⟨hclean', f', hfield, h'⟩ | ⟨hno, rc, hfield⟩
    · rw [hfield]
      exact ih h' hclean'
    · rw [hfield]
      exact .inr ⟨fun h => hno h.of_append, rc, rfl⟩

/-- The fields of a request that is accepted. -/
theorem taken_of_ok (hout : gathered out 0 [] = { out }) (h : hs.foldlM field { out } = .ok f) :
    Clean hs ∧ Taken out hs f := by
  have hstart : Taken out [] { out } := ⟨fun s => by simp [values], hout.symm⟩
  rcases hstart.run hs .nil with ⟨hclean, f', hf, htaken⟩ | ⟨-, rc, hf⟩
  · rw [hf] at h
    cases h
    exact ⟨hclean, htaken⟩
  · rw [hf] at h
    cases h

theorem ok_of_clean (hout : gathered out 0 [] = { out }) (h : Clean hs) :
    ∃ f, hs.foldlM field { out } = .ok f := by
  have hstart : Taken out [] { out } := ⟨fun s => by simp [values], hout.symm⟩
  rcases hstart.run hs .nil with ⟨-, f, hf, -⟩ | ⟨hno, -⟩
  · exact ⟨f, hf⟩
  · exact absurd h hno

/-! ## Raw and serialized -/

variable {headers : List Header} {buffer : Option Mem} {wire authority : Bytes}

/-- The raw fields but the carrier. -/
def raw (headers : List Header) : List Header := headers.filter fun h => !nameIs h.name requestHeaders

/-- The values of the carrier. -/
abbrev carried (headers : List Header) : List Bytes := values requestHeaders headers

/-- The serialized form decodes to the fields. -/
def Serialized (wire : Bytes) (hs : List Header) : Prop :=
  ∀ arena, (headersDecode (some wire) (some countMax) (some decodedMax) arena).rc = .ok ∧
    (headersDecode (some wire) (some countMax) (some decodedMax) arena).headers = hs

/-- The raw fields of a request and those that its only carrier has, together. -/
inductive Together (headers : List Header) : List Header → Prop
  | raw (h : carried headers = []) : Together headers (raw headers)
  | serialized {wire : Bytes} {hs : List Header} (h : carried headers = [wire])
      (hw : Serialized wire hs) : Together headers (raw headers ++ hs)

theorem rawFields_ok {packed packed' : Option Bytes} :
    rawFields headers f packed = .ok (f', packed') ↔
      (raw headers).foldlM field f = .ok f' ∧ (packed.toList ++ carried headers).length ≤ 1 ∧
        packed' = (packed.toList ++ carried headers).head? := by
  induction headers generalizing f packed with
  | nil =>
    rw [rawFields]
    constructor
    · intro h
      cases h
      cases packed' with
      | none => exact ⟨rfl, Nat.zero_le 1, rfl⟩
      | some wire => exact ⟨rfl, Nat.le_refl 1, rfl⟩
    · rintro ⟨hf, -, hpacked⟩
      cases hf
      rw [hpacked]
      cases packed with
      | none => rfl
      | some wire => rfl
  | cons h rest ih =>
    rw [rawFields]
    cases hname : nameIs h.name requestHeaders with
    | true =>
      have hraw : raw (h :: rest) = raw rest := by simp [raw, hname]
      have hcarried : carried (h :: rest) = h.value :: carried rest := by
        simp [carried, values, hname]
      rw [hraw, hcarried]
      cases packed with
      | none => exact ih
      | some wire =>
        simp
    | false =>
      have hraw : raw (h :: rest) = h :: raw rest := by simp [raw, hname]
      have hcarried : carried (h :: rest) = carried rest := by simp [carried, values, hname]
      rw [hraw, hcarried, List.foldlM_cons]
      cases field f h with
      | error rc =>
        constructor
        · nofun
        · rintro ⟨hf, -⟩
          cases hf
      | ok f => exact ih

/-- Both loops together have taken the fields one after the other. -/
theorem allFields_ok (h : allFields buffer headers f = .ok f') :
    ∃ hs, Together headers hs ∧ hs.foldlM field f = .ok f' := by
  rw [allFields] at h
  split at h
  · cases h
  · next f₁ hraw =>
    cases h
    obtain ⟨hf, -, hnone⟩ := rawFields_ok.1 hraw
    exact ⟨_, .raw (List.head?_eq_none_iff.1 hnone.symm), hf⟩
  · next f₁ wire hraw =>
    obtain ⟨hf, hlen, hsome⟩ := rawFields_ok.1 hraw
    obtain ⟨rest, hcarried⟩ := List.head?_eq_some_iff.1 hsome.symm
    have hrest : rest = [] := by
      rw [hcarried, List.length_cons] at hlen
      exact List.length_eq_zero_iff.1 (by omega)
    rw [hrest] at hcarried
    cases buffer with
    | none => cases h
    | some arena =>
      rw [packedFields] at h
      split at h
      · cases h
      · next hok =>
        refine ⟨_, .serialized hcarried (headersDecode_arena (not_not.1 hok)), ?_⟩
        rw [List.foldlM_append, hf]
        exact h

/-- Fields that can be taken one after the other are taken, if there is memory for those that are
serialized. -/
theorem allFields_of_ok (h : Together headers hs) (hf : hs.foldlM field f = .ok f') :
    allFields buffer headers f =
      if carried headers ≠ [] ∧ buffer = none then .error .memory else .ok f' := by
  cases h with
  | raw hcarried =>
    have hraw : rawFields headers f none = .ok (f', none) := by
      refine rawFields_ok.2 ⟨hf, ?_, ?_⟩
      · rw [hcarried]
        exact Nat.zero_le 1
      · rw [hcarried]
        rfl
    rw [allFields, hraw, if_neg (fun h => h.1 hcarried)]
  | @serialized wire hs hcarried hw =>
    rw [List.foldlM_append] at hf
    obtain ⟨f₁, hf₁, hf₂⟩ : ∃ f₁, (raw headers).foldlM field f = .ok f₁ ∧ hs.foldlM field f₁ = .ok f' := by
      cases hrun : (raw headers).foldlM field f with
      | error rc =>
        rw [hrun] at hf
        cases hf
      | ok f₁ =>
        rw [hrun] at hf
        exact ⟨f₁, rfl, hf⟩
    have hraw : rawFields headers f none = .ok (f₁, some wire) := by
      refine rawFields_ok.2 ⟨hf₁, ?_, ?_⟩
      · rw [hcarried]
        exact Nat.le_refl 1
      · rw [hcarried]
        rfl
    have hne : carried headers ≠ [] := by
      rw [hcarried]
      exact List.cons_ne_nil _ _
    rw [allFields, hraw]
    cases buffer with
    | none =>
      rw [if_pos ⟨hne, rfl⟩]
      rfl
    | some arena =>
      obtain ⟨hok, hheaders⟩ := hw arena
      rw [if_neg (fun h => nomatch h.2)]
      dsimp only [packedFields]
      rw [if_neg (not_not.2 hok), hheaders]
      exact hf₂

/-! ## The head -/

/-- The head of a request with the fields `hs`. -/
def assembled (out : RemoteHead) (authority : Bytes) (hs : List Header) : RemoteHead :=
  let expected := text "https://" ++ Config.cString authority
  { (gathered out 0 hs).out with
    originAllowed := values Special.origin.name hs = [] ∨ value .origin hs = expected ∨
      value .origin hs = expected ++ text ":443"
    jsonContent := (value .contentType hs).take 16 = text "application/json" ∧
      ((value .contentType hs).getD 16 0 = 0 ∨ (value .contentType hs).getD 16 0 = 59) }

theorem finish_eq (h : Taken out hs f) (hlen : authority.length ≤ 253) :
    finish f authority =
      if out.post = false ∧ lengthIn (value .contentLength hs) ≠ 0 then .error .format
      else .ok (assembled out authority hs) := by
  obtain ⟨expected, hexpected⟩ : ∃ expected, expected = text "https://" ++ Config.cString authority :=
    ⟨_, rfl⟩
  have hn : 0 < expected.length ∧ expected.length + 4 < 272 := by
    have hscheme : (text "https://").length = 8 := by decide +kernel
    have hshort : (Config.cString authority).length ≤ authority.length :=
      (List.takeWhile_sublist _).length_le
    rw [hexpected, List.length_append]
    omega
  have hout : f.out = (gathered out 0 hs).out := by
    rw [h.eq]
    rfl
  have horigin : f.origin = value .origin hs := by
    rw [h.eq]
    rfl
  have htype : f.type = value .contentType hs := by
    rw [h.eq]
    rfl
  have hallowed : (f.seen &&& 2 = 0 ∨
      (expected.length > 0 ∧ expected.length < 272 ∧ f.origin = expected) ∨
      (expected.length > 0 ∧ expected.length + 4 < 272 ∧ f.origin = expected ++ text ":443")) ↔
      (values Special.origin.name hs = [] ∨ value .origin hs = expected ∨
        value .origin hs = expected ++ text ":443") := by
    have hseen : f.seen &&& 2 = 0 ↔ values Special.origin.name hs = [] := h.seen .origin
    have hlt : expected.length < 272 := by omega
    rw [hseen, horigin]
    simp only [gt_iff_lt, hn.1, hn.2, hlt, true_and]
  rw [finish, assembled, ← hexpected]
  dsimp only
  simp only [hallowed, htype, hout]
  simp only [gathered, Bool.not_eq_true']

/-- What `opening` has checked when it succeeds. -/
theorem opening_ok {method path : Bytes} (h : opening method path authority = (.ok, out)) :
    (method = text "GET" ∨ method = text "HEAD" ∨ method = text "POST") ∧
      (out.post = true ↔ method = text "POST") ∧ authority.length ≤ 253 ∧
      gathered out 0 [] = { out } := by
  rw [opening] at h
  dsimp only at h
  split at h
  · cases h
  next hmethod =>
  split at h
  · cases h
  next hpath =>
  split at h
  · next rc hcopy =>
    rw [copy] at hcopy
    split at hcopy
    · cases hcopy
      cases h
    · cases hcopy
  · next path' hcopy =>
    cases h
    refine ⟨?_, by simp, ?_, rfl⟩
    · simp only [Bool.not_eq_true', decide_eq_false_iff_not] at hmethod
      tauto
    · omega

/-! ## Failures -/

theorem copy_failed (v : Bytes) (cap : Nat) : copy v cap ≠ .error .ok := by
  rw [copy]
  split
  · nofun
  · nofun

theorem lengthOf_failed (v : Bytes) : lengthOf v ≠ .error .ok := by
  have hloop : ∀ n, lengthLoop n v ≠ .error .ok := by
    induction v with
    | nil => exact fun n => nofun
    | cons c rest ih =>
      intro n
      rw [lengthLoop]
      split
      · nofun
      · split
        · nofun
        · exact ih _
  rw [lengthOf]
  split
  · nofun
  · exact hloop 0

theorem bind_failed {α β : Type} {x : Except Result α} {g : α → Except Result β} (hx : x ≠ .error .ok)
    (hg : ∀ a, g a ≠ .error .ok) : x >>= g ≠ .error .ok := by
  cases x with
  | error rc =>
    intro h
    cases h
    exact hx rfl
  | ok a => exact hg a

/-- A field that is not taken gives an error. -/
theorem field_failed (f : Fields) (h : Header) : field f h ≠ .error .ok := by
  rw [field]
  split
  · split
    · nofun
    · nofun
  · next s _ =>
    split
    · nofun
    · cases s with
      | contentLength => exact bind_failed (lengthOf_failed _) fun _ => nofun
      | _ => exact bind_failed (copy_failed _ _) fun _ => nofun

theorem foldlM_field_failed (hs : List Header) (f : Fields) : hs.foldlM field f ≠ .error .ok := by
  induction hs generalizing f with
  | nil => nofun
  | cons h hs ih =>
    rw [List.foldlM_cons]
    exact bind_failed (field_failed f h) ih

theorem rawFields_failed (headers : List Header) (f : Fields) (packed : Option Bytes) :
    rawFields headers f packed ≠ .error .ok := by
  induction headers generalizing f packed with
  | nil => nofun
  | cons h rest ih =>
    rw [rawFields]
    split
    · split
      · nofun
      · exact ih _ _
    · have hfield := field_failed f h
      cases hrun : field f h with
      | error rc =>
        rw [hrun] at hfield
        intro hrc
        cases hrc
        exact hfield rfl
      | ok f => exact ih _ _

theorem allFields_failed (buffer : Option Mem) (headers : List Header) (f : Fields) :
    allFields buffer headers f ≠ .error .ok := by
  have hraw := rawFields_failed headers f none
  rw [allFields]
  split
  · next rc hrun =>
    rw [hrun] at hraw
    intro hrc
    cases hrc
    exact hraw rfl
  · nofun
  · next f₁ wire _ =>
    cases buffer with
    | none => nofun
    | some arena =>
      rw [packedFields]
      split
      · next hrc =>
        intro h
        exact hrc (Except.error.inj h)
      · exact foldlM_field_failed _ _

/-! ## Accepted requests -/

/-- What an accepted request consists of, and the head it gets. -/
theorem remoteParse_ok (h : remoteParse buffer headers = (.ok, head)) :
    ∃ out hs, opening (H2.header headers (text ":method")) (H2.header headers (text ":path"))
        (H2.header headers (text ":authority")) = (.ok, out) ∧
      Together headers hs ∧ Clean hs ∧
      ¬ (out.post = false ∧ lengthIn (value .contentLength hs) ≠ 0) ∧
      head = assembled out (H2.header headers (text ":authority")) hs := by
  rw [remoteParse] at h
  split at h
  · next out hopening =>
    obtain ⟨-, -, hlen, hout⟩ := opening_ok hopening
    have hfailed := allFields_failed buffer headers { out }
    split at h
    · next rc hrun =>
      cases h
      exact absurd hrun hfailed
    · next f hrun =>
      obtain ⟨hs, htogether, hf⟩ := allFields_ok hrun
      obtain ⟨hclean, htaken⟩ := taken_of_ok hout hf
      rw [finish_eq htaken hlen] at h
      split at h
      · next rc hfinish =>
        split at hfinish
        · cases hfinish
          cases h
        · cases hfinish
      · next head' hfinish =>
        cases h
        split at hfinish
        · cases hfinish
        · next hlength =>
          cases hfinish
          exact ⟨out, hs, hopening, htogether, hclean, hlength, rfl⟩
  · next failed hno => exact absurd h (hno head)

/-- Such a request is accepted. -/
theorem remoteParse_of_clean
    (hopening : opening (H2.header headers (text ":method")) (H2.header headers (text ":path"))
      (H2.header headers (text ":authority")) = (.ok, out))
    (htogether : Together headers hs) (hclean : Clean hs)
    (hlength : ¬ (out.post = false ∧ lengthIn (value .contentLength hs) ≠ 0)) :
    remoteParse buffer headers =
      if carried headers ≠ [] ∧ buffer = none then (.memory, {})
      else (.ok, assembled out (H2.header headers (text ":authority")) hs) := by
  obtain ⟨-, -, hlen, hout⟩ := opening_ok hopening
  obtain ⟨f, hf⟩ := ok_of_clean hout hclean
  have htaken := (taken_of_ok hout hf).2
  rw [remoteParse, hopening]
  dsimp only
  rw [allFields_of_ok htogether hf]
  by_cases hbuffer : carried headers ≠ [] ∧ buffer = none
  · rw [if_pos hbuffer, if_pos hbuffer]
  · rw [if_neg hbuffer, if_neg hbuffer]
    dsimp only
    rw [finish_eq htaken hlen, if_neg hlength]

/-! ## Fields in another order -/

/-- A pseudo field. -/
def pseudo (h : Header) : Bool := h.name.head? = some 58

/-- The fields that are no pseudo fields. -/
def plain (hs : List Header) : List Header := hs.filter fun h => !pseudo h

/-- What is read of the pseudo fields does not depend on the others. -/
theorem header_pseudo {name : Bytes} (hname : name.head? = some 58) (headers : List Header) :
    H2.header headers name = H2.header (headers.filter pseudo) name := by
  rw [H2.header, H2.header, List.find?_filter]
  congr 2
  refine congrArg (List.find? · headers) (funext fun h => ?_)
  by_cases h' : h.name = name
  · simp [pseudo, h', hname]
  · simp [h']

/-- A name in lower case that does not start with a colon is not that of a pseudo field. -/
theorem nameIs_pseudo {name : Bytes} (hname : name.head? ≠ some 58) (hx : pseudo x = true) :
    nameIs x.name name = false := by
  rw [nameIs, decide_eq_false_iff_not]
  rintro rfl
  rw [pseudo, decide_eq_true_eq] at hx
  rw [List.head?_map, hx] at hname
  exact hname rfl

theorem values_plain {name : Bytes} (hname : name.head? ≠ some 58) (hs : List Header) :
    values name (plain hs) = values name hs := by
  rw [values, values, plain, List.filter_filter]
  congr 1
  refine List.filter_congr fun h _ => ?_
  cases hx : pseudo h with
  | false => simp
  | true => simp [nameIs_pseudo hname hx]

theorem special_plain (s : Special) : s.name.head? ≠ some 58 := by
  cases s <;> decide +kernel

theorem refused_pseudo (hx : pseudo x = true) : refused x = false := by
  refine refused_of_names (nameIs_pseudo ?_ hx) (nameIs_pseudo ?_ hx) (nameIs_pseudo ?_ hx)
  all_goals decide +kernel

theorem perm_eq {α : Type} {l l' : List α} (h : l.Perm l') (hlen : l.length ≤ 1) : l = l' := by
  match l, hlen with
  | [], _ => exact (List.nil_perm.1 h).symm
  | [a], _ => exact List.singleton_perm.1 h

/-- The order of the fields is not seen in the values. -/
theorem Clean.values_eq (h : Clean hs) (hperm : (plain hs').Perm (plain hs)) (s : Special) :
    values s.name hs' = values s.name hs := by
  have hvalues := values_perm hperm s.name
  rw [values_plain (special_plain s), values_plain (special_plain s)] at hvalues
  exact (perm_eq hvalues.symm (h.once s)).symm

theorem Clean.perm (h : Clean hs) (hperm : (plain hs').Perm (plain hs)) : Clean hs' where
  once s := by
    rw [h.values_eq hperm]
    exact h.once s
  accepts s := by
    rw [h.values_eq hperm]
    exact h.accepts s
  permitted x hx := by
    cases hpseudo : pseudo x with
    | true => exact refused_pseudo hpseudo
    | false =>
      have hplain : x ∈ plain hs' := List.mem_filter.2 ⟨hx, by simp [hpseudo]⟩
      exact h.permitted x (List.mem_of_mem_filter (hperm.mem_iff.1 hplain))

theorem assembled_congr (h : ∀ s : Special, values s.name hs' = values s.name hs) :
    assembled out authority hs' = assembled out authority hs := by
  unfold assembled gathered value
  rw [h .authorization, h .origin, h .contentType, h .contentLength]

/-! ## What is known of the head -/

/-- The decimal notation of a number, perhaps with zeros in front. -/
def Decimal (v : Bytes) (n : Nat) : Prop :=
  v ≠ [] ∧ (∀ c ∈ v, 48 ≤ c ∧ c ≤ 57) ∧ n = Nat.ofDigits 10 (v.reverse.map fun c => c.toNat - 48)

theorem lengthLoop_ok {n m : Nat} {v : Bytes} (h : lengthLoop n v = .ok m) :
    (∀ c ∈ v, 48 ≤ c ∧ c ≤ 57) ∧ (n ≤ bodyMax → m ≤ bodyMax) ∧
      m = n * 10 ^ v.length + Nat.ofDigits 10 (v.reverse.map fun c => c.toNat - 48) := by
  induction v generalizing n with
  | nil =>
    cases h
    simp
  | cons c rest ih =>
    rw [lengthLoop] at h
    split at h
    · cases h
    next hc =>
    split at h
    · cases h
    next hmax =>
    obtain ⟨hdigits, hbound, hvalue⟩ := ih h
    refine ⟨List.forall_mem_cons.2 ⟨?_, hdigits⟩, fun _ => hbound (by omega), ?_⟩
    · rw [not_or, UInt8.not_lt, UInt8.not_lt] at hc
      exact hc
    · rw [hvalue, List.reverse_cons, List.map_append, Nat.ofDigits_append, List.length_map,
        List.length_reverse, List.length_cons, List.map_singleton, Nat.ofDigits_singleton]
      ring

theorem lengthOf_ok {v : Bytes} {n : Nat} (h : lengthOf v = .ok n) : Decimal v n ∧ n ≤ bodyMax := by
  rw [lengthOf] at h
  split at h
  · cases h
  next hne =>
  obtain ⟨hdigits, hbound, hvalue⟩ := lengthLoop_ok h
  rw [Nat.zero_mul, Nat.zero_add] at hvalue
  exact ⟨⟨hne, hdigits, hvalue⟩, hbound (Nat.zero_le _)⟩

/-- A request whose `origin` may use the monitor: there is none, or it is that of the authority. -/
def OriginAllowed (authority : Bytes) (hs : List Header) : Prop :=
  values (text "origin") hs = [] ∨ values (text "origin") hs = [text "https://" ++ authority] ∨
    values (text "origin") hs = [text "https://" ++ authority ++ text ":443"]

/-- The fields of a request leave one meaning only, and `head` is it. -/
structure Unambiguous (headers hs : List Header) (head : RemoteHead) : Prop where
  authorizations : (values (text "authorization") hs).length ≤ 1
  origins : (values (text "origin") hs).length ≤ 1
  contentTypes : (values (text "content-type") hs).length ≤ 1
  contentLengths : (values (text "content-length") hs).length ≤ 1
  transfer : values (text "transfer-encoding") hs = []
  encoding : ∀ v ∈ values (text "content-encoding") hs, v = text "identity"
  proxySrc : ∀ v ∈ values (text "cf-cloudflared-proxy-src") hs, v = []
  authorization : values (text "authorization") hs = [head.authorization] ∨
    (values (text "authorization") hs = [] ∧ head.authorization = [])
  length : (∃ v, values (text "content-length") hs = [v] ∧ head.hasLength = true ∧
      Decimal v head.contentLength) ∨
    (values (text "content-length") hs = [] ∧ head.hasLength = false ∧ head.contentLength = 0)
  bound : head.contentLength ≤ bodyMax
  bodyless : H2.header headers (text ":method") = text "GET" ∨
    H2.header headers (text ":method") = text "HEAD" → head.contentLength = 0
  origin : head.originAllowed = true ↔
    OriginAllowed (Config.cString (H2.header headers (text ":authority"))) hs

theorem Clean.at_most_one (h : Clean hs) (s : Special) :
    values s.name hs = [] ∨ ∃ v, values s.name hs = [v] ∧ Accepts s v := by
  have hlen := h.once s
  have haccepts := h.accepts s
  revert hlen haccepts
  match values s.name hs with
  | [] => exact fun _ _ => .inl rfl
  | [v] => exact fun _ haccepts => .inr ⟨v, rfl, haccepts v (List.mem_singleton_self v)⟩
  | _ :: _ :: _ =>
    intro hlen
    rw [List.length_cons, List.length_cons] at hlen
    omega

theorem Clean.none_refused (h : Clean hs) {name v : Bytes} (hv : v ∈ values name hs) :
    ∃ x : Header, nameIs x.name name = true ∧ x.value = v ∧ refused x = false := by
  obtain ⟨x, hx, hname, rfl⟩ := mem_values.1 hv
  exact ⟨x, hname, rfl, h.permitted x hx⟩

/-- The length in the head is that of the only field for it. -/
theorem Clean.length (h : Clean hs) (out : RemoteHead) (authority : Bytes) :
    let head := assembled out authority hs
    head.contentLength ≤ bodyMax ∧
      ((∃ v, values (text "content-length") hs = [v] ∧ head.hasLength = true ∧
          Decimal v head.contentLength) ∨
        (values (text "content-length") hs = [] ∧ head.hasLength = false ∧ head.contentLength = 0)) := by
  rcases h.at_most_one .contentLength with hnone | ⟨v, hone, n, hn⟩
  · have hlength : (assembled out authority hs).contentLength = 0 := by
      change lengthIn ((values Special.contentLength.name hs).headD []) = 0
      rw [hnone]
      rfl
    refine ⟨hlength.trans_le (Nat.zero_le _), .inr ⟨hnone, ?_, hlength⟩⟩
    exact decide_eq_false (not_not.2 hnone)
  · have hlength : (assembled out authority hs).contentLength = n := by
      change lengthIn ((values Special.contentLength.name hs).headD []) = n
      rw [hone, List.headD_cons, lengthIn, hn]
    obtain ⟨hdecimal, hbound⟩ := lengthOf_ok hn
    refine ⟨hlength.trans_le hbound, .inl ⟨v, hone, ?_, by rwa [hlength]⟩⟩
    refine decide_eq_true ?_
    rw [hone]
    exact List.cons_ne_nil _ _

theorem Clean.origin (h : Clean hs) (out : RemoteHead) (authority : Bytes) :
    (assembled out authority hs).originAllowed = true ↔
      OriginAllowed (Config.cString authority) hs := by
  rw [assembled, decide_eq_true_eq, OriginAllowed, value]
  change (values (text "origin") hs = [] ∨ (values (text "origin") hs).headD [] = _ ∨
    (values (text "origin") hs).headD [] = _) ↔ _
  rcases h.at_most_one .origin with hnone | ⟨v, hone, -⟩
  · rw [show values (text "origin") hs = [] from hnone]
    simp
  · rw [show values (text "origin") hs = [v] from hone]
    simp

theorem Clean.unambiguous (h : Clean hs)
    (hopening : opening (H2.header headers (text ":method")) (H2.header headers (text ":path"))
      (H2.header headers (text ":authority")) = (.ok, out))
    (hlength : ¬ (out.post = false ∧ lengthIn (value .contentLength hs) ≠ 0)) :
    Unambiguous headers hs (assembled out (H2.header headers (text ":authority")) hs) where
  authorizations := h.once .authorization
  origins := h.once .origin
  contentTypes := h.once .contentType
  contentLengths := h.once .contentLength
  transfer := by
    refine List.eq_nil_iff_forall_not_mem.2 fun v hv => ?_
    obtain ⟨x, hname, -, hrefused⟩ := h.none_refused hv
    simp [refused, hname] at hrefused
  encoding v hv := by
    obtain ⟨x, hname, rfl, hrefused⟩ := h.none_refused hv
    by_contra hne
    simp [refused, hname, hne] at hrefused
  proxySrc v hv := by
    obtain ⟨x, hname, rfl, hrefused⟩ := h.none_refused hv
    by_contra hne
    simp [refused, hname, hne] at hrefused
  authorization := by
    change values Special.authorization.name hs = [value .authorization hs] ∨
      (values Special.authorization.name hs = [] ∧ value .authorization hs = [])
    rw [value]
    rcases h.at_most_one .authorization with hnone | ⟨v, hone, -⟩
    · rw [hnone]
      exact .inr ⟨rfl, rfl⟩
    · rw [hone]
      exact .inl rfl
  length := (h.length _ _).2
  bound := (h.length _ _).1
  bodyless hmethod := by
    obtain ⟨-, hpost, -⟩ := opening_ok hopening
    have hno : out.post = false := by
      rw [Bool.eq_false_iff, ne_eq, hpost]
      rcases hmethod with hmethod | hmethod
      · rw [hmethod]
        decide +kernel
      · rw [hmethod]
        decide +kernel
    by_contra hne
    exact hlength ⟨hno, hne⟩
  origin := h.origin _ _

/-- **A request that is accepted has one meaning.** What is in the head is told by the fields, raw and
serialized together, and no field that is kept comes twice. Another request with the same pseudo
fields whose other fields are the same, in whatever order and however divided between raw and
serialized, gets the same head, unless there is no memory to decode the serialized ones. -/
theorem remote_requests_unambiguous {buffer : Option Mem} {r : H2.Request} {old head : RemoteHead}
    (h : monitorRemoteParse buffer (some r) (some old) = (.ok, some head)) :
    ∃ hs, Together r.headers hs ∧ Unambiguous r.headers hs head ∧
      ∀ (r' : H2.Request) (hs' : List Header), Together r'.headers hs' →
        r'.headers.filter pseudo = r.headers.filter pseudo → (plain hs').Perm (plain hs) →
        ∀ (buffer' : Option Mem) (old' : RemoteHead),
          monitorRemoteParse buffer' (some r') (some old') =
            if carried r'.headers ≠ [] ∧ buffer' = none then (.memory, some {}) else (.ok, some head) := by
  have hparse : remoteParse buffer r.headers = (.ok, head) := by
    obtain ⟨hrc, hhead⟩ := Prod.mk.inj h
    exact Prod.ext hrc (Option.some_inj.1 hhead)
  obtain ⟨out, hs, hopening, htogether, hclean, hlength, rfl⟩ := remoteParse_ok hparse
  refine ⟨hs, htogether, hclean.unambiguous hopening hlength, ?_⟩
  intro r' hs' htogether' hpseudo hperm buffer' old'
  have hsame : ∀ name : Bytes, name.head? = some 58 → H2.header r'.headers name = H2.header r.headers name := by
    intro name hname
    rw [header_pseudo hname, hpseudo, ← header_pseudo hname]
  have hmethod := hsame (text ":method") (by decide +kernel)
  have hpath := hsame (text ":path") (by decide +kernel)
  have hauthority := hsame (text ":authority") (by decide +kernel)
  rw [← hmethod, ← hpath, ← hauthority] at hopening
  have hvalues := hclean.values_eq hperm
  have hlength' : ¬ (out.post = false ∧ lengthIn (value .contentLength hs') ≠ 0) := by
    rw [value, hvalues]
    exact hlength
  have hrun : remoteParse buffer' r'.headers = _ :=
    remoteParse_of_clean hopening htogether' (hclean.perm hperm) hlength'
  rw [assembled_congr hvalues, hauthority] at hrun
  rw [monitorRemoteParse, hrun]
  split
  · rfl
  · rfl

/-- The pseudo fields of a login. -/
def loginPseudo : List Header :=
  [⟨text ":method", text "POST"⟩, ⟨text ":path", text "/api/login?x"⟩, ⟨text ":authority", text "a.b"⟩]

/-- Two of its other fields. -/
def loginUser : List Header :=
  [⟨text "Authorization", text "t"⟩, ⟨text "origin", text "https://a.b:443"⟩]

def loginHead : RemoteHead where
  path := text "/api/login"
  authorization := text "t"
  post := true
  originAllowed := true
  hasLength := true
  contentLength := 3

/-- A login with raw fields is accepted, and so it is with two of them serialized in another order. -/
theorem remote_requests_unambiguous_login :
    let r : H2.Request := ⟨1, .http, loginPseudo ++ loginUser ++ [⟨text "Content-Length", text "3"⟩], false⟩
    let r' : H2.Request := ⟨1, .http, ⟨text "Content-Length", text "3"⟩ :: loginPseudo ++
      [⟨text "CF-Cloudflared-Request-Headers", wireOf loginUser.reverse⟩], false⟩
    (∃ hs, Together r.headers hs ∧ Unambiguous r.headers hs loginHead) ∧
      monitorRemoteParse (some fun _ => 0) (some r') (some {}) = (.ok, some loginHead) := by
  intro r r'
  have hrun : monitorRemoteParse none (some r) (some {}) = (.ok, some loginHead) := by decide +kernel
  obtain ⟨hs, htogether, hunambiguous, hagain⟩ := remote_requests_unambiguous hrun
  refine ⟨⟨hs, htogether, hunambiguous⟩, ?_⟩
  have hvalid : ∀ h ∈ loginUser.reverse, ValidHeader h := by
    unfold ValidHeader
    decide +kernel
  have hpacked : Serialized (wireOf loginUser.reverse) loginUser.reverse := by
    intro arena
    have hdecode := headersDecode_wireOf arena (by decide) hvalid (by decide +kernel) (by decide +kernel)
    exact ⟨hdecode.1, hdecode.2.2⟩
  have htogether' : Together r'.headers (raw r'.headers ++ loginUser.reverse) :=
    .serialized (by decide +kernel) hpacked
  have hperm : (plain (raw r'.headers ++ loginUser.reverse)).Perm (plain hs) := by
    cases htogether with
    | raw _ => decide +kernel
    | serialized hcarried _ => exact absurd hcarried (by simp [show carried r.headers = [] by decide +kernel])
  rw [hagain r' _ htogether' (by decide +kernel) hperm, if_neg (fun h => nomatch h.2)]

/-- An `:authority` with a NUL counts up to there: another origin than that of the authority is
allowed. -/
theorem origin_before_nul :
    let r : H2.Request := ⟨1, .http, [⟨text ":method", text "GET"⟩, ⟨text ":path", text "/"⟩,
      ⟨text ":authority", [97, 0, 98]⟩, ⟨text "origin", text "https://a"⟩], true⟩
    monitorRemoteParse none (some r) (some {}) =
        (.ok, some { path := text "/", originAllowed := true }) ∧
      ∀ hs, Together r.headers hs → ¬ OriginAllowed (H2.header r.headers (text ":authority")) hs := by
  intro r
  refine ⟨by decide +kernel, fun hs htogether => ?_⟩
  cases htogether with
  | raw _ =>
    unfold OriginAllowed
    decide +kernel
  | serialized hcarried _ => exact absurd hcarried (by simp [show carried r.headers = [] by decide +kernel])

end EspCfTunnel.Remote
