import Mathlib.Data.List.TakeWhile
import EspCfTunnel.Headers.Base64

/-!
# The serialized header codec

`cf_headers_decode`, and how it and `cf_headers_encode` undo each other. The format between them is
`wireOf`: one field for each header, separated by semicolons, with both parts of a field in Base64.
The encoder's two loops write exactly `wireOf` (`encodeWire_eq`) in the size computed by the first
(`encodeSize_eq`); a field that the decoder accepts is the field of one header (`Decoding.pair_ok`,
`Decoding.pair_field`), whose name and value it appends to the arena (`Decoding.push`).
-/

namespace EspCfTunnel.Headers

/-! ## The decoder -/

/-- A `cf_header` as `cf_headers_decode` stores it: two slices of the arena. -/
structure Entry where
  name : View
  value : View
  deriving DecidableEq, Repr

/-- The variables of `cf_headers_decode`: the arena, `used`, and the `num` entries stored. -/
structure Decoding where
  arena : Mem
  used : Nat := 0
  entries : List Entry := []

/-- The decoding of one part of a field into the arena. -/
def Decoding.field (cap : Nat) (s : Decoding) (t : Bytes) : Result × View × Decoding :=
  let out := base64Decode (some t) false (some (cap - s.used))
  (out.rc, ⟨s.used, out.written⟩,
    { s with arena := s.arena.write s.used out.stored, used := s.used + out.written })

/-- The body of the outer loop of `cf_headers_decode`, for a segment that is not empty. -/
def Decoding.pair (slots cap : Nat) (s : Decoding) (segment : Bytes) : Result × Decoding :=
  if s.entries.length = slots then (.limit, s)
  else if 58 ∉ segment then (.format, s)
  else
    let text := segment.takeWhile (· ≠ 58)
    match s.field cap text with
    | (.ok, name, s) =>
      match s.field cap (segment.drop (text.length + 1)) with
      | (.ok, value, s) =>
        if !validName (s.arena.read name.off name.len) ∨
            !validValue (s.arena.read value.off value.len) then (.format, s)
        else (.ok, { s with entries := s.entries ++ [⟨name, value⟩] })
      | (rc, _, s) => (rc, s)
    | (rc, _, s) => (rc, s)

/-- The outer loop, from `start` on, for `fuel` rounds at most: each round takes a byte at least, so
the length of the wire is enough. -/
def decodeWire (wire : Bytes) (slots cap : Nat) : Nat → Nat → Decoding → Result × Decoding
  | 0, _, s => (.ok, s)
  | fuel + 1, start, s =>
    if start < wire.length then
      let segment := (wire.drop start).takeWhile (· ≠ 59)
      let stop := start + segment.length
      if stop = start then decodeWire wire slots cap fuel (stop + 1) s
      else
        match s.pair slots cap segment with
        | (.ok, s) => decodeWire wire slots cap fuel (stop + 1) s
        | (rc, s) => (rc, s)
    else (.ok, s)

/-- What a call of `cf_headers_decode` leaves: its result, `*count`, the entries and the arena. -/
structure Decoded where
  rc : Result
  count : Nat := 0
  entries : List Entry := []
  arena : Mem

/-- `cf_headers_decode`. An absent `wire` is a null pointer with a length; absent `slots` and `cap`
are null pointers for `entries` and `arena`. -/
def headersDecode (wire : Option Bytes) (slots cap : Option Nat) (arena : Mem) : Decoded :=
  match wire, slots, cap with
  | some wire, some slots, some cap =>
    if wire.length > wireMax then { rc := .limit, arena }
    else
      let cap := if cap > decodedMax then decodedMax else cap
      let slots := if slots > countMax then countMax else slots
      match decodeWire wire slots cap wire.length 0 { arena } with
      | (.ok, s) =>
        { rc := .ok, count := s.entries.length, entries := s.entries, arena := s.arena }
      | (rc, s) => { rc, entries := s.entries, arena := s.arena }
  | _, _, _ => { rc := .argument, arena }

/-- The header that an entry shows in the arena. -/
def Entry.header (arena : Mem) (e : Entry) : Header :=
  ⟨arena.read e.name.off e.name.len, arena.read e.value.off e.value.len⟩

/-- The headers that a call reports: the first `*count` entries. -/
def Decoded.headers (out : Decoded) : List Header :=
  (out.entries.take out.count).map (Entry.header out.arena)

/-- `cf_headers_encode` with its pointers: `entries` is absent for a null pointer with a count, `cap`
for a null `wire` with a capacity. `*written` is stored as zero first. -/
def headersWrite (entries : Option (List Header)) (cap : Option Nat) : Output :=
  match entries, cap with
  | some entries, some cap =>
    match headersEncode entries cap with
    | .error rc => { rc }
    | .ok wire => { rc := .ok, stored := wire, written := wire.length }
  | _, _ => { rc := .argument }

/-- The results of the calls of `cf_base64_encode` in the second loop of `cf_headers_encode`, which
ignores them. -/
def encodeCalls (cap : Nat) : List Header → Nat → Bytes → List (Except Result Bytes)
  | [], _, _ => []
  | e :: es, i, wire =>
    let wire := if i ≠ 0 then wire ++ [59] else wire
    let name := base64Encode e.name false (cap - wire.length)
    let wire := wire ++ encoded e.name (cap - wire.length) ++ [58]
    let value := base64Encode e.value false (cap - wire.length)
    name :: value :: encodeCalls cap es (i + 1) (wire ++ encoded e.value (cap - wire.length))

/-! ## The format -/

/-- The field of a header. -/
def fieldOf (h : Header) : Bytes := base64Digits false h.name ++ 58 :: base64Digits false h.value

/-- The serialized form of a list of headers. -/
def wireOf (hs : List Header) : Bytes := [59].intercalate (hs.map fieldOf)

/-- A header whose name and value pass their checks. -/
def ValidHeader (h : Header) : Prop := validName h.name = true ∧ validValue h.value = true

/-- The bytes of a list of headers. -/
def decodedSize (hs : List Header) : Nat := (hs.map fun h => h.name.length + h.value.length).sum

/-- A wire string without its empty segments. -/
def squeeze (wire : Bytes) : Bytes := [59].intercalate ((wire.splitOn 59).filter (· ≠ []))

/-! ## The encoder writes the format -/

/-- What the second loop writes from entry `i` on. -/
def wireFrom (i : Nat) (hs : List Header) : Bytes :=
  if i = 0 then wireOf hs else hs.flatMap fun h => 59 :: fieldOf h

@[simp] theorem wireFrom_nil (i : Nat) : wireFrom i [] = [] := by
  unfold wireFrom
  split <;> rfl

/-- The fields of a list, with the separators in front of all but the first. -/
theorem wireOf_cons (h : Header) (hs : List Header) :
    wireOf (h :: hs) = fieldOf h ++ hs.flatMap fun h => 59 :: fieldOf h := by
  induction hs generalizing h with
  | nil => simp [wireOf]
  | cons g gs ih =>
    have hstep : wireOf (h :: g :: gs) = fieldOf h ++ [59] ++ wireOf (g :: gs) := by
      rw [wireOf, List.map_cons, List.map_cons, List.intercalate_cons_cons]
      rfl
    rw [hstep, ih]
    simp

/-- What stands before entry `i`. -/
def separator (i : Nat) : Bytes := if i ≠ 0 then [59] else []

/-- One round of the loop. -/
theorem wireFrom_cons (i : Nat) (h : Header) (hs : List Header) :
    wireFrom i (h :: hs) = separator i ++ fieldOf h ++ wireFrom (i + 1) hs := by
  unfold wireFrom separator
  cases i with
  | zero => simp [wireOf_cons]
  | succ i => simp

theorem length_fieldOf (h : Header) : (fieldOf h).length =
    base64Need false h.name.length + (base64Need false h.value.length + 1) := by
  rw [fieldOf, List.length_append, List.length_cons, length_base64Digits, length_base64Digits]

@[simp] theorem decodedSize_cons (h : Header) (hs : List Header) :
    decodedSize (h :: hs) = h.name.length + h.value.length + decodedSize hs := rfl

/-- The first loop of `cf_headers_encode` computes the size of what the second writes. -/
theorem encodeSize_eq (hs : List Header) (i decoded need : Nat) (hvalid : ∀ h ∈ hs, ValidHeader h)
    (hsize : decoded + decodedSize hs ≤ decodedMax) :
    encodeSize hs i decoded need = .ok (need + (wireFrom i hs).length) := by
  induction hs generalizing i decoded need with
  | nil => simp [encodeSize]
  | cons h hs ih =>
    obtain ⟨hname, hvalue⟩ := hvalid h List.mem_cons_self
    rw [decodedSize_cons] at hsize
    have hrest := ih (i + 1) (decoded + h.name.length + h.value.length)
      (need + base64Need false h.name.length +
        (base64Need false h.value.length + 1 + if i ≠ 0 then 1 else 0))
      (fun g hg => hvalid g (List.mem_cons_of_mem _ hg)) (by omega)
    rw [encodeSize, if_neg (by omega), if_neg (by omega), if_neg (by simp [hname, hvalue]), hrest, wireFrom_cons,
      List.length_append, List.length_append, length_fieldOf]
    congr 1
    cases i with
    | zero => simp [separator]; omega
    | succ i => simp [separator]; omega

/-- A call of `cf_base64_encode` with room enough. -/
theorem base64Encode_fits {x : Bytes} {cap : Nat} (hx : x.length ≤ decodedMax)
    (hcap : base64Need false x.length ≤ cap) :
    base64Encode x false cap = .ok (base64Digits false x) := by
  have hsmall : ¬ x.length / 3 > (2 ^ 32 - 1 - 4) / 4 := by
    have : x.length ≤ 4096 := hx
    omega
  rw [base64Encode, if_neg hsmall, if_neg (by omega)]

/-- The second loop of `cf_headers_encode` writes the format, and no call that it ignores fails. -/
theorem encodeWire_eq {cap : Nat} (hs : List Header) (i : Nat) (wire : Bytes)
    (hsize : decodedSize hs ≤ decodedMax) (hcap : wire.length + (wireFrom i hs).length ≤ cap) :
    encodeWire cap hs i wire = wire ++ wireFrom i hs ∧
      ∀ r ∈ encodeCalls cap hs i wire, ∃ digits, r = .ok digits := by
  induction hs generalizing i wire with
  | nil => exact ⟨by simp [encodeWire], nofun⟩
  | cons h hs ih =>
    rw [decodedSize_cons] at hsize
    rw [wireFrom_cons, List.length_append, List.length_append, length_fieldOf] at hcap
    obtain ⟨first, hfirst⟩ : ∃ first, first = wire ++ separator i := ⟨_, rfl⟩
    have hwire : (if i ≠ 0 then wire ++ [59] else wire) = first := by
      rw [hfirst, separator]
      split <;> simp
    have hlen : first.length = wire.length + (separator i).length := by
      rw [hfirst, List.length_append]
    have hname : base64Encode h.name false (cap - first.length) = .ok (base64Digits false h.name) :=
      base64Encode_fits (by omega) (by omega)
    obtain ⟨second, hsecond⟩ : ∃ second, second = first ++ base64Digits false h.name ++ [58] :=
      ⟨_, rfl⟩
    have hlen₂ : second.length = first.length + base64Need false h.name.length + 1 := by
      rw [hsecond, List.length_append, List.length_append, length_base64Digits]
      rfl
    have hvalue : base64Encode h.value false (cap - second.length) =
        .ok (base64Digits false h.value) := base64Encode_fits (by omega) (by omega)
    have hname' : encoded h.name (cap - first.length) = base64Digits false h.name := by
      rw [encoded, hname]
      rfl
    have hvalue' : encoded h.value (cap - second.length) = base64Digits false h.value := by
      rw [encoded, hvalue]
      rfl
    have hthird : second ++ base64Digits false h.value =
        wire ++ (separator i ++ fieldOf h) := by
      rw [hsecond, hfirst, fieldOf]
      simp
    obtain ⟨hrest, hcalls⟩ := ih (i + 1) (second ++ base64Digits false h.value) (by omega) (by
      rw [List.length_append, length_base64Digits]
      omega)
    constructor
    · rw [encodeWire, hwire, hname', ← hsecond, hvalue', hrest, hthird, wireFrom_cons]
      simp
    · intro r hr
      rw [encodeCalls, hwire, hname', ← hsecond, hvalue', hname, hvalue] at hr
      rcases List.mem_cons.1 hr with rfl | hr
      · exact ⟨_, rfl⟩
      rcases List.mem_cons.1 hr with rfl | hr
      · exact ⟨_, rfl⟩
      exact hcalls r hr

/-- **The encoder** on headers within its limits. -/
theorem headersWrite_eq {hs : List Header} {cap : Nat} (hcount : hs.length ≤ countMax)
    (hvalid : ∀ h ∈ hs, ValidHeader h) (hsize : decodedSize hs ≤ decodedMax)
    (hcap : (wireOf hs).length ≤ cap) (hwire : (wireOf hs).length ≤ wireMax) :
    headersWrite (some hs) (some cap) =
      { rc := .ok, stored := wireOf hs, written := (wireOf hs).length } := by
  have hneed : encodeSize hs 0 0 0 = .ok (wireOf hs).length := by
    rw [encodeSize_eq hs 0 0 0 hvalid (by omega), Nat.zero_add]
    rfl
  have hstored : encodeWire cap hs 0 [] = wireOf hs :=
    (encodeWire_eq hs 0 [] hsize (by simpa [wireFrom] using hcap)).1
  rw [headersWrite, headersEncode, if_neg (by omega), hneed]
  dsimp only
  rw [if_neg (by omega), hstored]

/-! ## The decoder reads the format -/

/-- A part of a field, stored at the end of the arena. -/
def Decoding.store (s : Decoding) (x : Bytes) : Decoding :=
  { s with arena := s.arena.write s.used x, used := s.used + x.length }

/-- A header, stored at the end of the arena. -/
def Decoding.push (s : Decoding) (h : Header) : Decoding :=
  { (s.store h.name).store h.value with
    entries := s.entries ++
      [⟨⟨s.used, h.name.length⟩, ⟨s.used + h.name.length, h.value.length⟩⟩] }

theorem Decoding.used_push (s : Decoding) (h : Header) :
    (s.push h).used = s.used + h.name.length + h.value.length := rfl

theorem Decoding.entries_push (s : Decoding) (h : Header) :
    (s.push h).entries.length = s.entries.length + 1 := by simp [push]

/-- The digits of a string that fits are stored as the string. -/
theorem Decoding.field_digits {cap : Nat} {s : Decoding} {x : Bytes} (h : s.used + x.length ≤ cap) :
    s.field cap (base64Digits false x) = (.ok, ⟨s.used, x.length⟩, s.store x) := by
  rw [field, base64Decode_digits (by omega)]
  rfl

/-- A part that is accepted is the digits of a string that fits. -/
theorem Decoding.field_ok {cap : Nat} {s s' : Decoding} {t : Bytes} {v : View} (hs : s.used ≤ cap)
    (h : s.field cap t = (.ok, v, s')) :
    ∃ x, base64Digits false x = t ∧ s.used + x.length ≤ cap ∧ v = ⟨s.used, x.length⟩ ∧
      s' = s.store x := by
  obtain ⟨x, -, hx, -, hfit⟩ := base64Decode_ok (congrArg Prod.fst h)
  have hroom : s.used + x.length ≤ cap := by omega
  rw [← hx, field_digits hroom] at h
  cases h
  exact ⟨x, hx, hroom, rfl, rfl⟩

/-- Every character of an encoded string is a digit, so none is a separator. -/
theorem digit_of_mem {x : Bytes} {c : UInt8} (h : c ∈ base64Digits false x) : digit c ≠ none := by
  have hdigit (n : Nat) : digit (alphabet (n % 64)) ≠ none := by
    rw [digit_alphabet (Nat.mod_lt _ (by simp))]
    nofun
  induction x using base64Digits.induct false with
  | case1 => simp [base64Digits] at h
  | case2 a =>
    simp only [base64Digits, Bool.false_eq_true, if_false, List.append_nil, List.mem_cons,
      List.not_mem_nil, or_false] at h
    rcases h with rfl | rfl <;> exact hdigit _
  | case3 a b =>
    simp only [base64Digits, Bool.false_eq_true, if_false, List.mem_cons, List.not_mem_nil,
      or_false] at h
    rcases h with rfl | rfl | rfl <;> exact hdigit _
  | case4 a b c rest ih =>
    simp only [base64Digits, List.mem_cons] at h
    rcases h with rfl | rfl | rfl | rfl | h
    · exact hdigit _
    · exact hdigit _
    · exact hdigit _
    · exact hdigit _
    · exact ih h

theorem colon_notMem (x : Bytes) : 58 ∉ base64Digits false x :=
  fun h => digit_of_mem h digit_separator.1

/-- A field contains no separator of fields. -/
theorem semicolon_notMem (h : Header) : 59 ∉ fieldOf h := by
  rw [fieldOf, List.mem_append, List.mem_cons]
  rintro (hm | hm | hm)
  · exact digit_of_mem hm digit_separator.2
  · cases hm
  · exact digit_of_mem hm digit_separator.2

/-- The text before the first occurrence of a byte, and the text after it. -/
theorem takeWhile_ne {a : UInt8} {xs : Bytes} (h : a ∉ xs) (ys : Bytes) :
    (xs ++ a :: ys).takeWhile (· ≠ a) = xs := by
  have hxs : ∀ b ∈ xs, decide (b ≠ a) = true := by
    intro b hb
    have hne : b ≠ a := fun hba => h (hba ▸ hb)
    simpa using hne
  rw [List.takeWhile_append_of_pos hxs, List.takeWhile_cons_of_neg (by simp), List.append_nil]

/-- A text in which a byte does not occur stands before it. -/
theorem takeWhile_ne_self {a : UInt8} {xs : Bytes} (h : a ∉ xs) : xs.takeWhile (· ≠ a) = xs := by
  apply List.takeWhile_eq_self_iff.2
  intro b hb
  have hne : b ≠ a := fun hba => h (hba ▸ hb)
  simpa using hne

/-- A text in which a byte occurs is cut at its first occurrence. -/
theorem takeWhile_cut {a : UInt8} : ∀ {xs : Bytes}, a ∈ xs →
    xs = xs.takeWhile (· ≠ a) ++ a :: xs.drop ((xs.takeWhile (· ≠ a)).length + 1)
  | [], h => absurd h (List.not_mem_nil)
  | x :: xs, h => by
    by_cases hx : x = a
    · simp [hx]
    · have hmem : a ∈ xs := (List.mem_cons.1 h).resolve_left (Ne.symm hx)
      rw [List.takeWhile_cons_of_pos (by simpa using hx)]
      simpa using takeWhile_cut hmem

/-- The name stays readable under the value, -/
theorem Decoding.read_name (s : Decoding) (x y : Bytes) :
    ((s.store x).store y).arena.read s.used x.length = x := by
  change ((s.arena.write s.used x).write (s.used + x.length) y).read _ _ = _
  rw [Mem.read_write_disjoint _ _ (by omega), Mem.read_write_same]

/-- and so is the value. -/
theorem Decoding.read_value (s : Decoding) (x y : Bytes) :
    ((s.store x).store y).arena.read (s.store x).used y.length = y := Mem.read_write_same _ _ _

/-- **A field** of a header is read as the header, if there is room for it. -/
theorem Decoding.pair_field {slots cap : Nat} {s : Decoding} {h : Header}
    (hslot : s.entries.length ≠ slots)
    (hroom : s.used + h.name.length + h.value.length ≤ cap) (hvalid : ValidHeader h) :
    s.pair slots cap (fieldOf h) = (.ok, s.push h) := by
  have htext : (fieldOf h).takeWhile (· ≠ 58) = base64Digits false h.name :=
    takeWhile_ne (colon_notMem _) _
  have hrest : (fieldOf h).drop ((base64Digits false h.name).length + 1) =
      base64Digits false h.value := by simp [fieldOf]
  have hname : s.field cap (base64Digits false h.name) =
      (.ok, ⟨s.used, h.name.length⟩, s.store h.name) := field_digits (by omega)
  have hvalue : (s.store h.name).field cap (base64Digits false h.value) =
      (.ok, ⟨(s.store h.name).used, h.value.length⟩, (s.store h.name).store h.value) :=
    field_digits hroom
  rw [pair, if_neg hslot, if_neg (by simp [fieldOf])]
  dsimp only
  rw [htext, hname]
  dsimp only
  rw [hrest, hvalue]
  dsimp only
  rw [read_name, read_value, if_neg (by simp [hvalid.1, hvalid.2])]
  rfl

/-- **A segment that is accepted** is the field of a header that is stored. -/
theorem Decoding.pair_ok {slots cap : Nat} {s s' : Decoding} {segment : Bytes} (hs : s.used ≤ cap)
    (hp : s.pair slots cap segment = (.ok, s')) :
    ∃ h, fieldOf h = segment ∧ ValidHeader h ∧ s.entries.length ≠ slots ∧
      s.used + h.name.length + h.value.length ≤ cap ∧ s' = s.push h := by
  rw [pair] at hp
  split at hp
  · cases hp
  next hslot =>
  split at hp
  · cases hp
  next hcolon =>
  have hcut := takeWhile_cut (Decidable.not_not.1 hcolon)
  dsimp only at hp
  split at hp
  · next name s₁ hname =>
    obtain ⟨x, hx, hfit, rfl, rfl⟩ := field_ok hs hname
    split at hp
    · next value s₂ hvalue =>
      obtain ⟨y, hy, hfit₂, rfl, rfl⟩ := field_ok hfit hvalue
      have hseg : fieldOf ⟨x, y⟩ = segment := by
        rw [hcut, fieldOf, hx, hy]
      dsimp only at hp
      rw [read_name, read_value] at hp
      split at hp
      · cases hp
      next hcheck =>
      cases hp
      have hvalid : ValidHeader ⟨x, y⟩ := by
        simpa [ValidHeader, not_or] using hcheck
      exact ⟨⟨x, y⟩, hseg, hvalid, hslot, hfit₂, rfl⟩
    · next hno _ =>
      cases hp
      exact absurd rfl hno
  · next hno _ =>
    cases hp
    exact absurd rfl hno

/-! ## The segments of a wire string -/

/-- The outer loop over a list of segments. -/
def decodeSegments (slots cap : Nat) : List Bytes → Decoding → Result × Decoding
  | [], s => (.ok, s)
  | segment :: segments, s =>
    if segment = [] then decodeSegments slots cap segments s
    else
      match s.pair slots cap segment with
      | (.ok, s) => decodeSegments slots cap segments s
      | (rc, s) => (rc, s)

/-- A wire string starts with a segment, and goes on behind its semicolon if there is one. -/
theorem splitOn_eq (wire : Bytes) :
    wire.splitOn 59 = wire.takeWhile (· ≠ 59) ::
      if 59 ∈ wire then (wire.drop ((wire.takeWhile (· ≠ 59)).length + 1)).splitOn 59 else [] := by
  have hfree : 59 ∉ wire.takeWhile (· ≠ 59) := by
    intro h
    simpa using List.mem_takeWhile_imp h
  split
  · next h =>
    conv_lhs => rw [takeWhile_cut h]
    exact List.splitOn_append_cons_self_of_not_mem hfree _
  · next h => rw [List.splitOn_eq_singleton h, takeWhile_ne_self h]

/-- The loop visits the segments of the wire string. -/
theorem decodeWire_eq {wire : Bytes} {slots cap : Nat} (fuel start : Nat) (s : Decoding)
    (hfuel : wire.length - start ≤ fuel) :
    decodeWire wire slots cap fuel start s =
      decodeSegments slots cap ((wire.drop start).splitOn 59) s := by
  induction fuel generalizing start s with
  | zero =>
    rw [List.drop_of_length_le (by omega)]
    simp [decodeWire, decodeSegments]
  | succ fuel ih =>
    rw [decodeWire]
    split
    · next hlt =>
      obtain ⟨segment, hsegment⟩ : ∃ t, t = (wire.drop start).takeWhile (· ≠ 59) := ⟨_, rfl⟩
      -- the rest of the wire string behind the segment and its semicolon
      have htail (s : Decoding) : decodeWire wire slots cap fuel (start + segment.length + 1) s =
          decodeSegments slots cap (if 59 ∈ wire.drop start then
            ((wire.drop start).drop (segment.length + 1)).splitOn 59 else []) s := by
        rw [ih _ _ (by omega), Nat.add_assoc, ← List.drop_drop]
        split
        · rfl
        · next hlast =>
          have hall : (wire.drop start).takeWhile (· ≠ 59) = wire.drop start :=
            (takeWhile_ne_self hlast)
          rw [hsegment, hall, List.drop_of_length_le (by omega)]
          simp [decodeSegments]
      rw [splitOn_eq, ← hsegment, decodeSegments]
      dsimp only
      by_cases hnil : segment = []
      · rw [if_pos (by simp [hnil]), if_pos hnil, htail]
      · have hlen : segment.length ≠ 0 := by simpa using hnil
        rw [if_neg (by omega), if_neg hnil]
        split
        · exact htail _
        · rfl
    · next hge =>
      rw [List.drop_of_length_le (by omega)]
      simp [decodeSegments]

/-! ## The arena -/

/-- The entries are consecutive slices of the arena, from `start` to `stop`. -/
def Slices : Nat → List Entry → Nat → Prop
  | start, [], stop => start = stop
  | start, e :: es, stop => e.name.off = start ∧ e.value.off = start + e.name.len ∧
      Slices (e.value.off + e.value.len) es stop

/-- One more header behind the last entry. -/
theorem Slices.concat {start stop : Nat} {es : List Entry} {a b : Nat} (h : Slices start es stop) :
    Slices start (es ++ [⟨⟨stop, a⟩, ⟨stop + a, b⟩⟩]) (stop + a + b) := by
  induction es generalizing start with
  | nil =>
    cases h
    exact ⟨rfl, rfl, rfl⟩
  | cons e es ih => exact ⟨h.1, h.2.1, ih h.2.2⟩

/-- Every entry lies between the ends. -/
theorem Slices.within {start stop : Nat} {es : List Entry} (h : Slices start es stop) {e : Entry}
    (he : e ∈ es) : start ≤ e.name.off ∧ e.name.off + e.name.len ≤ stop ∧
      start ≤ e.value.off ∧ e.value.off + e.value.len ≤ stop := by
  have hle : ∀ {es : List Entry} {start : Nat}, Slices start es stop → start ≤ stop := by
    intro es
    induction es with
    | nil => exact fun h => Nat.le_of_eq h
    | cons e es ih =>
      intro start h
      obtain ⟨h₁, h₂, h₃⟩ := h
      have := ih h₃
      omega
  induction es generalizing start with
  | nil => cases he
  | cons g es ih =>
    obtain ⟨h₁, h₂, h₃⟩ := h
    have := hle h₃
    rcases List.mem_cons.1 he with rfl | he
    · omega
    · have := ih h₃ he
      omega

/-- The entries so far are slices of the arena, and show the headers `hs`. -/
structure Decoding.Shows (s : Decoding) (hs : List Header) : Prop where
  slices : Slices 0 s.entries s.used
  headers : s.entries.map (Entry.header s.arena) = hs

/-- A header that is stored is shown behind the others. -/
theorem Decoding.Shows.push {s : Decoding} {hs : List Header} (hshow : s.Shows hs) (h : Header) :
    (s.push h).Shows (hs ++ [h]) := by
  refine ⟨hshow.slices.concat, ?_⟩
  have hold : s.entries.map (Entry.header (s.push h).arena) = hs := by
    rw [← hshow.headers]
    apply List.map_congr_left
    intro e he
    obtain ⟨-, h₁, -, h₂⟩ := hshow.slices.within he
    change Entry.header ((s.arena.write s.used h.name).write (s.used + h.name.length) h.value) e = _
    unfold Entry.header
    rw [Mem.read_write_disjoint _ _ (by omega), Mem.read_write_disjoint _ _ (by omega),
      Mem.read_write_disjoint _ _ (by omega), Mem.read_write_disjoint _ _ (by omega)]
  have hnew : Entry.header (s.push h).arena
      ⟨⟨s.used, h.name.length⟩, ⟨s.used + h.name.length, h.value.length⟩⟩ = h := by
    change Header.mk (((s.store h.name).store h.value).arena.read s.used h.name.length)
      (((s.store h.name).store h.value).arena.read (s.store h.name).used h.value.length) = h
    rw [read_name, read_value]
  rw [Decoding.push, List.map_append, List.map_singleton]
  exact congrArg₂ (· ++ [·]) hold hnew

/-- So is a list of headers. -/
theorem Decoding.Shows.pushAll {s : Decoding} {hs : List Header} (hshow : s.Shows hs)
    (gs : List Header) : (gs.foldl Decoding.push s).Shows (hs ++ gs) := by
  induction gs generalizing s hs with
  | nil => simpa using hshow
  | cons g gs ih => simpa using ih (hshow.push g)

theorem used_pushAll (hs : List Header) (s : Decoding) :
    (hs.foldl Decoding.push s).used = s.used + decodedSize hs := by
  induction hs generalizing s with
  | nil => rfl
  | cons h hs ih =>
    rw [List.foldl_cons, ih, Decoding.used_push, decodedSize_cons]
    omega

theorem entries_pushAll (hs : List Header) (s : Decoding) :
    (hs.foldl Decoding.push s).entries.length = s.entries.length + hs.length := by
  induction hs generalizing s with
  | nil => rfl
  | cons h hs ih =>
    rw [List.foldl_cons, ih, Decoding.entries_push, List.length_cons]
    omega

/-! ## All segments -/

theorem fieldOf_ne_nil (h : Header) : fieldOf h ≠ [] := by simp [fieldOf]

/-- The fields of headers within the limits are read as the headers. -/
theorem decodeSegments_fields {slots cap : Nat} (hs : List Header) (s : Decoding)
    (hvalid : ∀ h ∈ hs, ValidHeader h) (hslots : s.entries.length + hs.length ≤ slots)
    (hcap : s.used + decodedSize hs ≤ cap) :
    decodeSegments slots cap (hs.map fieldOf) s = (.ok, hs.foldl Decoding.push s) := by
  induction hs generalizing s with
  | nil => rfl
  | cons h hs ih =>
    rw [List.length_cons] at hslots
    rw [decodedSize_cons] at hcap
    have hpair : s.pair slots cap (fieldOf h) = (.ok, s.push h) :=
      Decoding.pair_field (by omega) (by omega) (hvalid h List.mem_cons_self)
    rw [List.map_cons, decodeSegments, if_neg (fieldOf_ne_nil h), hpair]
    refine ih (s.push h) (fun g hg => hvalid g (List.mem_cons_of_mem _ hg)) ?_ ?_
    · rw [Decoding.entries_push]
      omega
    · rw [Decoding.used_push]
      omega

/-- Segments that are accepted are fields of headers, apart from the empty ones. -/
theorem decodeSegments_ok {slots cap : Nat} (segments : List Bytes) {s s' : Decoding}
    (hs : s.used ≤ cap) (hl : s.entries.length ≤ slots)
    (h : decodeSegments slots cap segments s = (.ok, s')) :
    ∃ gs : List Header, segments.filter (· ≠ []) = gs.map fieldOf ∧ (∀ g ∈ gs, ValidHeader g) ∧
      s' = gs.foldl Decoding.push s ∧ s'.used ≤ cap ∧ s'.entries.length ≤ slots := by
  induction segments generalizing s with
  | nil =>
    cases h
    exact ⟨[], rfl, nofun, rfl, hs, hl⟩
  | cons segment segments ih =>
    rw [decodeSegments] at h
    split at h
    · next hnil =>
      obtain ⟨gs, hgs⟩ := ih hs hl h
      exact ⟨gs, by simpa [hnil] using hgs⟩
    next hnil =>
    split at h
    · next s₁ hpair =>
      obtain ⟨g, rfl, hg, hslot, hroom, rfl⟩ := Decoding.pair_ok hs hpair
      have hl₁ : (s.push g).entries.length ≤ slots := by
        rw [Decoding.entries_push]
        omega
      obtain ⟨gs, hgs, hvalid, hs', hrest⟩ := ih hroom hl₁ h
      refine ⟨g :: gs, ?_, ?_, hs', hrest⟩
      · rw [List.filter_cons_of_pos (by simpa using hnil), hgs, List.map_cons]
      · exact List.forall_mem_cons.2 ⟨hg, hvalid⟩
    · next hno _ =>
      cases h
      exact absurd rfl hno

/-- Leaving out empty segments makes a string no longer. -/
theorem length_intercalate_filter (segments : List Bytes) :
    ([59].intercalate (segments.filter (· ≠ []))).length ≤ ([59].intercalate segments).length := by
  induction segments with
  | nil => rfl
  | cons t ts ih =>
    have hcons : t.length ≤ ([59].intercalate (t :: ts)).length ∧
        (ts ≠ [] → ([59].intercalate (t :: ts)).length =
          t.length + 1 + ([59].intercalate ts).length) := by
      cases ts with
      | nil => exact ⟨by simp, fun h => absurd rfl h⟩
      | cons u us =>
        rw [List.intercalate_cons_cons]
        exact ⟨by simp, fun _ => by simp; omega⟩
    by_cases ht : t = []
    · rw [List.filter_cons_of_neg (by simp [ht])]
      rcases eq_or_ne ts [] with rfl | hts
      · simp
      · have := hcons.2 hts
        omega
    · rw [List.filter_cons_of_pos (by simpa using ht)]
      rcases eq_or_ne (ts.filter (· ≠ [])) [] with hf | hf
      · rw [hf, List.intercalate_singleton]
        exact hcons.1
      · have hts : ts ≠ [] := by
          rintro rfl
          exact hf rfl
        rw [List.intercalate_cons_of_ne_nil hf, hcons.2 hts]
        simp only [List.length_append, List.length_singleton]
        omega

theorem length_squeeze (wire : Bytes) : (squeeze wire).length ≤ wire.length := by
  have hall : [59].intercalate (wire.splitOn 59) = wire := List.intercalate_splitOn 59
  exact (length_intercalate_filter _).trans_eq (congrArg List.length hall)

/-! ## The two functions undo each other -/

/-- What `cf_headers_decode` does with pointers that are not null and a wire string within the
limit. -/
theorem headersDecode_eq {wire : Bytes} (slots cap : Nat) (arena : Mem)
    (hwire : wire.length ≤ wireMax) :
    headersDecode (some wire) (some slots) (some cap) arena =
      match decodeSegments (min slots countMax) (min cap decodedMax) (wire.splitOn 59) { arena } with
      | (.ok, s) =>
        { rc := .ok, count := s.entries.length, entries := s.entries, arena := s.arena }
      | (rc, s) => { rc, entries := s.entries, arena := s.arena } := by
  have hslots : (if slots > countMax then countMax else slots) = min slots countMax := by
    split <;> omega
  have hcap : (if cap > decodedMax then decodedMax else cap) = min cap decodedMax := by
    split <;> omega
  rw [headersDecode, if_neg (by omega)]
  dsimp only
  rw [hslots, hcap, decodeWire_eq _ _ _ (by omega), List.drop_zero]

/-- The wire string of some headers has their fields as segments. -/
theorem splitOn_wireOf (hs : List Header) : (wireOf hs).splitOn 59 = hs.map fieldOf ∨
    hs = [] ∧ (wireOf hs).splitOn 59 = [[]] := by
  cases hs with
  | nil => exact .inr ⟨rfl, rfl⟩
  | cons h hs =>
    refine .inl (List.splitOn_intercalate 59 ?_ (by simp))
    intro t ht
    obtain ⟨g, -, rfl⟩ := List.mem_map.1 ht
    exact semicolon_notMem g

/-- Decoding the wire string of headers within the limits. -/
theorem headersDecode_wireOf {hs : List Header} (arena : Mem) (hcount : hs.length ≤ countMax)
    (hvalid : ∀ h ∈ hs, ValidHeader h) (hsize : decodedSize hs ≤ decodedMax)
    (hwire : (wireOf hs).length ≤ wireMax) :
    (headersDecode (some (wireOf hs)) (some countMax) (some decodedMax) arena).rc = .ok ∧
      (headersDecode (some (wireOf hs)) (some countMax) (some decodedMax) arena).count = hs.length ∧
      (headersDecode (some (wireOf hs)) (some countMax) (some decodedMax) arena).headers = hs := by
  have hrun : decodeSegments (min countMax countMax) (min decodedMax decodedMax)
      ((wireOf hs).splitOn 59) { arena } = (.ok, hs.foldl Decoding.push { arena }) := by
    rcases splitOn_wireOf hs with heq | ⟨rfl, heq⟩
    · rw [heq]
      exact decodeSegments_fields hs _ hvalid (by simpa using hcount) (by simpa using hsize)
    · rw [heq]
      rfl
  have hshow : (hs.foldl Decoding.push { arena }).Shows hs :=
    Decoding.Shows.pushAll (s := { arena }) ⟨rfl, rfl⟩ hs
  rw [headersDecode_eq _ _ _ hwire, hrun]
  refine ⟨rfl, by simp [entries_pushAll], ?_⟩
  rw [Decoded.headers, List.take_length]
  exact hshow.headers

/-- What an accepted wire string holds. -/
theorem headersDecode_ok {wire : Bytes} {slots cap : Nat} {arena : Mem}
    (h : (headersDecode (some wire) (some slots) (some cap) arena).rc = .ok) :
    wire.length ≤ wireMax ∧ ∃ hs : List Header, (wire.splitOn 59).filter (· ≠ []) = hs.map fieldOf ∧
      (∀ h ∈ hs, ValidHeader h) ∧ hs.length ≤ countMax ∧ decodedSize hs ≤ min cap decodedMax ∧
      (headersDecode (some wire) (some slots) (some cap) arena).headers = hs ∧
      (headersDecode (some wire) (some slots) (some cap) arena).count = hs.length ∧
      (headersDecode (some wire) (some slots) (some cap) arena).entries.length = hs.length ∧
      Slices 0 (headersDecode (some wire) (some slots) (some cap) arena).entries (decodedSize hs) := by
  have hwire : wire.length ≤ wireMax := by
    by_contra hlong
    rw [headersDecode, if_pos (by omega)] at h
    cases h
  refine ⟨hwire, ?_⟩
  rw [headersDecode_eq _ _ _ hwire] at h ⊢
  obtain ⟨⟨rc, s⟩, hrun⟩ : ∃ r, decodeSegments (min slots countMax) (min cap decodedMax)
      (wire.splitOn 59) { arena } = r := ⟨_, rfl⟩
  rw [hrun] at h ⊢
  cases rc with
  | ok =>
    obtain ⟨hs, hfields, hvalid, rfl, hused, hlen⟩ :=
      decodeSegments_ok _ (Nat.zero_le _) (Nat.zero_le _) hrun
    have hshow : (hs.foldl Decoding.push { arena }).Shows hs :=
      Decoding.Shows.pushAll (s := { arena }) ⟨rfl, rfl⟩ hs
    have hsize : (hs.foldl Decoding.push { arena }).used = decodedSize hs := by
      rw [used_pushAll, Nat.zero_add]
    have hcount : (hs.foldl Decoding.push { arena }).entries.length = hs.length := by
      rw [entries_pushAll, List.length_nil, Nat.zero_add]
    rw [hsize] at hused
    rw [hcount] at hlen
    have hslices := hshow.slices
    rw [hsize] at hslices
    refine ⟨hs, hfields, hvalid, by omega, hused, ?_, hcount, hcount, hslices⟩
    rw [Decoded.headers, List.take_length]
    exact hshow.headers
  | _ => cases h

/-- Empty segments are passed over. -/
theorem decodeSegments_filter (slots cap : Nat) (segments : List Bytes) (s : Decoding) :
    decodeSegments slots cap segments s = decodeSegments slots cap (segments.filter (· ≠ [])) s := by
  induction segments generalizing s with
  | nil => rfl
  | cons segment segments ih =>
    by_cases hnil : segment = []
    · rw [List.filter_cons_of_neg (by simp [hnil]), decodeSegments, if_pos hnil]
      exact ih s
    · rw [List.filter_cons_of_pos (by simpa using hnil), decodeSegments, decodeSegments, if_neg hnil,
        if_neg hnil]
      split
      · exact ih _
      · rfl

/-- What an accepted wire string decodes to does not depend on what was in the arena. -/
theorem headersDecode_arena {wire : Bytes} {arena : Mem}
    (h : (headersDecode (some wire) (some countMax) (some decodedMax) arena).rc = .ok)
    (arena' : Mem) :
    (headersDecode (some wire) (some countMax) (some decodedMax) arena').rc = .ok ∧
      (headersDecode (some wire) (some countMax) (some decodedMax) arena').headers =
        (headersDecode (some wire) (some countMax) (some decodedMax) arena).headers := by
  obtain ⟨hwire, hs, hfields, hvalid, hcount, hsize, hheaders, -⟩ := headersDecode_ok h
  have hrun : decodeSegments (min countMax countMax) (min decodedMax decodedMax) (wire.splitOn 59)
      { arena := arena' } = (.ok, hs.foldl Decoding.push { arena := arena' }) := by
    rw [decodeSegments_filter, hfields]
    exact decodeSegments_fields hs _ hvalid (by simpa using hcount) (by simpa using hsize)
  have hshow : (hs.foldl Decoding.push { arena := arena' }).Shows hs :=
    Decoding.Shows.pushAll (s := { arena := arena' }) ⟨rfl, rfl⟩ hs
  rw [hheaders, headersDecode_eq _ _ _ hwire, hrun]
  refine ⟨rfl, ?_⟩
  rw [Decoded.headers, List.take_length]
  exact hshow.headers

/-- A call of `cf_headers_decode` that fails counts no header. -/
theorem headersDecode_failed {wire : Option Bytes} {slots cap : Option Nat} {arena : Mem}
    (h : (headersDecode wire slots cap arena).rc ≠ .ok) :
    (headersDecode wire slots cap arena).count = 0 := by
  rcases wire with _ | wire
  · rfl
  rcases slots with _ | slots
  · rfl
  rcases cap with _ | cap
  · rfl
  rcases Nat.lt_or_ge wireMax wire.length with hlong | hwire
  · rw [headersDecode, if_pos hlong]
  rw [headersDecode_eq _ _ _ hwire] at h ⊢
  obtain ⟨⟨rc, s⟩, hrun⟩ : ∃ r, decodeSegments (min slots countMax) (min cap decodedMax)
      (wire.splitOn 59) { arena } = r := ⟨_, rfl⟩
  rw [hrun] at h ⊢
  cases rc with
  | ok => exact absurd rfl h
  | _ => rfl

/-- A call of `cf_headers_encode` that fails reports no length. -/
theorem headersWrite_failed {entries : Option (List Header)} {cap : Option Nat}
    (h : (headersWrite entries cap).rc ≠ .ok) : (headersWrite entries cap).written = 0 := by
  rcases entries with _ | entries
  · rfl
  rcases cap with _ | cap
  · rfl
  rw [headersWrite] at h ⊢
  cases hrun : headersEncode entries cap with
  | error rc => rfl
  | ok wire =>
    rw [hrun] at h
    exact absurd rfl h

/-- **The codec of the serialized headers.** Headers within the limits are encoded in exactly the
size computed beforehand, with no ignored call failing, and decode to the same list. A wire string
that is accepted holds valid headers in consecutive slices of the arena, and encoding them gives the
wire string without its empty segments. A call that fails reports nothing. -/
theorem headers_codec :
    (∀ (hs : List Header) (cap : Nat), hs.length ≤ countMax → (∀ h ∈ hs, ValidHeader h) →
      decodedSize hs ≤ decodedMax → (wireOf hs).length ≤ min cap wireMax →
      encodeSize hs 0 0 0 = .ok (wireOf hs).length ∧
      headersWrite (some hs) (some cap) =
        { rc := .ok, stored := wireOf hs, written := (wireOf hs).length } ∧
      (∀ r ∈ encodeCalls cap hs 0 [], ∃ digits, r = .ok digits) ∧
      ∀ arena : Mem,
        (headersDecode (some (wireOf hs)) (some countMax) (some decodedMax) arena).rc = .ok ∧
        (headersDecode (some (wireOf hs)) (some countMax) (some decodedMax) arena).count =
          hs.length ∧
        (headersDecode (some (wireOf hs)) (some countMax) (some decodedMax) arena).headers = hs) ∧
    (∀ (wire : Bytes) (slots cap : Nat) (arena : Mem) (out : Decoded),
      headersDecode (some wire) (some slots) (some cap) arena = out → out.rc = .ok →
      out.entries.length = out.count ∧
      (∃ stop, stop ≤ min cap decodedMax ∧ Slices 0 out.entries stop) ∧
      (∀ h ∈ out.headers, ValidHeader h) ∧
      ∀ room, (squeeze wire).length ≤ room →
        headersWrite (some out.headers) (some room) =
          { rc := .ok, stored := squeeze wire, written := (squeeze wire).length }) ∧
    (∀ (wire : Option Bytes) (slots cap : Option Nat) (arena : Mem),
      (headersDecode wire slots cap arena).rc ≠ .ok → (headersDecode wire slots cap arena).count = 0) ∧
    ∀ (entries : Option (List Header)) (cap : Option Nat),
      (headersWrite entries cap).rc ≠ .ok → (headersWrite entries cap).written = 0 := by
  refine ⟨?_, ?_, ?_, ?_⟩
  · intro hs cap hcount hvalid hsize hfit
    have hroom : ([] : Bytes).length + (wireFrom 0 hs).length ≤ cap := by
      change 0 + (wireOf hs).length ≤ cap
      omega
    have hcalls := (encodeWire_eq hs 0 [] hsize hroom).2
    refine ⟨?_, headersWrite_eq hcount hvalid hsize (by omega) (by omega), hcalls, fun arena =>
      headersDecode_wireOf arena hcount hvalid hsize (by omega)⟩
    rw [encodeSize_eq hs 0 0 0 hvalid (by omega), Nat.zero_add]
    rfl
  · rintro wire slots cap arena out rfl hok
    obtain ⟨hwire, hs, hfields, hvalid, hcount, hsize, hheaders, hnum, hlen, hslices⟩ :=
      headersDecode_ok hok
    have hsqueeze : squeeze wire = wireOf hs := by rw [squeeze, hfields, wireOf]
    have hshort := length_squeeze wire
    rw [hheaders, hsqueeze]
    rw [hsqueeze] at hshort
    exact ⟨hlen.trans hnum.symm, ⟨_, hsize, hslices⟩, hvalid, fun room hroom =>
      headersWrite_eq hcount hvalid (by omega) hroom (by omega)⟩
  · exact fun _ _ _ _ => headersDecode_failed
  · exact fun _ _ => headersWrite_failed

/-- Two headers of one name, the second without a value. -/
def sampleHeaders : List Header := [⟨text "a", text "b"⟩, ⟨text "a", []⟩]

/-- The sample is within the limits, and its wire string with empty segments put in is accepted and
encoded back without them. -/
theorem headers_codec_sample :
    headersWrite (some sampleHeaders) (some 9) =
        { rc := .ok, stored := text "YQ:Yg;YQ:", written := 9 } ∧
      headersWrite (some (headersDecode (some (text ";YQ:Yg;;YQ:;")) (some 2) (some 3)
          fun _ => 0).headers) (some 9) =
        { rc := .ok, stored := text "YQ:Yg;YQ:", written := 9 } := by
  have hwire : wireOf sampleHeaders = text "YQ:Yg;YQ:" := by decide +kernel
  have hsqueeze : squeeze (text ";YQ:Yg;;YQ:;") = text "YQ:Yg;YQ:" := by decide +kernel
  have hvalid : ∀ h ∈ sampleHeaders, ValidHeader h := by
    unfold ValidHeader
    decide +kernel
  constructor
  · have h := (headers_codec.1 sampleHeaders 9 (by decide) hvalid (by decide)
      (by rw [hwire]; decide)).2.1
    rw [hwire] at h
    exact h
  · have h := (headers_codec.2.1 (text ";YQ:Yg;;YQ:;") 2 3 (fun _ => 0) _ rfl (by decide +kernel)).2.2.2
      9 (by rw [hsqueeze]; decide)
    rw [hsqueeze] at h
    exact h

end EspCfTunnel.Headers
