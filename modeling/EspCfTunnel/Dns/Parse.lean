import Mathlib.Data.List.Basic
import Mathlib.Data.List.Forall2
import EspCfTunnel.Dns.Name
import EspCfTunnel.Dns.Select

/-!
# DNS responses

`cf_dns_parse`, against the grammar of the responses it accepts (`Response`). One loop walks the
records of the three sections; a record is taken if it stands in the answer section and answers the
question, and then it has to be valid. `dnsParse_iff` says that a packet is accepted exactly when it
is a response, with the records that the response lists.
-/

namespace EspCfTunnel.Dns

open EspCfTunnel

/-- `CF_DNS_PACKET_MAX`. -/
abbrev packetMax : Nat := 1232

/-- `CF_DNS_RECORD_MAX`. -/
abbrev recordMax : Nat := 16

/-- `CF_EDGE_PORT`. -/
abbrev edgePort : Nat := 7844

/-- `cf_dns_type`. -/
inductive RecordType
  | a | srv
  deriving DecidableEq, Repr

/-- The number of a type. -/
def RecordType.code : RecordType → Nat
  | .a => 1
  | .srv => 33

/-- `u16`. -/
def u16 (packet : Bytes) (pos : Nat) : Nat :=
  (packet.getD pos 0).toNat * 256 + (packet.getD (pos + 1) 0).toNat

/-- `u32`. -/
def u32 (packet : Bytes) (pos : Nat) : Nat := u16 packet pos * 2 ^ 16 + u16 packet (pos + 2)

/-- `suffix` in `cf_dns_edge_target`. -/
def edgeSuffix : Bytes := text ".argotunnel.com"

/-- `cf_dns_edge_target`. -/
def edgeTarget (name : Bytes) : Bool :=
  name.length > edgeSuffix.length ∧ name.length ≤ nameMax ∧
    name.drop (name.length - edgeSuffix.length) = edgeSuffix

/-- The part of `cf_dns_parse` that reads the `len` bytes of data of a record that answers the
question. -/
def parseData (packet : Bytes) (type : RecordType) (pos len ttl : Nat) : Except Result Record :=
  match type with
  | .a =>
    if len ≠ 4 then .error .format
    else
      let ip := (packet.drop pos).take 4
      if ip.getD 0 0 = 0 ∨ ip.getD 0 0 ≥ 224 ∨ ip.getD 0 0 = 127 then .error .format
      else .ok { ip, ttl }
  | .srv =>
    if len < 7 then .error .format
    else
      match readName packet (pos + 6) with
      | .error rc => .error rc
      | .ok (target, stop) =>
        if stop ≠ pos + len ∨ u16 packet (pos + 4) ≠ edgePort ∨ !edgeTarget target then
          .error .unsupported
        else
          .ok { target, ttl, priority := u16 packet pos, weight := u16 packet (pos + 2),
                port := u16 packet (pos + 4) }

/-- The loop of `cf_dns_parse` over the records, with `left` of them to go: the number of the next
one, the position and the records taken so far. -/
def parseRecords (packet name : Bytes) (type : RecordType) (answers : Nat) :
    Nat → Nat → Nat → Answer → Except Result (Nat × Answer)
  | 0, _, pos, out => .ok (pos, out)
  | left + 1, i, pos, out =>
    match readName packet pos with
    | .error rc => .error rc
    | .ok (owner, pos) =>
      if pos + 10 > packet.length then .error .truncated
      else
        let len := u16 packet (pos + 8)
        if len > packet.length - (pos + 10) then .error .truncated
        else if i < answers ∧ u16 packet pos = type.code ∧ u16 packet (pos + 2) = 1 ∧ owner = name then
          if out.length ≥ recordMax then .error .limit
          else
            match parseData packet type (pos + 10) len (u32 packet (pos + 4)) with
            | .error rc => .error rc
            | .ok record =>
              parseRecords packet name type answers left (i + 1) (pos + 10 + len) (out ++ [record])
        else parseRecords packet name type answers left (i + 1) (pos + 10 + len) out

/-- `cf_dns_parse`, for pointers that are not null: the result, and the records in `out`, which a
failure leaves empty. -/
def dnsParse (packet name : Bytes) (type : RecordType) (id : Nat) : Result × Answer :=
  if packet.length < 12 then (.truncated, [])
  else if packet.length > packetMax then (.limit, [])
  else if u16 packet 0 ≠ id ∨ packet.getD 2 0 &&& 0xf8 ≠ 0x80 ∨ u16 packet 4 ≠ 1 then (.format, [])
  else if packet.getD 2 0 &&& 2 ≠ 0 then (.truncated, [])
  else if packet.getD 3 0 &&& 15 ≠ 0 then (.state, [])
  else
    match readName packet 12 with
    | .error rc => (rc, [])
    | .ok (owner, pos) =>
      if owner ≠ name ∨ pos + 4 > packet.length ∨ u16 packet pos ≠ type.code ∨
          u16 packet (pos + 2) ≠ 1 then (.format, [])
      else
        let answers := u16 packet 6
        let count := answers + u16 packet 8 + u16 packet 10
        if count > 64 then (.limit, [])
        else
          match parseRecords packet name type answers count 0 (pos + 4) [] with
          | .error rc => (rc, [])
          | .ok (pos, out) =>
            if pos ≠ packet.length then (.format, [])
            else (if out.length ≠ 0 then .ok else .state, out)

/-! ## The grammar of responses -/

/-- A resource record: its fields, and where its data lies. -/
structure Resource where
  owner : Bytes
  recordType : Nat
  recordClass : Nat
  ttl : Nat
  data : Nat
  len : Nat
  deriving DecidableEq, Repr

/-- The record at an offset, whose data fits the packet, and the offset behind it. -/
def ResourceAt (packet : Bytes) (pos : Nat) (r : Resource) (stop : Nat) : Prop :=
  ∃ mid, IsName packet pos r.owner mid ∧ mid + 10 ≤ packet.length ∧ r.recordType = u16 packet mid ∧
    r.recordClass = u16 packet (mid + 2) ∧ r.ttl = u32 packet (mid + 4) ∧
    r.len = u16 packet (mid + 8) ∧ r.data = mid + 10 ∧ r.data + r.len ≤ packet.length ∧
    stop = r.data + r.len

/-- The records that follow one another from an offset on. -/
inductive ResourcesAt (packet : Bytes) : Nat → List Resource → Nat → Prop
  | nil {pos : Nat} : ResourcesAt packet pos [] pos
  | cons {pos mid stop : Nat} {r : Resource} {rs : List Resource} (h : ResourceAt packet pos r mid)
      (rest : ResourcesAt packet mid rs stop) : ResourcesAt packet pos (r :: rs) stop

/-- The record answers the question. -/
def Resource.Answers (r : Resource) (name : Bytes) (type : RecordType) : Prop :=
  r.recordType = type.code ∧ r.recordClass = 1 ∧ r.owner = name

instance (r : Resource) (name : Bytes) (type : RecordType) : Decidable (r.Answers name type) :=
  inferInstanceAs (Decidable (_ ∧ _ ∧ _))

/-- The valid data of a record, by its type: an address of four bytes that is a unicast one, or the
name of an edge, which ends where the data ends. -/
def IsRecord (packet : Bytes) : RecordType → Resource → Record → Prop
  | .a, r, record => r.len = 4 ∧ ∃ a b c d, (packet.drop r.data).take 4 = [a, b, c, d] ∧
      a ≠ 0 ∧ a ≠ 127 ∧ a < 224 ∧ record = { ip := [a, b, c, d], ttl := r.ttl }
  | .srv, r, record => ∃ before, before ≠ [] ∧
      IsName packet (r.data + 6) (before ++ edgeSuffix) (r.data + r.len) ∧
      u16 packet (r.data + 4) = edgePort ∧
      record = { target := before ++ edgeSuffix, ttl := r.ttl, priority := u16 packet r.data,
                 weight := u16 packet (r.data + 2), port := edgePort }

/-- A response to the question for `name` and `type` with the given identifier, and the records it
lists. -/
structure Response (packet name : Bytes) (type : RecordType) (id : Nat) (out : Answer) : Prop where
  size : 12 ≤ packet.length ∧ packet.length ≤ packetMax
  ident : u16 packet 0 = id
  /-- `QR` is set, `opcode` is zero, `TC` is clear. -/
  flags : (packet.getD 2 0).toNat / 128 = 1 ∧ (packet.getD 2 0).toNat / 8 % 16 = 0 ∧
    (packet.getD 2 0).toNat / 2 % 2 = 0
  rcode : (packet.getD 3 0).toNat % 16 = 0
  questions : u16 packet 4 = 1
  count : u16 packet 6 + u16 packet 8 + u16 packet 10 ≤ 64
  records : ∃ pos rs, IsName packet 12 name pos ∧ pos + 4 ≤ packet.length ∧
    u16 packet pos = type.code ∧ u16 packet (pos + 2) = 1 ∧
    ResourcesAt packet (pos + 4) rs packet.length ∧
    rs.length = u16 packet 6 + u16 packet 8 + u16 packet 10 ∧
    List.Forall₂ (IsRecord packet type) ((rs.take (u16 packet 6)).filter (·.Answers name type)) out
  answers : 1 ≤ out.length ∧ out.length ≤ recordMax

/-! ## One record -/

theorem edgeTarget_iff {name : Bytes} (h : name.length ≤ nameMax) :
    edgeTarget name = true ↔ ∃ before, before ≠ [] ∧ name = before ++ edgeSuffix := by
  rw [edgeTarget, decide_eq_true_iff]
  constructor
  · rintro ⟨hlong, -, hdrop⟩
    refine ⟨name.take (name.length - edgeSuffix.length), ?_, ?_⟩
    · rw [Ne, ← List.length_eq_zero_iff, List.length_take]
      omega
    · conv_lhs => rw [← List.take_append_drop (name.length - edgeSuffix.length) name, hdrop]
  · rintro ⟨before, hne, rfl⟩
    have hlen : before.length ≠ 0 := by simpa using hne
    refine ⟨?_, h, ?_⟩
    · rw [List.length_append]
      omega
    · simp

/-- **The data of a record** is read exactly if it is valid. -/
theorem parseData_iff {packet : Bytes} {type : RecordType} {r : Resource} {record : Record}
    (h : r.data + r.len ≤ packet.length) :
    parseData packet type r.data r.len r.ttl = .ok record ↔ IsRecord packet type r record := by
  cases type with
  | a =>
    rw [parseData, IsRecord]
    by_cases hlen : r.len = 4
    · rw [if_neg (by simpa using hlen)]
      have hfour : ((packet.drop r.data).take 4).length = 4 := by
        rw [List.length_take, List.length_drop]
        omega
      obtain ⟨a, b, c, d, hip⟩ := List.length_eq_four.1 hfour
      rw [hip]
      dsimp only [List.getD_cons_zero]
      constructor
      · intro hp
        split at hp
        · cases hp
        next hfirst =>
        cases hp
        rw [not_or, not_or, ge_iff_le, UInt8.not_le] at hfirst
        exact ⟨hlen, a, b, c, d, rfl, hfirst.1, hfirst.2.2, hfirst.2.1, rfl⟩
      · rintro ⟨-, _, _, _, _, heq, ha, ha', ha'', rfl⟩
        cases heq
        rw [if_neg]
        rintro (h0 | h0 | h0)
        · exact ha h0
        · exact UInt8.not_le.2 ha'' h0
        · exact ha' h0
    · rw [if_pos hlen]
      exact ⟨nofun, fun hr => absurd hr.1 hlen⟩
  | srv =>
    rw [parseData, IsRecord]
    constructor
    · intro hp
      split at hp
      · cases hp
      next hlen =>
      cases hn : readName packet (r.data + 6) with
      | error rc => rw [hn] at hp; cases hp
      | ok res =>
        obtain ⟨target, stop⟩ := res
        rw [hn] at hp
        dsimp only at hp
        split at hp
        · cases hp
        next hcheck =>
        rw [not_or, not_or, not_not, not_not, Bool.not_eq_true', Bool.not_eq_false] at hcheck
        obtain ⟨rfl, hport, hedge⟩ := hcheck
        have hname := readName_iff.1 hn
        obtain ⟨before, hne, rfl⟩ := (edgeTarget_iff hname.length_le).1 hedge
        cases hp
        exact ⟨before, hne, hname, hport, by rw [hport]⟩
    · rintro ⟨before, hne, hname, hport, rfl⟩
      have hlt := hname.lt_stop
      have hedge : edgeTarget (before ++ edgeSuffix) = true :=
        (edgeTarget_iff hname.length_le).2 ⟨before, hne, rfl⟩
      rw [if_neg (by omega), readName_iff.2 hname]
      dsimp only
      rw [if_neg (by simp [hport, hedge]), hport]

/-! ## The records -/

/-- The matching records among those that are left, the next being number `i`. -/
def matching (name : Bytes) (type : RecordType) (answers i : Nat) (rs : List Resource) :
    List Resource := (rs.take (answers - i)).filter (·.Answers name type)

/-- The next record, if it matches, -/
theorem matching_pos {name : Bytes} {type : RecordType} {answers i : Nat} {r : Resource}
    {rs : List Resource} (hi : i < answers) (hr : r.Answers name type) :
    matching name type answers i (r :: rs) = r :: matching name type answers (i + 1) rs := by
  rw [matching, show answers - i = answers - (i + 1) + 1 by omega, List.take_succ_cons,
    List.filter_cons_of_pos (by simpa using hr)]
  rfl

/-- and if it does not. -/
theorem matching_neg {name : Bytes} {type : RecordType} {answers i : Nat} {r : Resource}
    {rs : List Resource} (h : ¬ (i < answers ∧ r.Answers name type)) :
    matching name type answers i (r :: rs) = matching name type answers (i + 1) rs := by
  rcases Nat.lt_or_ge i answers with hi | hi
  · have hr : ¬ r.Answers name type := fun hr => h ⟨hi, hr⟩
    rw [matching, show answers - i = answers - (i + 1) + 1 by omega, List.take_succ_cons,
      List.filter_cons_of_neg (by simpa using hr)]
    rfl
  · rw [matching, matching, show answers - i = 0 by omega, show answers - (i + 1) = 0 by omega]
    simp

/-- **The loop accepts records** that follow one another, and takes the valid ones among them that
answer the question. -/
theorem parseRecords_ok {packet name : Bytes} {type : RecordType} {answers : Nat} (left : Nat)
    {i pos stop : Nat} {out out' : Answer} (hout : out.length ≤ recordMax)
    (h : parseRecords packet name type answers left i pos out = .ok (stop, out')) :
    ∃ rs new, ResourcesAt packet pos rs stop ∧ rs.length = left ∧ out' = out ++ new ∧
      List.Forall₂ (IsRecord packet type) (matching name type answers i rs) new ∧
      out'.length ≤ recordMax := by
  induction left generalizing i pos out with
  | zero =>
    cases h
    exact ⟨[], [], .nil, rfl, (List.append_nil _).symm, by simp [matching], hout⟩
  | succ left ih =>
    rw [parseRecords] at h
    cases hn : readName packet pos with
    | error rc => rw [hn] at h; cases h
    | ok res =>
      obtain ⟨owner, mid⟩ := res
      rw [hn] at h
      dsimp only at h
      split at h
      · cases h
      next hhead =>
      split at h
      · cases h
      next hdata =>
      obtain ⟨r, hr⟩ : ∃ r : Resource, r = ⟨owner, u16 packet mid, u16 packet (mid + 2),
        u32 packet (mid + 4), mid + 10, u16 packet (mid + 8)⟩ := ⟨_, rfl⟩
      have hat : ResourceAt packet pos r (mid + 10 + u16 packet (mid + 8)) := by
        subst hr
        exact ⟨mid, readName_iff.1 hn, by omega, rfl, rfl, rfl, rfl, rfl, by dsimp only; omega, rfl⟩
      have hinside : r.data + r.len ≤ packet.length := by
        subst hr
        dsimp only
        omega
      have hiff : (i < answers ∧ u16 packet mid = type.code ∧ u16 packet (mid + 2) = 1 ∧ owner = name) ↔
          i < answers ∧ r.Answers name type := by
        subst hr
        rfl
      split at h
      · next hmatch =>
        obtain ⟨hi, hanswers⟩ := hiff.1 hmatch
        split at h
        · cases h
        next hfull =>
        cases hd : parseData packet type (mid + 10) (u16 packet (mid + 8)) (u32 packet (mid + 4)) with
        | error rc => rw [hd] at h; cases h
        | ok record =>
          rw [hd] at h
          have hrecord : IsRecord packet type r record := by
            refine (parseData_iff hinside).1 ?_
            subst hr
            exact hd
          obtain ⟨rs, new, hrs, hlen, hnew, hall, hmax⟩ := ih (by simp; omega) h
          refine ⟨r :: rs, record :: new, .cons hat hrs, by simp [hlen], by simp [hnew], ?_, hmax⟩
          rw [matching_pos hi hanswers]
          exact .cons hrecord hall
      · next hno =>
        obtain ⟨rs, new, hrs, hlen, hnew, hall, hmax⟩ := ih hout h
        refine ⟨r :: rs, new, .cons hat hrs, by simp [hlen], hnew, ?_, hmax⟩
        rwa [matching_neg (fun hm => hno (hiff.2 hm))]

/-- **Records of the grammar** are accepted. -/
theorem ResourcesAt.parseRecords {packet name : Bytes} {type : RecordType} {answers pos stop : Nat}
    {rs : List Resource} (h : ResourcesAt packet pos rs stop) {i : Nat} {out new : Answer}
    (hall : List.Forall₂ (IsRecord packet type) (matching name type answers i rs) new)
    (hmax : (out ++ new).length ≤ recordMax) :
    Dns.parseRecords packet name type answers rs.length i pos out = .ok (stop, out ++ new) := by
  induction h generalizing i out new with
  | nil =>
    have hnil : new = [] := by simpa [matching] using hall
    rw [hnil, List.append_nil]
    rfl
  | @cons pos mid stop r rs h rest ih =>
    obtain ⟨m, hname, hhead, htype, hclass, httl, hlen, hdata, hinside, rfl⟩ := h
    rw [List.length_cons, Dns.parseRecords, readName_iff.2 hname]
    dsimp only
    rw [← htype, ← hclass, ← httl, ← hlen, ← hdata, if_neg (by omega), if_neg (by omega)]
    by_cases hmatch : i < answers ∧ r.Answers name type
    · obtain ⟨hi, hanswers⟩ := hmatch
      rw [matching_pos hi hanswers] at hall
      obtain ⟨record, new', hrecord, hrest, rfl⟩ := List.forall₂_cons_left_iff.1 hall
      have hfull : ¬ out.length ≥ recordMax := by
        rw [List.length_append, List.length_cons] at hmax
        omega
      rw [if_pos ⟨hi, hanswers⟩, if_neg hfull, (parseData_iff hinside).2 hrecord]
      dsimp only
      rw [ih hrest (by simpa using hmax)]
      simp
    · rw [matching_neg hmatch] at hall
      exact (if_neg hmatch).trans (ih hall hmax)

/-! ## The packet -/

/-- The bits of the two flag bytes that `cf_dns_parse` looks at. -/
theorem flag_bits (n : UInt8) :
    (n &&& 0xf8 = 0x80 ↔ n.toNat / 128 = 1 ∧ n.toNat / 8 % 16 = 0) ∧
      (n &&& 2 = 0 ↔ n.toNat / 2 % 2 = 0) ∧ (n &&& 15 = 0 ↔ n.toNat % 16 = 0) := by
  revert n
  exact Bytes.forall_byte (by decide +kernel)

/-- No part fails with `CF_OK`. -/
theorem parseData_error (packet : Bytes) (type : RecordType) (pos len ttl : Nat) :
    parseData packet type pos len ttl ≠ .error .ok := by
  have hname := readName_error packet (pos + 6)
  intro h
  cases type <;> rw [parseData] at h <;> grind

theorem parseRecords_error (packet name : Bytes) (type : RecordType) (answers left i pos : Nat)
    (out : Answer) : parseRecords packet name type answers left i pos out ≠ .error .ok := by
  induction left generalizing i pos out with
  | zero => nofun
  | succ left ih =>
    have hname := readName_error packet pos
    have hdata := parseData_error packet type
    intro h
    rw [parseRecords] at h
    grind

/-- A packet that is accepted is a response. -/
theorem dnsParse_ok {packet name : Bytes} {type : RecordType} {id : Nat} {out : Answer}
    (h : dnsParse packet name type id = (.ok, out)) : Response packet name type id out := by
  rw [dnsParse] at h
  split at h
  · cases h
  next hshort =>
  split at h
  · cases h
  next hlong =>
  split at h
  · cases h
  next hhead =>
  split at h
  · cases h
  next htc =>
  split at h
  · cases h
  next hrcode =>
  rw [not_or, not_or, not_not, not_not, not_not] at hhead
  rw [not_not] at htc hrcode
  obtain ⟨hid, hqr, hquestions⟩ := hhead
  cases hn : readName packet 12 with
  | error rc =>
    rw [hn] at h
    cases h
    exact absurd hn (readName_error _ _)
  | ok res =>
    obtain ⟨owner, pos⟩ := res
    rw [hn] at h
    dsimp only at h
    split at h
    · cases h
    next hquestion =>
    split at h
    · cases h
    next hcount =>
    rw [not_or, not_or, not_or, not_not, not_not, not_not] at hquestion
    obtain ⟨rfl, hroom, htype, hclass⟩ := hquestion
    cases hrs : parseRecords packet owner type (u16 packet 6)
        (u16 packet 6 + u16 packet 8 + u16 packet 10) 0 (pos + 4) [] with
    | error rc =>
      rw [hrs] at h
      cases h
      exact absurd hrs (parseRecords_error _ _ _ _ _ _ _ _)
    | ok res =>
      obtain ⟨stop, found⟩ := res
      rw [hrs] at h
      dsimp only at h
      split at h
      · cases h
      next hend =>
      rw [not_not] at hend
      subst hend
      split at h
      · next hsome =>
        cases h
        obtain ⟨rs, new, hat, hlen, rfl, hall, hmax⟩ := parseRecords_ok _ (Nat.zero_le _) hrs
        exact {
          size := by omega
          ident := hid
          flags := ⟨((flag_bits _).1.1 hqr).1, ((flag_bits _).1.1 hqr).2, (flag_bits _).2.1.1 htc⟩
          rcode := (flag_bits _).2.2.1 hrcode
          questions := hquestions
          count := by omega
          records := ⟨pos, rs, readName_iff.1 hn, by omega, htype, hclass, hat, hlen, hall⟩
          answers := ⟨Nat.pos_of_ne_zero hsome, hmax⟩ }
      · cases h

/-- A response is accepted. -/
theorem Response.dnsParse {packet name : Bytes} {type : RecordType} {id : Nat} {out : Answer}
    (h : Response packet name type id out) : Dns.dnsParse packet name type id = (.ok, out) := by
  obtain ⟨pos, rs, hname, hroom, htype, hclass, hat, hlen, hall⟩ := h.records
  have hqr := (flag_bits (packet.getD 2 0)).1.2 ⟨h.flags.1, h.flags.2.1⟩
  have htc := (flag_bits (packet.getD 2 0)).2.1.2 h.flags.2.2
  have hrcode := (flag_bits (packet.getD 3 0)).2.2.2 h.rcode
  have hrun : Dns.parseRecords packet name type (u16 packet 6) rs.length 0 (pos + 4) [] =
      .ok (packet.length, [] ++ out) := hat.parseRecords hall h.answers.2
  have hsize := h.size
  have hcount := h.count
  have hsome : out.length ≠ 0 := by
    have := h.answers.1
    omega
  rw [hlen] at hrun
  have hhead : ¬ (u16 packet 0 ≠ id ∨ packet.getD 2 0 &&& 0xf8 ≠ 0x80 ∨ u16 packet 4 ≠ 1) := by
    rintro (hne | hne | hne)
    · exact hne h.ident
    · exact hne hqr
    · exact hne h.questions
  rw [Dns.dnsParse, if_neg (by omega), if_neg (by omega), if_neg hhead, if_neg (not_not.2 htc),
    if_neg (not_not.2 hrcode), readName_iff.2 hname]
  dsimp only
  rw [if_neg (by simp [htype, hclass]; omega), if_neg (by omega), hrun]
  dsimp only
  rw [if_neg (by simp), List.nil_append, if_pos hsome]

/-- A packet that is not accepted leaves no records. -/
theorem dnsParse_failed {packet name : Bytes} {type : RecordType} {id : Nat}
    (h : (dnsParse packet name type id).1 ≠ .ok) : (dnsParse packet name type id).2 = [] := by
  obtain ⟨⟨rc, out⟩, hparse⟩ : ∃ r, dnsParse packet name type id = r := ⟨_, rfl⟩
  rw [hparse] at h ⊢
  rw [dnsParse] at hparse
  -- the five checks of the header, the name of the question, and the check of the question
  iterate 7
    split at hparse
    · cases hparse
      rfl
  dsimp only at hparse
  -- the number of records, the records, and the end of the packet
  iterate 3
    split at hparse
    · cases hparse
      rfl
  split at hparse
  · cases hparse
    exact absurd rfl h
  · next hnone =>
    cases hparse
    exact List.length_eq_zero_iff.1 (not_not.1 hnone)

/-- **`cf_dns_parse` accepts exactly its grammar**: a packet is accepted if and only if it is a
response to the question, and then the output lists the valid records of the answer section that
answer it, in their order; otherwise the output is empty. -/
theorem dns_grammar (packet name : Bytes) (type : RecordType) (id : Nat) :
    ((dnsParse packet name type id).1 = .ok ↔ ∃ out, Response packet name type id out) ∧
      (∀ out, Response packet name type id out → (dnsParse packet name type id).2 = out) ∧
      ((dnsParse packet name type id).1 ≠ .ok → (dnsParse packet name type id).2 = []) := by
  refine ⟨⟨?_, ?_⟩, ?_, dnsParse_failed⟩
  · intro h
    exact ⟨(dnsParse packet name type id).2, dnsParse_ok (Prod.ext h rfl)⟩
  · rintro ⟨out, h⟩
    rw [h.dnsParse]
  · intro out h
    rw [h.dnsParse]

/-- The answer to a question for the addresses of `a`, with the owner as a pointer to the question. -/
def samplePacket : Bytes :=
  [0x12, 0x34, 0x81, 0x80, 0, 1, 0, 1, 0, 0, 0, 0, 1, 97, 0, 0, 1, 0, 1,
    0xc0, 12, 0, 1, 0, 1, 0, 0, 1, 0x2c, 0, 4, 192, 0, 2, 1]

theorem dns_grammar_address :
    ∃ out, Response samplePacket (text "a") .a 0x1234 out ∧
      out = [{ ip := [192, 0, 2, 1], ttl := 300 }] := by
  have hparse : dnsParse samplePacket (text "a") .a 0x1234 =
      (.ok, [{ ip := [192, 0, 2, 1], ttl := 300 }]) := by decide +kernel
  obtain ⟨out, h⟩ := (dns_grammar samplePacket (text "a") .a 0x1234).1.1 (by rw [hparse])
  refine ⟨out, h, ?_⟩
  rw [← (dns_grammar samplePacket (text "a") .a 0x1234).2.1 out h, hparse]

end EspCfTunnel.Dns
