import EspCfTunnel.Dns.Prefix

/-!
# DNS queries

`cf_dns_query`. A name is split at its dots (`dnsQuery_iff`), and what the query carries for it is read
back by `read_name` in lower case (`nameAt_encoded`). A target that was discovered is in lower case
already, so a query for it and the answer to that query go through; a name with upper-case letters is
asked for, but no answer is accepted for it.
-/

namespace EspCfTunnel.Dns

open EspCfTunnel

/-- `put16`. -/
def put16 (n : Nat) : Bytes := [UInt8.ofNat (n / 256), UInt8.ofNat n]

/-- The loop of `cf_dns_query`, with `left` of its rounds to go: `i`, `label`, `start` and what is
written so far. -/
def queryLoop (name : Bytes) : Nat → Nat → Nat → Nat → Bytes → Except Result Bytes
  | 0, _, _, _, out => .ok out
  | left + 1, i, label, start, out =>
    if i = name.length ∨ name.getD i 0 = 46 then
      if label = 0 ∨ label > 63 then .error .argument
      else
        queryLoop name left (i + 1) 0 (i + 1)
          (out ++ UInt8.ofNat label :: ((name.drop start).take (i - start)).map lower)
    else if !nameChar (lower (name.getD i 0)) then .error .argument
    else queryLoop name left (i + 1) (label + 1) start out

/-- The first 12 bytes of a query: RD, QD=1, AR=1. -/
def queryHeader (id : Nat) : Bytes := put16 id ++ [1, 0, 0, 1, 0, 0, 0, 0, 0, 1]

/-- EDNS0 OPT advertises a bounded UDP payload, no DNSSEC flag/options. -/
def queryOptions : Bytes := 0 :: (put16 41 ++ put16 packetMax ++ List.replicate 6 0)

/-- `cf_dns_query`, for pointers that are not null: what is written. -/
def dnsQuery (name : Bytes) (type : RecordType) (id cap : Nat) : Except Result Bytes :=
  if name.length = 0 ∨ name.length > nameMax ∨ cap < name.length + 29 then .error .limit
  else
    match queryLoop name (name.length + 1) 0 0 0 (queryHeader id) with
    | .error rc => .error rc
    | .ok out => .ok (out ++ 0 :: (put16 type.code ++ put16 1 ++ queryOptions))

/-! ## The labels of a name -/

/-- A label that may be asked for. -/
def goodLabel (label : Bytes) : Bool :=
  1 ≤ label.length ∧ label.length ≤ 63 ∧ label.all fun c => nameChar (lower c)

/-- The labels as they are sent, without the empty one at the end. -/
def encodeLabels (labels : List Bytes) : Bytes :=
  labels.flatMap fun label => UInt8.ofNat label.length :: label.map lower

theorem dot_not_nameChar : nameChar (lower 46) = false := by decide

theorem not_mem_dot {label : Bytes} (h : ∀ c ∈ label, nameChar (lower c) = true) : 46 ∉ label := by
  intro hdot
  have := h 46 hdot
  rw [dot_not_nameChar] at this
  cases this

/-- The characters of a name are dots and those of its labels. -/
theorem mem_splitOn_of_mem {name : Bytes} {c : UInt8} (hc : c ∈ name) (hdot : c ≠ 46) :
    ∃ label ∈ name.splitOn 46, c ∈ label := by
  rw [show name = [46].intercalate (name.splitOn 46) from (List.intercalate_splitOn 46).symm] at hc
  generalize name.splitOn 46 = labels at hc
  induction labels with
  | nil => cases hc
  | cons label labels ih =>
    cases labels with
    | nil => exact ⟨label, List.mem_cons_self, by simpa using hc⟩
    | cons next labels =>
      rw [List.intercalate_cons_cons, List.mem_append, List.mem_append] at hc
      rcases hc with (hc | hc) | hc
      · exact ⟨label, List.mem_cons_self, hc⟩
      · exact absurd (List.mem_singleton.1 hc) hdot
      · obtain ⟨l, hl, hmem⟩ := ih hc
        exact ⟨l, List.mem_cons_of_mem _ hl, hmem⟩

theorem goodLabel_iff {label : Bytes} : goodLabel label = true ↔
    (1 ≤ label.length ∧ label.length ≤ 63) ∧ ∀ c ∈ label, nameChar (lower c) = true := by
  rw [goodLabel, decide_eq_true_iff, List.all_eq_true, and_assoc]

/-- The loop sends the labels of what is left, `current` being the label it is in. -/
theorem queryLoop_eq {name : Bytes} (rest before current out : Bytes)
    (hname : name = before ++ (current ++ rest)) (hcurrent : ∀ c ∈ current, nameChar (lower c) = true) :
    queryLoop name (rest.length + 1) (before.length + current.length) current.length before.length out =
      if ((current ++ rest).splitOn 46).all goodLabel then
        .ok (out ++ encodeLabels ((current ++ rest).splitOn 46))
      else .error .argument := by
  have htake : ∀ {before current rest : Bytes}, name = before ++ (current ++ rest) →
      (name.drop before.length).take (before.length + current.length - before.length) = current := by
    rintro before current rest rfl
    rw [List.drop_left, Nat.add_sub_cancel_left, List.take_left]
  have hgood : ∀ {label : Bytes}, (∀ c ∈ label, nameChar (lower c) = true) →
      (goodLabel label = true ↔ ¬ (label.length = 0 ∨ label.length > 63)) := by
    intro label h
    rw [goodLabel_iff, and_iff_left h]
    omega
  induction rest generalizing before current out with
  | nil =>
    rw [queryLoop, if_pos (by left; simp [hname]), List.append_nil,
      List.splitOn_eq_singleton (not_mem_dot hcurrent), htake hname]
    by_cases hlabel : goodLabel current = true
    · rw [if_neg ((hgood hcurrent).1 hlabel), if_pos (by simpa using hlabel)]
      simp [queryLoop, encodeLabels]
    · rw [if_pos (not_not.1 fun h => hlabel ((hgood hcurrent).2 h)), if_neg (by simpa using hlabel)]
  | cons c rest ih =>
    have hchar : name.getD (before.length + current.length) 0 = c := by
      rw [hname, List.getD_append_right _ _ _ _ (by omega), Nat.add_sub_cancel_left,
        List.getD_append_right _ _ _ _ (by omega), Nat.sub_self, List.getD_cons_zero]
    have hinside : before.length + current.length ≠ name.length := by
      rw [hname]
      simp
    rw [List.length_cons, queryLoop, hchar, htake hname]
    by_cases hdot : c = 46
    · -- The end of a label.
      subst hdot
      rw [if_pos (Or.inr rfl), List.splitOn_append_cons_self_of_not_mem (not_mem_dot hcurrent),
        List.all_cons]
      by_cases hlabel : goodLabel current = true
      · have hlen : (before ++ (current ++ [46])).length = before.length + current.length + 1 := by
          simp only [List.length_append, List.length_singleton]
          omega
        have hnext := ih (before ++ (current ++ [46])) []
          (out ++ UInt8.ofNat current.length :: current.map lower) (by simp [hname]) (by simp)
        rw [hlen, List.nil_append] at hnext
        rw [if_neg ((hgood hcurrent).1 hlabel), hlabel, Bool.true_and]
        refine hnext.trans ?_
        congr 2
        simp [encodeLabels]
      · rw [if_pos (not_not.1 fun h => hlabel ((hgood hcurrent).2 h)), if_neg (by simp [hlabel])]
    · rw [if_neg (by simp [hinside, hdot])]
      by_cases hc : nameChar (lower c) = true
      · have hnext := ih before (current ++ [c]) out (by simp [hname])
          (by simpa [or_imp, forall_and] using ⟨hcurrent, hc⟩)
        rw [List.length_append, List.length_singleton, ← Nat.add_assoc, List.append_assoc,
          List.singleton_append] at hnext
        rw [if_neg (by simp [hc])]
        exact hnext
      · rw [if_pos (by simpa using hc), if_neg]
        intro hall
        have hmem : c ∈ current ++ c :: rest := by simp
        obtain ⟨label, hmem, hin⟩ := mem_splitOn_of_mem hmem hdot
        exact hc ((goodLabel_iff.1 (List.all_eq_true.1 hall label hmem)).2 c hin)

/-- The question section: the name, the type and the class. -/
def questionBytes (name : Bytes) (type : RecordType) : Bytes :=
  encodeLabels (name.splitOn 46) ++ 0 :: (put16 type.code ++ put16 1)

/-- `cf_dns_query` asks for the names that consist of good labels, within its limits. -/
theorem dnsQuery_iff {name query : Bytes} {type : RecordType} {id cap : Nat} :
    dnsQuery name type id cap = .ok query ↔
      name ≠ [] ∧ name.length ≤ nameMax ∧ name.length + 29 ≤ cap ∧
        (name.splitOn 46).all goodLabel = true ∧
        query = queryHeader id ++ (questionBytes name type ++ queryOptions) := by
  have hloop := queryLoop_eq name [] [] (queryHeader id) (show name = [] ++ ([] ++ name) from rfl) (by simp)
  rw [List.length_nil, List.nil_append] at hloop
  unfold dnsQuery
  by_cases hlimit : name.length = 0 ∨ name.length > nameMax ∨ cap < name.length + 29
  · rw [if_pos hlimit]
    refine ⟨nofun, fun ⟨hne, hmax, hcap, _⟩ => ?_⟩
    have := List.length_pos_iff.2 hne
    omega
  rw [if_neg hlimit, hloop]
  have hbounds : name ≠ [] ∧ name.length ≤ nameMax ∧ name.length + 29 ≤ cap := by
    refine ⟨List.ne_nil_of_length_pos ?_, ?_, ?_⟩ <;> omega
  have hbytes : queryHeader id ++ encodeLabels (name.splitOn 46) ++
      0 :: (put16 type.code ++ put16 1 ++ queryOptions) =
        queryHeader id ++ (questionBytes name type ++ queryOptions) := by
    simp [questionBytes]
  by_cases hgood : (name.splitOn 46).all goodLabel = true
  · rw [if_pos hgood]
    dsimp only
    rw [Except.ok.injEq, hbytes]
    exact ⟨fun h => ⟨hbounds.1, hbounds.2.1, hbounds.2.2, hgood, h.symm⟩, fun h => h.2.2.2.2.symm⟩
  · rw [if_neg hgood]
    exact ⟨nofun, fun h => absurd h.2.2.2.1 hgood⟩

/-! ## Sizes -/

theorem dotted_cons (label next : Bytes) (labels : List Bytes) :
    dotted (label :: next :: labels) = label ++ [46] ++ dotted (next :: labels) :=
  List.intercalate_cons_cons

theorem length_encodeLabels {labels : List Bytes} (h : labels ≠ []) :
    (encodeLabels labels).length = (dotted labels).length + 1 := by
  induction labels with
  | nil => exact absurd rfl h
  | cons label labels ih =>
    rw [encodeLabels, List.flatMap_cons, ← encodeLabels, List.length_append, List.length_cons,
      List.length_map]
    cases labels with
    | nil => simp [encodeLabels, dotted]
    | cons next labels =>
      rw [ih (by simp), dotted_cons, List.length_append, List.length_append, List.length_singleton]
      omega

theorem length_encoded (name : Bytes) : (encodeLabels (name.splitOn 46)).length = name.length + 1 := by
  rw [length_encodeLabels (List.splitOn_ne_nil 46 name), dotted, List.intercalate_splitOn]

theorem length_questionBytes (name : Bytes) (type : RecordType) :
    (questionBytes name type).length = name.length + 6 := by
  simp [questionBytes, put16, length_encoded]

theorem length_query (name : Bytes) (type : RecordType) (id : Nat) :
    (queryHeader id ++ (questionBytes name type ++ queryOptions)).length = name.length + 29 := by
  simp [queryHeader, queryOptions, put16, length_questionBytes]

/-! ## What is sent is read back -/

theorem getElem?_of_drop {packet rest : Bytes} {pos : Nat} {b : UInt8} (h : packet.drop pos = b :: rest) :
    packet[pos]? = some b := by
  have hhead : (packet.drop pos)[0]? = some b := by
    rw [h]
    rfl
  rwa [List.getElem?_drop, Nat.add_zero] at hhead

theorem lower_lower (c : UInt8) : lower (lower c) = lower c :=
  Bytes.forall_byte (P := fun c => lower (lower c) = lower c) (by decide +kernel) c

/-- The labels that are sent are read in lower case. -/
theorem nameAt_encoded {packet rest : Bytes} {labels : List Bytes} (hgood : labels.all goodLabel = true)
    {pos : Nat} (hpacket : packet.drop pos = encodeLabels labels ++ 0 :: rest) :
    NameAt packet pos 0 (labels.map (·.map lower)) (pos + (encodeLabels labels).length + 1) := by
  induction labels generalizing pos with
  | nil => exact .root (getElem?_of_drop hpacket)
  | cons label labels ih =>
    rw [List.all_cons, Bool.and_eq_true, goodLabel_iff] at hgood
    obtain ⟨⟨hbounds, hchars⟩, hrest⟩ := hgood
    have hcons : encodeLabels (label :: labels) =
        UInt8.ofNat label.length :: (label.map lower ++ encodeLabels labels) := by
      simp [encodeLabels]
    rw [hcons, List.cons_append, List.append_assoc] at hpacket
    have hdrop : packet.drop (pos + 1) = label.map lower ++ (encodeLabels labels ++ 0 :: rest) := by
      rw [← List.drop_drop, hpacket, List.drop_one, List.tail_cons]
    have hlength : (label.map lower).length = label.length := List.length_map _
    have hlabel : IsLabel packet pos (label.map lower) := by
      refine ⟨?_, ?_, fun c hc => ?_, ?_⟩
      · rw [hlength]
        exact getElem?_of_drop hpacket
      · rw [hlength]
        exact hbounds
      · obtain ⟨d, hd, rfl⟩ := List.mem_map.1 hc
        exact hchars d hd
      · rw [hdrop, List.take_left, List.map_map]
        exact List.map_congr_left fun c _ => lower_lower c
    have hnext : packet.drop (pos + 1 + (label.map lower).length) = encodeLabels labels ++ 0 :: rest := by
      rw [← List.drop_drop, hdrop, List.drop_left]
    have hstop : pos + (encodeLabels (label :: labels)).length + 1 =
        pos + 1 + (label.map lower).length + (encodeLabels labels).length + 1 := by
      rw [hcons, List.length_cons, List.length_append]
      omega
    rw [List.map_cons, hstop]
    exact .label hlabel (ih hrest hnext)

/-- With its dots, that is the name in lower case. -/
theorem dotted_map_lower (labels : List Bytes) :
    dotted (labels.map (·.map lower)) = (dotted labels).map lower := by
  induction labels with
  | nil => rfl
  | cons label labels ih =>
    cases labels with
    | nil => simp [dotted]
    | cons next labels =>
      rw [List.map_cons, List.map_cons, dotted_cons, ← List.map_cons, ih, dotted_cons, List.map_append,
        List.map_append]
      rfl

/-- **The name of a query** is read back in lower case. -/
theorem isName_encoded {packet rest name : Bytes} (hgood : (name.splitOn 46).all goodLabel = true)
    (hmax : name.length ≤ nameMax) {pos : Nat}
    (hpacket : packet.drop pos = encodeLabels (name.splitOn 46) ++ 0 :: rest) :
    IsName packet pos (name.map lower) (pos + name.length + 2) := by
  have hname := nameAt_encoded hgood hpacket
  rw [length_encoded] at hname
  refine ⟨0, _, hname, Nat.zero_le _, ?_, by simpa using hmax⟩
  rw [dotted_map_lower, dotted, List.intercalate_splitOn]

/-! ## The question of a response -/

/-- The part of `cf_dns_parse` up to the end of the question, which it gives. -/
def parseQuestion (packet name : Bytes) (type : RecordType) (id : Nat) : Except Result Nat :=
  if packet.length < 12 then .error .truncated
  else if packet.length > packetMax then .error .limit
  else if u16 packet 0 ≠ id ∨ packet.getD 2 0 &&& 0xf8 ≠ 0x80 ∨ u16 packet 4 ≠ 1 then .error .format
  else if packet.getD 2 0 &&& 2 ≠ 0 then .error .truncated
  else if packet.getD 3 0 &&& 15 ≠ 0 then .error .state
  else
    match readName packet 12 with
    | .error rc => .error rc
    | .ok (owner, pos) =>
      if owner ≠ name ∨ pos + 4 > packet.length ∨ u16 packet pos ≠ type.code ∨
          u16 packet (pos + 2) ≠ 1 then .error .format
      else .ok (pos + 4)

/-- The rest of `cf_dns_parse`. -/
def parseAnswers (packet name : Bytes) (type : RecordType) (pos : Nat) : Result × Answer :=
  let answers := u16 packet 6
  let count := answers + u16 packet 8 + u16 packet 10
  if count > 64 then (.limit, [])
  else
    match parseRecords packet name type answers count 0 pos [] with
    | .error rc => (rc, [])
    | .ok (pos, out) =>
      if pos ≠ packet.length then (.format, [])
      else (if out.length ≠ 0 then .ok else .state, out)

/-- `cf_dns_parse` reads the question and then the answers. -/
theorem dnsParse_eq (packet name : Bytes) (type : RecordType) (id : Nat) :
    dnsParse packet name type id = match parseQuestion packet name type id with
      | .error rc => (rc, [])
      | .ok pos => parseAnswers packet name type pos := by
  unfold dnsParse parseQuestion
  -- The five checks of the header.
  iterate 5
    split
    · rfl
  cases readName packet 12 with
  | error rc => rfl
  | ok res =>
    dsimp only
    split <;> rfl

/-- `QR` is set, `opcode` is zero, `TC` is clear and `RCODE` is zero. -/
def ResponseFlags (high low : UInt8) : Prop :=
  (high.toNat / 128 = 1 ∧ high.toNat / 8 % 16 = 0 ∧ high.toNat / 2 % 2 = 0) ∧ low.toNat % 16 = 0

instance (high low : UInt8) : Decidable (ResponseFlags high low) := inferInstanceAs (Decidable (_ ∧ _))

/-- A packet with the identifier, the flags of a response without error or truncation, and the question
section of the query as it was sent. -/
structure AnswersQuery (packet query name : Bytes) (id : Nat) : Prop where
  ident : u16 packet 0 = id
  flags : ResponseFlags (packet.getD 2 0) (packet.getD 3 0)
  questions : u16 packet 4 = 1
  question : (query.drop 12).take (name.length + 6) <+: packet.drop 12

/-- A number is read where it was written, -/
theorem u16_of_drop {packet rest : Bytes} {pos n : Nat} (h : packet.drop pos = put16 n ++ rest) :
    u16 packet pos = n % 2 ^ 16 := by
  have hhigh : packet[pos]? = some (UInt8.ofNat (n / 256)) := getElem?_of_drop h
  have hnext : packet.drop (pos + 1) = UInt8.ofNat n :: rest := by
    rw [← List.drop_drop, h]
    rfl
  have hlow : packet[pos + 1]? = some (UInt8.ofNat n) := getElem?_of_drop hnext
  rw [u16, List.getD_eq_getElem?_getD, List.getD_eq_getElem?_getD, hhigh, hlow, Option.getD_some,
    Option.getD_some, UInt8.toNat_ofNat', UInt8.toNat_ofNat']
  omega

/-- and what follows it comes next. -/
theorem drop_put16 {packet rest : Bytes} {pos n : Nat} (h : packet.drop pos = put16 n ++ rest) :
    packet.drop (pos + 2) = rest := by
  rw [← List.drop_drop, h]
  rfl

/-- `lower` leaves the characters alone that are not upper-case letters. -/
theorem lower_eq_iff (c : UInt8) : lower c = c ↔ ¬ (65 ≤ c ∧ c ≤ 90) :=
  Bytes.forall_byte (P := fun c => lower c = c ↔ ¬ (65 ≤ c ∧ c ≤ 90)) (by decide +kernel) c

theorem map_lower_eq_iff {name : Bytes} :
    name.map lower = name ↔ ∀ c ∈ name, ¬ (65 ≤ c ∧ c ≤ 90) := by
  induction name with
  | nil => simp
  | cons c name ih => rw [List.map_cons, List.cons.injEq, ih, List.forall_mem_cons, lower_eq_iff]

/-- The question of a query, in a packet that carries it. -/
theorem AnswersQuery.question_eq {packet query name : Bytes} {type : RecordType} {id cap : Nat}
    (hquery : dnsQuery name type id cap = .ok query) (h : AnswersQuery packet query name id) :
    ∃ rest, packet.drop 12 = questionBytes name type ++ rest := by
  obtain ⟨rest, hrest⟩ := h.question
  obtain ⟨-, -, -, -, rfl⟩ := dnsQuery_iff.1 hquery
  refine ⟨rest, ?_⟩
  have htake : (((queryHeader id ++ (questionBytes name type ++ queryOptions)).drop 12).take
      (name.length + 6)) = questionBytes name type := by
    rw [List.drop_left' (by simp [queryHeader, put16]), List.take_left' (length_questionBytes name type)]
  rw [← hrest, htake]

/-- The question is read: the name in lower case, the type and the class. -/
theorem question_read {packet name rest : Bytes} {type : RecordType}
    (hgood : (name.splitOn 46).all goodLabel = true) (hmax : name.length ≤ nameMax)
    (hpacket : packet.drop 12 = questionBytes name type ++ rest) :
    IsName packet 12 (name.map lower) (14 + name.length) ∧ 14 + name.length + 4 ≤ packet.length ∧
      u16 packet (14 + name.length) = type.code ∧ u16 packet (14 + name.length + 2) = 1 := by
  have hsplit : packet.drop 12 = encodeLabels (name.splitOn 46) ++ 0 :: (put16 type.code ++ (put16 1 ++ rest)) := by
    rw [hpacket]
    simp [questionBytes]
  have hname := isName_encoded hgood hmax hsplit
  have htype : packet.drop (14 + name.length) = put16 type.code ++ (put16 1 ++ rest) := by
    have hdrop : 14 + name.length = 12 + (encodeLabels (name.splitOn 46) ++ [0]).length := by
      simp [length_encoded]
      omega
    have happend : encodeLabels (name.splitOn 46) ++ 0 :: (put16 type.code ++ (put16 1 ++ rest)) =
        (encodeLabels (name.splitOn 46) ++ [0]) ++ (put16 type.code ++ (put16 1 ++ rest)) := by simp
    rw [hdrop, ← List.drop_drop, hsplit, happend, List.drop_left]
  refine ⟨by rwa [show 14 + name.length = 12 + name.length + 2 by omega], ?_, ?_, ?_⟩
  · have hlength := congrArg List.length htype
    simp [put16] at hlength
    omega
  · rw [u16_of_drop htype]
    cases type <;> rfl
  · rw [u16_of_drop (drop_put16 htype)]
    rfl

/-- Query and parse agree on names exactly where there are no upper-case letters: an answer to the
query that fits the receive buffer passes the checks of the header and the question if and only if
the name that was asked for is in lower case. -/
theorem question_accepted_iff {packet query name : Bytes} {type : RecordType} {id cap : Nat}
    (hquery : dnsQuery name type id cap = .ok query) (hanswer : AnswersQuery packet query name id) :
    (∃ pos, parseQuestion packet name type id = .ok pos) ↔
      packet.length ≤ packetMax ∧ ∀ c ∈ name, ¬ (65 ≤ c ∧ c ≤ 90) := by
  obtain ⟨rest, hpacket⟩ := hanswer.question_eq hquery
  obtain ⟨-, hmax, -, hgood, -⟩ := dnsQuery_iff.1 hquery
  obtain ⟨hname, hroom, htype, hclass⟩ := question_read hgood hmax hpacket
  obtain ⟨⟨hqr, hopcode, htc⟩, hrcode⟩ := hanswer.flags
  have hqr := (flag_bits (packet.getD 2 0)).1.2 ⟨hqr, hopcode⟩
  have htc := (flag_bits (packet.getD 2 0)).2.1.2 htc
  have hrcode := (flag_bits (packet.getD 3 0)).2.2.2 hrcode
  have hhead : ¬ (u16 packet 0 ≠ id ∨ packet.getD 2 0 &&& 0xf8 ≠ 0x80 ∨ u16 packet 4 ≠ 1) := by
    rintro (hne | hne | hne)
    · exact hne hanswer.ident
    · exact hne hqr
    · exact hne hanswer.questions
  rw [← map_lower_eq_iff]
  by_cases hlong : packet.length ≤ packetMax
  · have hcheck : parseQuestion packet name type id =
        if name.map lower ≠ name then .error .format else .ok (14 + name.length + 4) := by
      rw [parseQuestion, if_neg (by omega), if_neg (by omega), if_neg hhead, if_neg (not_not.2 htc),
        if_neg (not_not.2 hrcode), readName_iff.2 hname]
      dsimp only
      rw [htype, hclass]
      have hroom : ¬ 14 + name.length + 4 > packet.length := by omega
      simp only [hroom, ne_eq, not_true_eq_false, or_false]
    rw [hcheck]
    by_cases hlower : name.map lower = name
    · rw [if_neg (not_not.2 hlower)]
      exact ⟨fun _ => ⟨hlong, hlower⟩, fun _ => ⟨_, rfl⟩⟩
    · rw [if_pos hlower]
      exact ⟨nofun, fun h => absurd h.2 hlower⟩
  · refine ⟨fun ⟨pos, hpos⟩ => ?_, fun h => absurd h.1 hlong⟩
    rw [parseQuestion, if_neg (by omega), if_pos (by omega)] at hpos
    cases hpos

/-- The query for `a` and the sample answer to it. -/
theorem question_accepted_sample :
    ∃ query pos, dnsQuery (text "a") .a 0x1234 packetMax = .ok query ∧
      AnswersQuery samplePacket query (text "a") 0x1234 ∧
      parseQuestion samplePacket (text "a") .a 0x1234 = .ok pos := by
  have hquery : dnsQuery (text "a") .a 0x1234 packetMax =
      .ok (queryHeader 0x1234 ++ (questionBytes (text "a") .a ++ queryOptions)) := by decide +kernel
  have hanswer : AnswersQuery samplePacket (queryHeader 0x1234 ++ (questionBytes (text "a") .a ++ queryOptions))
      (text "a") 0x1234 := ⟨by decide, by decide, by decide, by decide⟩
  obtain ⟨pos, hpos⟩ := (question_accepted_iff hquery hanswer).2 (by decide +kernel)
  exact ⟨_, pos, hquery, hanswer, hpos⟩

/-- The query for `A` is the same, but its answer is taken for an answer to another question. -/
theorem upper_case_rejected :
    ∃ query, dnsQuery (text "A") .a 0x1234 packetMax = .ok query ∧
      AnswersQuery samplePacket query (text "A") 0x1234 ∧
      parseQuestion samplePacket (text "A") .a 0x1234 = .error .format ∧
      dnsParse samplePacket (text "A") .a 0x1234 = (.format, []) := by
  have hquery : dnsQuery (text "A") .a 0x1234 packetMax =
      .ok (queryHeader 0x1234 ++ (questionBytes (text "a") .a ++ queryOptions)) := by decide +kernel
  exact ⟨_, hquery, ⟨by decide, by decide, by decide, by decide⟩, by decide +kernel, by decide +kernel⟩

/-! ## The answer to a query for addresses -/

/-- An address record: its owner is a pointer to the question, or the name in full. -/
structure Host where
  pointer : Bool
  ttl : UInt32
  ip : UInt8 × UInt8 × UInt8 × UInt8

namespace Host

/-- The address is a unicast one. -/
def Unicast (h : Host) : Prop := h.ip.1 ≠ 0 ∧ h.ip.1 ≠ 127 ∧ h.ip.1 < 224

def address (h : Host) : Bytes := [h.ip.1, h.ip.2.1, h.ip.2.2.1, h.ip.2.2.2]

/-- The record that `cf_dns_parse` makes of it. -/
def record (h : Host) : Record := { ip := h.address, ttl := h.ttl.toNat }

def owner (name : Bytes) (h : Host) : Bytes :=
  if h.pointer then [0xc0, 12] else encodeLabels (name.splitOn 46) ++ [0]

/-- What follows the owner: type and class, time to live, and the data with its length. -/
def fields (h : Host) : Bytes :=
  put16 1 ++ put16 1 ++ put16 (h.ttl.toNat / 2 ^ 16) ++ put16 h.ttl.toNat ++ put16 4 ++ h.address

def bytes (name : Bytes) (h : Host) : Bytes := h.owner name ++ h.fields

end Host

/-- The response to a query for the addresses of a name: the question of the query, and the records. -/
def addressResponse (name : Bytes) (id : Nat) (high low : UInt8) (query : Bytes) (hosts : List Host) :
    Bytes :=
  put16 id ++ [high, low] ++ put16 1 ++ put16 hosts.length ++ put16 0 ++ put16 0 ++
    (query.drop 12).take (name.length + 6) ++ hosts.flatMap (Host.bytes name)

section
variable {packet name : Bytes}

/-- The owner of a record is the name of the question. -/
theorem Host.owner_isName (hgood : (name.splitOn 46).all goodLabel = true) (hmax : name.length ≤ nameMax)
    {qrest : Bytes} (hquestion : packet.drop 12 = encodeLabels (name.splitOn 46) ++ 0 :: qrest)
    (h : Host) {pos : Nat} {rest : Bytes} (hpos : 12 < pos) (hpacket : packet.drop pos = h.owner name ++ rest) :
    IsName packet pos (name.map lower) (pos + (h.owner name).length) := by
  unfold Host.owner at hpacket ⊢
  cases hpointer : h.pointer with
  | false =>
    rw [hpointer, if_neg (by simp), List.append_assoc, List.singleton_append] at hpacket
    have hname := isName_encoded hgood hmax hpacket
    rw [if_neg (by simp), List.length_append, length_encoded]
    exact hname
  | true =>
    rw [hpointer, if_pos rfl] at hpacket
    have hname := nameAt_encoded hgood hquestion
    have hlow : packet.drop (pos + 1) = 12 :: rest := by
      rw [← List.drop_drop, hpacket]
      rfl
    refine ⟨1, _, .pointer (getElem?_of_drop hpacket) (getElem?_of_drop hlow) (by simp) (by simp) hpos
      hname, by simp, ?_, ?_⟩
    · rw [dotted_map_lower, dotted, List.intercalate_splitOn]
    · simpa using hmax

/-- The resource that a record is. -/
def Host.resource (name : Bytes) (pos : Nat) (h : Host) : Resource :=
  ⟨name.map lower, 1, 1, h.ttl.toNat, pos + (h.owner name).length + 10, 4⟩

theorem Host.resourceAt (hgood : (name.splitOn 46).all goodLabel = true) (hmax : name.length ≤ nameMax)
    {qrest : Bytes} (hquestion : packet.drop 12 = encodeLabels (name.splitOn 46) ++ 0 :: qrest)
    (h : Host) {pos : Nat} {rest : Bytes} (hpos : 12 < pos) (hpacket : packet.drop pos = h.bytes name ++ rest) :
    ResourceAt packet pos (h.resource name pos) (pos + (h.bytes name).length) ∧
      (packet.drop (pos + (h.owner name).length + 10)).take 4 = h.address := by
  rw [Host.bytes, List.append_assoc] at hpacket
  have howner := h.owner_isName hgood hmax hquestion hpos hpacket
  -- The fields, one after the other.
  have htype : packet.drop (pos + (h.owner name).length) = put16 1 ++ (put16 1 ++
      (put16 (h.ttl.toNat / 2 ^ 16) ++ (put16 h.ttl.toNat ++ (put16 4 ++ (h.address ++ rest))))) := by
    rw [← List.drop_drop, hpacket, List.drop_left]
    simp [Host.fields]
  have hclass := drop_put16 htype
  have hhigh := drop_put16 hclass
  have hlow := drop_put16 hhigh
  have hlen := drop_put16 hlow
  have hdata := drop_put16 hlen
  have hlength : (h.bytes name).length = (h.owner name).length + 14 := by
    simp [Host.bytes, Host.fields, Host.address, put16]
  have hroom : pos + (h.owner name).length + 14 ≤ packet.length := by
    have := congrArg List.length htype
    simp [Host.address, put16] at this
    omega
  have httl : h.ttl.toNat < 2 ^ 32 := h.ttl.toNat_lt
  refine ⟨⟨pos + (h.owner name).length, howner, by omega, ?_, ?_, ?_, ?_, rfl, ?_, ?_⟩, ?_⟩
  · rw [u16_of_drop htype]
    rfl
  · rw [u16_of_drop hclass]
    rfl
  · rw [u32, u16_of_drop hhigh, u16_of_drop hlow]
    change h.ttl.toNat = _
    omega
  · rw [u16_of_drop hlen]
    rfl
  · change pos + (h.owner name).length + 10 + 4 ≤ _
    omega
  · change _ = pos + (h.owner name).length + 10 + 4
    omega
  · rw [hdata]
    rfl

/-- The records of a response, one after the other. -/
theorem hosts_resourcesAt (hgood : (name.splitOn 46).all goodLabel = true) (hmax : name.length ≤ nameMax)
    {qrest : Bytes} (hquestion : packet.drop 12 = encodeLabels (name.splitOn 46) ++ 0 :: qrest)
    {hosts : List Host} (hunicast : ∀ h ∈ hosts, h.Unicast) {pos : Nat} (hpos : 12 < pos)
    (hpacket : packet.drop pos = hosts.flatMap (Host.bytes name)) (hinside : pos ≤ packet.length) :
    ∃ rs, ResourcesAt packet pos rs packet.length ∧ rs.length = hosts.length ∧
      (∀ r ∈ rs, r.Answers (name.map lower) .a) ∧
      List.Forall₂ (IsRecord packet .a) rs (hosts.map Host.record) := by
  induction hosts generalizing pos with
  | nil =>
    have hend : pos = packet.length := by
      have := congrArg List.length hpacket
      simp at this
      omega
    rw [← hend]
    exact ⟨[], .nil, rfl, by simp, .nil⟩
  | cons h hosts ih =>
    rw [List.flatMap_cons] at hpacket
    obtain ⟨hat, haddress⟩ := h.resourceAt hgood hmax hquestion hpos hpacket
    have hnext : packet.drop (pos + (h.bytes name).length) = hosts.flatMap (Host.bytes name) := by
      rw [← List.drop_drop, hpacket, List.drop_left]
    have hroom : pos + (h.bytes name).length ≤ packet.length := by
      obtain ⟨-, -, -, -, -, -, -, -, hlt, hstop⟩ := hat
      rw [hstop]
      exact hlt
    obtain ⟨rs, hrs, hlength, hanswers, hrecords⟩ :=
      ih (fun h hh => hunicast h (List.mem_cons_of_mem _ hh)) (by omega) hnext hroom
    refine ⟨h.resource name pos :: rs, .cons hat hrs, by simp [hlength], ?_, .cons ?_ hrecords⟩
    · exact List.forall_mem_cons.2 ⟨⟨rfl, rfl, rfl⟩, hanswers⟩
    · obtain ⟨hzero, hloop, hlimit⟩ := hunicast h List.mem_cons_self
      exact ⟨rfl, _, _, _, _, haddress, hzero, hloop, hlimit, rfl⟩

/-- A response to a query for addresses is one of the grammar. -/
theorem addressResponse_response (hgood : (name.splitOn 46).all goodLabel = true)
    (hmax : name.length ≤ nameMax) {id cap : Nat} (hid : id < 2 ^ 16) {query : Bytes}
    (hquery : dnsQuery name .a id cap = .ok query) {high low : UInt8} (hflags : ResponseFlags high low)
    {hosts : List Host} (hsome : 1 ≤ hosts.length) (hmany : hosts.length ≤ recordMax)
    (hunicast : ∀ h ∈ hosts, h.Unicast)
    (hsize : (addressResponse name id high low query hosts).length ≤ packetMax) :
    Response (addressResponse name id high low query hosts) (name.map lower) .a id
      (hosts.map Host.record) := by
  obtain ⟨-, -, -, -, rfl⟩ := dnsQuery_iff.1 hquery
  have htake : (((queryHeader id ++ (questionBytes name .a ++ queryOptions)).drop 12).take
      (name.length + 6)) = questionBytes name .a := by
    rw [List.drop_left' (by simp [queryHeader, put16]), List.take_left' (length_questionBytes name .a)]
  obtain ⟨packet, hpacket⟩ : ∃ packet, packet = addressResponse name id high low
    (queryHeader id ++ (questionBytes name .a ++ queryOptions)) hosts := ⟨_, rfl⟩
  rw [← hpacket] at hsize ⊢
  rw [addressResponse, htake] at hpacket
  -- The header, field by field.
  have h0 : packet.drop 0 = put16 id ++ (high :: low :: (put16 1 ++ (put16 hosts.length ++ (put16 0 ++
      (put16 0 ++ (questionBytes name .a ++ hosts.flatMap (Host.bytes name))))))) := by
    simp [hpacket]
  have h4 : packet.drop 4 = put16 1 ++ (put16 hosts.length ++ (put16 0 ++
      (put16 0 ++ (questionBytes name .a ++ hosts.flatMap (Host.bytes name))))) := by
    rw [show 4 = 0 + 2 + 2 from rfl, ← List.drop_drop, drop_put16 h0]
    rfl
  have h6 := drop_put16 h4
  have h8 := drop_put16 h6
  have h10 := drop_put16 h8
  have h12 := drop_put16 h10
  have hhigh : packet.getD 2 0 = high := by
    have hdrop : packet.drop 2 = high :: _ := drop_put16 h0
    rw [List.getD_eq_getElem?_getD, getElem?_of_drop hdrop, Option.getD_some]
  have hlow : packet.getD 3 0 = low := by
    have hdrop : packet.drop 3 = low :: packet.drop 4 := by
      rw [h4, show 3 = 0 + 2 + 1 from rfl, ← List.drop_drop, drop_put16 h0]
      rfl
    rw [List.getD_eq_getElem?_getD, getElem?_of_drop hdrop, Option.getD_some]
  have hanswers : u16 packet 6 = hosts.length := by
    rw [u16_of_drop h6]
    exact Nat.mod_eq_of_lt (by unfold recordMax at hmany; omega)
  have hcount : u16 packet 6 + u16 packet 8 + u16 packet 10 = hosts.length := by
    rw [hanswers, u16_of_drop h8, u16_of_drop h10]
    simp
  obtain ⟨hname, hroom, htype, hclass⟩ := question_read hgood hmax h12
  have hquestion : packet.drop 12 = encodeLabels (name.splitOn 46) ++
      0 :: (put16 1 ++ put16 1 ++ hosts.flatMap (Host.bytes name)) := by
    rw [show packet.drop 12 = _ from h12]
    simp [questionBytes, RecordType.code]
  have hrecords : packet.drop (14 + name.length + 4) = hosts.flatMap (Host.bytes name) := by
    rw [show 14 + name.length + 4 = 12 + (questionBytes name .a).length by
      rw [length_questionBytes]; omega, ← List.drop_drop, show packet.drop 12 = _ from h12, List.drop_left]
  have hpos : 12 < 14 + name.length + 4 := by omega
  obtain ⟨rs, hrs, hlength, hall, hforall⟩ :=
    hosts_resourcesAt hgood hmax hquestion hunicast hpos hrecords hroom
  have hmatching : (rs.take (u16 packet 6)).filter (·.Answers (name.map lower) .a) = rs := by
    rw [hanswers, ← hlength, List.take_length, List.filter_eq_self]
    exact fun r hr => decide_eq_true (hall r hr)
  refine ⟨⟨by omega, hsize⟩, ?_, ?_, ?_, ?_, ?_, ⟨14 + name.length, rs, hname, hroom, htype, hclass, hrs, ?_, ?_⟩, ?_⟩
  · rw [u16_of_drop h0]
    exact Nat.mod_eq_of_lt hid
  · rw [hhigh]
    exact hflags.1
  · rw [hlow]
    exact hflags.2
  · rw [u16_of_drop h4]
    rfl
  · rw [hcount]
    exact hmany.trans (by decide)
  · rw [hlength, hcount]
  · rw [hmatching]
    exact hforall
  · simpa using ⟨hsome, hmany⟩

end

/-! ## Discovered targets -/

/-- A name that has been read consists of good labels in lower case. -/
theorem IsName.good {packet name : Bytes} {pos stop : Nat} (h : IsName packet pos name stop) (hne : name ≠ []) :
    (name.splitOn 46).all goodLabel = true ∧ name.map lower = name := by
  obtain ⟨hops, labels, hname, -, rfl, -⟩ := h
  have hlower : ∀ c : UInt8, nameChar c = true → lower c = c ∧ c ≠ 46 :=
    Bytes.forall_byte (by decide +kernel)
  have hlabels : ∀ label ∈ labels, (1 ≤ label.length ∧ label.length ≤ 63) ∧
      ∀ c ∈ label, nameChar c = true := by
    clear hne
    induction hname with
    | root => simp
    | label h _ ih => exact List.forall_mem_cons.2 ⟨⟨h.bounds, h.chars⟩, ih⟩
    | pointer _ _ _ _ _ _ ih => exact ih
  have hsome : labels ≠ [] := by
    rintro rfl
    exact hne rfl
  have hsplit : (dotted labels).splitOn 46 = labels :=
    List.splitOn_intercalate 46 (fun label hl hdot => (hlower 46 ((hlabels label hl).2 46 hdot)).2 rfl) hsome
  constructor
  · rw [hsplit, List.all_eq_true]
    intro label hl
    obtain ⟨hbounds, hchars⟩ := hlabels label hl
    refine goodLabel_iff.2 ⟨hbounds, fun c hc => ?_⟩
    rw [(hlower c (hchars c hc)).1]
    exact hchars c hc
  · rw [← dotted_map_lower]
    congr 1
    have hsame : ∀ label ∈ labels, label.map lower = label := by
      intro label hl
      rw [map_lower_eq_iff]
      exact fun c hc => (lower_eq_iff c).1 (hlower c ((hlabels label hl).2 c hc)).1
    exact (List.map_congr_left hsame).trans (List.map_id _)

/-- The targets of a response are names that have been read. -/
theorem Response.targets {packet name : Bytes} {id : Nat} {out : Answer}
    (h : Response packet name .srv id out) {record : Record} (hr : record ∈ out) :
    record.target ≠ [] ∧ ∃ pos stop, IsName packet pos record.target stop := by
  obtain ⟨pos, rs, -, -, -, -, -, -, hall⟩ := h.records
  clear h
  generalize (rs.take (u16 packet 6)).filter (·.Answers name .srv) = answers at hall
  induction hall with
  | nil => cases hr
  | cons hrecord _ ih =>
    rcases List.mem_cons.1 hr with rfl | hr
    · obtain ⟨before, hbefore, hname, -, rfl⟩ := hrecord
      exact ⟨by simp [hbefore], _, _, hname⟩
    · exact ih hr

/-- Discovered targets can be resolved: for every record of an answer, the query for the addresses of
its target is written, with 29 bytes more than the target has; its name is read back; and a response
with the question of that query and up to 16 unicast addresses is accepted with these addresses. -/
theorem discovered_target_resolves {packet name : Bytes} {id : Nat} {out : Answer}
    (haccepted : dnsParse packet name .srv id = (.ok, out)) {record : Record} (hr : record ∈ out)
    (ident : UInt16) :
    ∃ query, dnsQuery record.target .a ident.toNat packetMax = .ok query ∧
      query.length = record.target.length + 29 ∧
      readName query 12 = .ok (record.target, 12 + record.target.length + 2) ∧
      ∀ high low hosts, ResponseFlags high low → 1 ≤ hosts.length → hosts.length ≤ recordMax →
        (∀ h ∈ hosts, Host.Unicast h) →
        (addressResponse record.target ident.toNat high low query hosts).length ≤ packetMax →
        dnsParse (addressResponse record.target ident.toNat high low query hosts) record.target .a
          ident.toNat = (.ok, hosts.map Host.record) := by
  obtain ⟨hne, pos, stop, hname⟩ := (dnsParse_ok haccepted).targets hr
  obtain ⟨hgood, hlower⟩ := hname.good hne
  have hmax := hname.length_le
  generalize record.target = target at *
  have hquery : dnsQuery target .a ident.toNat packetMax =
      .ok (queryHeader ident.toNat ++ (questionBytes target .a ++ queryOptions)) := by
    refine dnsQuery_iff.2 ⟨hne, hmax, ?_, hgood, rfl⟩
    unfold nameMax at hmax
    unfold packetMax
    omega
  refine ⟨_, hquery, length_query _ _ _, ?_, fun high low hosts hflags hsome hmany hunicast hsize => ?_⟩
  · have hdrop : (queryHeader ident.toNat ++ (questionBytes target .a ++ queryOptions)).drop 12 =
        questionBytes target .a ++ queryOptions :=
      List.drop_left' (by simp [queryHeader, put16])
    have hread := (question_read hgood hmax hdrop).1
    rw [hlower] at hread
    rw [readName_iff.2 hread]
    congr 2
    omega
  · have hresponse := addressResponse_response hgood hmax ident.toNat_lt hquery hflags hsome hmany hunicast
      hsize
    rw [hlower] at hresponse
    exact hresponse.dnsParse

/-- An SRV answer with the target `a.argotunnel.com`, and the response with two addresses of it, the
owner of the second in full. -/
theorem discovered_target_resolves_sample :
    ∃ packet out query, dnsParse packet (text "a") .srv 0x1234 = (.ok, out) ∧
      out.map Record.target = [text "a.argotunnel.com"] ∧
      dnsQuery (text "a.argotunnel.com") .a 7 packetMax = .ok query ∧
      dnsParse (addressResponse (text "a.argotunnel.com") 7 0x81 0x80 query
          [⟨true, 60, 192, 0, 2, 1⟩, ⟨false, 60, 192, 0, 2, 2⟩]) (text "a.argotunnel.com") .a 7 =
        (.ok, [{ ip := [192, 0, 2, 1], ttl := 60 }, { ip := [192, 0, 2, 2], ttl := 60 }]) := by
  obtain ⟨packet, hpacket⟩ : ∃ packet : Bytes, packet =
    [0x12, 0x34, 0x81, 0x80, 0, 1, 0, 1, 0, 0, 0, 0, 1, 97, 0, 0, 33, 0, 1,
      0xc0, 12, 0, 33, 0, 1, 0, 0, 1, 0x2c, 0, 24, 0, 1, 0, 1, 0x1e, 0xa4] ++
      encodeLabels ((text "a.argotunnel.com").splitOn 46) ++ [0] := ⟨_, rfl⟩
  have haccepted : dnsParse packet (text "a") .srv 0x1234 = (.ok,
      [{ target := text "a.argotunnel.com", priority := 1, weight := 1, port := 7844, ttl := 300 }]) := by
    rw [hpacket]
    decide +kernel
  obtain ⟨query, hquery, -, -, hresolves⟩ := discovered_target_resolves haccepted List.mem_cons_self 7
  refine ⟨packet, _, query, haccepted, rfl, hquery, ?_⟩
  refine hresolves 0x81 0x80 [⟨true, 60, 192, 0, 2, 1⟩, ⟨false, 60, 192, 0, 2, 2⟩] (by decide) (by decide)
    (by decide) ?_ ?_
  · simp [Host.Unicast]
  · obtain ⟨-, -, -, -, rfl⟩ := dnsQuery_iff.1 hquery
    decide +kernel

end EspCfTunnel.Dns
