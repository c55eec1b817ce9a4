import EspCfTunnel.Dns.Parse

/-!
# Responses that are cut or padded

What is read from a packet is read the same from every packet that begins with it: names, numbers and
records lie inside the packet, and pointers go back. So the records of a response end at one place,
and that is the end of the packet.
-/

namespace EspCfTunnel.Dns

open EspCfTunnel

section
variable {packet more : Bytes}

theorem u16_append {pos : Nat} (h : pos + 2 ≤ packet.length) : u16 (packet ++ more) pos = u16 packet pos := by
  rw [u16, u16, List.getD_append _ _ _ _ (by omega), List.getD_append _ _ _ _ (by omega)]

theorem u32_append {pos : Nat} (h : pos + 4 ≤ packet.length) : u32 (packet ++ more) pos = u32 packet pos := by
  rw [u32, u32, u16_append (by omega), u16_append (by omega)]

theorem getElem?_append_some {pos : Nat} {b : UInt8} (h : packet[pos]? = some b) :
    (packet ++ more)[pos]? = some b := by
  obtain ⟨hlt, -⟩ := List.getElem?_eq_some_iff.1 h
  rw [List.getElem?_append_left hlt, h]

/-! ## Reading on -/

theorem IsLabel.append {pos : Nat} {label : Bytes} (h : IsLabel packet pos label) :
    IsLabel (packet ++ more) pos label := by
  refine ⟨getElem?_append_some h.length, h.bounds, h.chars, ?_⟩
  have hinside : pos + 1 + label.length ≤ packet.length := by
    have hlength := congrArg List.length h.text
    have := h.bounds.1
    rw [List.length_map, List.length_take, List.length_drop] at hlength
    omega
  rw [List.drop_append_of_le_length (by omega), List.take_append_of_le_length (by simp; omega)]
  exact h.text

/-- A name is read the same from a longer packet. -/
theorem NameAt.append {pos hops stop : Nat} {labels : List Bytes} (h : NameAt packet pos hops labels stop) :
    NameAt (packet ++ more) pos hops labels stop := by
  induction h with
  | root h => exact .root (getElem?_append_some h)
  | label h _ ih => exact .label h.append ih
  | pointer h hl hh ht back _ ih =>
    exact .pointer (getElem?_append_some h) (getElem?_append_some hl) hh ht back ih

theorem IsName.append {pos stop : Nat} {name : Bytes} (h : IsName packet pos name stop) :
    IsName (packet ++ more) pos name stop := by
  obtain ⟨hops, labels, hname, hrest⟩ := h
  exact ⟨hops, labels, hname.append, hrest⟩

/-- A record is read the same from a longer packet. -/
theorem ResourceAt.append {pos stop : Nat} {r : Resource} (h : ResourceAt packet pos r stop) :
    ResourceAt (packet ++ more) pos r stop := by
  obtain ⟨mid, hname, hhead, htype, hclass, httl, hlen, hdata, hinside, hstop⟩ := h
  refine ⟨mid, hname.append, ?_, ?_, ?_, ?_, ?_, hdata, ?_, hstop⟩
  · rw [List.length_append]
    omega
  · rw [u16_append (by omega)]
    exact htype
  · rw [u16_append (by omega)]
    exact hclass
  · rw [u32_append (by omega)]
    exact httl
  · rw [u16_append (by omega)]
    exact hlen
  · rw [List.length_append]
    omega

theorem ResourcesAt.append {pos stop : Nat} {rs : List Resource} (h : ResourcesAt packet pos rs stop) :
    ResourcesAt (packet ++ more) pos rs stop := by
  induction h with
  | nil => exact .nil
  | cons h _ ih => exact .cons h.append ih

/-! ## One way to read -/

theorem IsName.unique {pos stop stop' : Nat} {name name' : Bytes} (h : IsName packet pos name stop)
    (h' : IsName packet pos name' stop') : name = name' ∧ stop = stop' := by
  have heq := (readName_iff.2 h).symm.trans (readName_iff.2 h')
  simpa using heq

theorem ResourceAt.unique {pos stop stop' : Nat} {r r' : Resource} (h : ResourceAt packet pos r stop)
    (h' : ResourceAt packet pos r' stop') : stop = stop' := by
  obtain ⟨mid, hname, -, -, -, -, hlen, hdata, -, hstop⟩ := h
  obtain ⟨mid', hname', -, -, -, -, hlen', hdata', -, hstop'⟩ := h'
  obtain ⟨-, rfl⟩ := hname.unique hname'
  rw [hstop, hstop', hdata, hdata', hlen, hlen']

/-- So many records end at one place. -/
theorem ResourcesAt.unique {pos stop stop' : Nat} {rs rs' : List Resource}
    (h : ResourcesAt packet pos rs stop) (h' : ResourcesAt packet pos rs' stop')
    (hlength : rs.length = rs'.length) : stop = stop' := by
  induction h generalizing rs' with
  | nil =>
    cases h' with
    | nil => rfl
    | cons => simp at hlength
  | cons h _ ih =>
    cases h' with
    | nil => simp at hlength
    | cons h' rest' =>
      obtain rfl := h.unique h'
      exact ih rest' (by simpa using hlength)

/-- A response is not the beginning of a longer one. -/
theorem Response.append {name name' : Bytes} {type type' : RecordType} {id id' : Nat} {out out' : Answer}
    (h : Response packet name type id out) (h' : Response (packet ++ more) name' type' id' out') :
    more = [] := by
  obtain ⟨pos, rs, hname, -, -, -, hat, hlength, -⟩ := h.records
  obtain ⟨pos', rs', hname', -, -, -, hat', hlength', -⟩ := h'.records
  have hsize := h.size.1
  obtain ⟨-, rfl⟩ := hname.append.unique hname'
  rw [u16_append (by omega), u16_append (by omega), u16_append (by omega), ← hlength] at hlength'
  have hend := hat.append.unique hat' hlength'.symm
  rw [List.length_append] at hend
  exact List.length_eq_zero_iff.1 (by omega)

end

/-- Acceptance is prefix-free: of a packet that is accepted, every proper prefix and every proper
extension is rejected. -/
theorem dns_prefix_free {packet other name : Bytes} {type : RecordType} {id : Nat}
    (haccepted : (dnsParse packet name type id).1 = .ok)
    (hproper : other <+: packet ∨ packet <+: other) (hne : other ≠ packet) :
    (dnsParse other name type id).1 ≠ .ok := by
  intro hother
  have hresponse : Response packet name type id (dnsParse packet name type id).2 :=
    dnsParse_ok (Prod.ext haccepted rfl)
  have hresponse' : Response other name type id (dnsParse other name type id).2 :=
    dnsParse_ok (Prod.ext hother rfl)
  rcases hproper with ⟨more, rfl⟩ | ⟨more, rfl⟩
  · obtain rfl := hresponse'.append hresponse
    exact hne (List.append_nil _).symm
  · obtain rfl := hresponse.append hresponse'
    exact hne (List.append_nil _)

/-- The sample with a byte behind it, and without its last byte. -/
theorem dns_prefix_free_sample :
    (dnsParse (samplePacket ++ [0]) (text "a") .a 0x1234).1 ≠ .ok ∧
      (dnsParse (samplePacket.take 34) (text "a") .a 0x1234).1 ≠ .ok := by
  have haccepted : (dnsParse samplePacket (text "a") .a 0x1234).1 = .ok := by decide +kernel
  constructor
  · exact dns_prefix_free haccepted (Or.inr ⟨[0], rfl⟩) (by simp)
  · exact dns_prefix_free haccepted (Or.inl (List.take_prefix _ _)) (by decide)

end EspCfTunnel.Dns
