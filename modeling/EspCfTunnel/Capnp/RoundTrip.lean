import EspCfTunnel.Capnp.Build
import EspCfTunnel.Capnp.Bounds
import EspCfTunnel.Capnp.Simulation

/-!
# What is built is read back

The frame of a finished builder is accepted by the reader and denotes the tree that was built
(`Progress.denotes`), so the reader's operations return it. `Node.fetch` reads a whole node back the
way a caller that knows the schema does: every number that was set, every pointer, every blob; it
costs `Node.cost` words of budget and goes `Node.depth` levels down, a null pointer being a level.
-/

namespace EspCfTunnel.Capnp

open EspCfTunnel Framing StateLogic

/-! ## The finished frame -/

theorem cpBuildEnd_of_error {b : Builder} (h : b.error ≠ .ok) :
    cpBuildEnd b = ((b.error, 0), b) := by
  unfold cpBuildEnd
  rw [run_bind, run_get, if_pos h]
  rfl

theorem cpBuildEnd_of_ok {b : Builder} (h : b.error = .ok) :
    cpBuildEnd b = ((.ok, 8 + b.words * 8),
      { b with buffer := b.buffer.write 4 (Bytes.leBytes 4 b.words) }) := by
  unfold cpBuildEnd
  rw [run_bind, run_get, if_neg (by simp [h])]
  rfl

/-- The bytes of a frame read from memory. -/
theorem ofBytes_read (m : Mem) {n i : Nat} (hi : i < n) : Mem.ofBytes (m.read 0 n) i = m i := by
  rw [Mem.ofBytes, List.getD_eq_getElem _ _ (by simpa using hi), Mem.getElem_read, Nat.zero_add]

/-- The bytes of a finished builder: the buffer with the number of words in its header. -/
def Builder.frame (b : Builder) : Bytes :=
  (b.buffer.write 4 (Bytes.leBytes 4 b.words)).read 0 (8 + b.words * 8)

section
variable {root : Node} {out : Mem} {cap : Nat} {tasks : List Task} {b : Builder}

theorem Builder.length_frame (b : Builder) : b.frame.length = 8 + b.words * 8 :=
  Mem.length_read _ _ _

/-- Behind the header the frame is the buffer. -/
theorem Builder.ofBytes_frame (b : Builder) {i : Nat} (hlo : 8 ≤ i) (hhi : i < 8 + b.words * 8) :
    Mem.ofBytes b.frame i = b.buffer i := by
  rw [frame, ofBytes_read _ hhi, Mem.write_of_ge _ _ (by rw [Bytes.length_leBytes]; omega)]

/-- The frame of a builder without an error has one segment with all its words. -/
theorem Progress.isFrame (hhi : cap ≤ messageMax) (h : Progress root out cap tasks b)
    (hpos : 0 < b.words) :
    IsFrame cap b.frame ∧ segmentCount b.frame = 1 ∧ segmentViews b.frame = [⟨8, b.words * 8⟩] := by
  have hroom := h.room
  unfold messageMax at hhi
  have hcount : u32 (Mem.ofBytes b.frame) 0 = 0 := by
    have hzero : (Mem.ofBytes b.frame).read 0 4 = List.replicate 4 0 := by
      refine List.ext_getElem (by simp) fun i hi _ => ?_
      rw [Mem.length_read] at hi
      rw [Mem.getElem_read, List.getElem_replicate, Nat.zero_add, Builder.frame,
        ofBytes_read _ (by omega), Mem.write_of_lt _ _ (by omega), h.header i (by omega)]
    rw [u32, hzero, Bytes.le_replicate_zero]
  have hwords : segmentWords (Mem.ofBytes b.frame) 0 = b.words := by
    have hread : (Mem.ofBytes b.frame).read 4 4 = Bytes.leBytes 4 b.words := by
      have hsame := Mem.read_write_same b.buffer 4 (Bytes.leBytes 4 b.words)
      rw [Bytes.length_leBytes] at hsame
      rw [← hsame]
      exact Mem.read_congr fun i _ hi => ofBytes_read _ (by omega)
    rw [segmentWords, u32, hread, Bytes.le_leBytes]
    exact Nat.mod_eq_of_lt (by omega)
  have hone : segmentCount b.frame = 1 := by rw [segmentCount, hcount]
  refine ⟨⟨by rw [hcount]; decide, ?_⟩, hone, ?_⟩
  · rw [hcount, totalSize_eq_ok, b.length_frame]
    refine ⟨by omega, ?_, by omega⟩
    rw [Nat.zero_add, segmentOffset_succ, hwords]
    rfl
  · rw [segmentViews, hone]
    simp [hwords, segmentOffset, tableSize]

/-- The finished frame is accepted by the reader, and its root denotes the tree that was built. -/
theorem Progress.denotes (hhi : cap ≤ messageMax) (h : Progress root out cap [] b)
    (hok : b.error = .ok) :
    b.words = 1 + root.words ∧ ∃ g, cpReadInit b.frame = .ok g ∧ g.budget = traversalWords ∧
      g.error = .ok ∧ (∀ seg, g.arena.words seg < 2 ^ 32) ∧
      ∃ xs, Denotes g.arena 0 0 0 root.tree xs := by
  have hneed : b.words = 1 + root.words := by simpa using (h.going hok).need
  obtain ⟨hframe, hcount, hviews⟩ := h.isFrame hhi (by omega)
  have hinit := hframe.cpReadInit_eq hhi
  rw [hviews, hcount] at hinit
  refine ⟨hneed, _, hinit, rfl, rfl, fun seg => ?_, (h.going hok).ends _ ⟨Nat.one_pos, ?_, ?_, ?_⟩⟩
  · have := segment_len_le hinit seg
    unfold messageMax at this
    simp only [Reader.arena]
    omega
  · simp [Reader.arena, Reader.segment]
  · intro w hw _ i hi
    rw [Nat.add_assoc, ← b.ofBytes_frame (by omega) (by omega)]
    rfl
  · intro t ht
    cases ht

end

/-- A resolved pointer may be resolved with more landing pads. -/
theorem Points.mono {A : Arena} {K K' seg slot p oseg w : Nat} (hK : K ≤ K')
    (h : Points A K seg slot p oseg w) : Points A K' seg slot p oseg w := by
  cases h with
  | near hin hp hne hkind hw => exact .near hin hp hne hkind hw
  | far h1 hin hq hfar htwo hs hpad hpin hp hne hkind hw =>
    exact .far (h1.trans hK) hin hq hfar htwo hs hpad hpin hp hne hkind hw
  | doubleFar h2 hin hq hfar htwo hs hpad hpin hf hf8 hp hoff hkind =>
    exact .doubleFar (h2.trans hK) hin hq hfar htwo hs hpad hpin hf hf8 hp hoff hkind

theorem Denotes.mono {A : Arena} {K K' seg slot : Nat} {t : Tree} {xs : List Extent} (hK : K ≤ K')
    (h : Denotes A K seg slot t xs) : Denotes A K' seg slot t xs := by
  induction h with
  | null hin h0 => exact .null hin h0
  | cap hin hp => exact .cap hin hp
  | struct hpt hk hdw hpc hin _ ih => exact .struct (hpt.mono hK) hk hdw hpc hin ih
  | list hpt hk hs hle hn hin => exact .list (hpt.mono hK) hk hs hle hn hin
  | pointers hpt hk hs hn hin _ ih => exact .pointers (hpt.mono hK) hk hs hn hin ih
  | composite hpt hk hs hn hin htag h4 hc hdw hpc hfit hlen _ ih =>
    exact .composite (hpt.mono hK) hk hs hn hin htag h4 hc hdw hpc hfit hlen ih

/-! ## Reading a node back -/

/-- What reading a node back gives. -/
inductive Item
  | null
  | struct (dataWords pointers : Nat) (uints : List Nat) (kids : List Item)
  | pointers (count : Nat) (kids : List Item)
  | blob (bytes : Bytes)
  | other

/-- Read the numbers that were set in a struct. -/
def fetchFields (v : Value) : List Field → StateM Reader (List Nat)
  | [] => return []
  | f :: fs => do
    let n ← cpUint v f.byte f.width
    let ns ← fetchFields v fs
    return n :: ns

mutual

/-- Read a node back, by the operations that its kind calls for. -/
def Node.fetch : Node → Value → StateM Reader Item
  | .null, v => return if v.kind = .null then .null else .other
  | .struct _ fs cs, v => do
    if v.kind ≠ .struct then return .other
    let ns ← fetchFields v fs
    let kids ← fetchAll cs (cpField v) 0
    return .struct v.dataWords v.pointers ns kids
  | .pointers cs, v => do
    if v.kind ≠ .list ∨ v.elementSize ≠ 6 then return .other
    let kids ← fetchAll cs (cpAt v) 0
    return .pointers v.count kids
  | .blob text _, v => do
    if v.kind ≠ .list then return .other
    return .blob (← readData v text)

/-- Read the nodes behind the pointers from number `i` on. -/
def fetchAll : List Node → (Nat → StateM Reader Value) → Nat → StateM Reader (List Item)
  | [], _, _ => return []
  | c :: cs, next, i => do
    let v ← next i
    let item ← c.fetch v
    let items ← fetchAll cs next (i + 1)
    return item :: items

end

/-- The number in the bytes of a field. -/
def Field.read (data : Bytes) (f : Field) : Nat := Bytes.le ((data.drop f.byte).take f.width)

/-- The data of a struct after its fields have been set in fresh memory. -/
def dataOf (dw : Nat) (fs : List Field) : Bytes := setFields (List.replicate (dw * 8) 0) fs

mutual

/-- What a node is to be read back as. -/
def Node.item : Node → Item
  | .null => .null
  | .struct dw fs cs => .struct dw cs.length (fs.map (Field.read (dataOf dw fs))) (itemAll cs)
  | .pointers cs => .pointers cs.length (itemAll cs)
  | .blob _ value => .blob value

def itemAll : List Node → List Item
  | [] => []
  | c :: cs => c.item :: itemAll cs

end

/-- The budget that following the pointer to a node takes. -/
def Node.fee : Node → Nat
  | .null => 1
  | .struct dw _ cs => 1 + max 1 (dw + cs.length)
  | .pointers cs => 1 + max 1 cs.length
  | .blob text value => 1 + max 1 (((stored text value).length + 7) / 8)

mutual

/-- The budget that reading a node takes once its pointer has been followed. -/
def Node.rest : Node → Nat
  | .struct _ fs cs => fs.length + costAll cs
  | .pointers cs => costAll cs
  | _ => 0

def costAll : List Node → Nat
  | [] => 0
  | c :: cs => c.fee + c.rest + costAll cs

end

/-- The budget that reading a node back takes. -/
def Node.cost (node : Node) : Nat := node.fee + node.rest

mutual

/-- The levels of pointers of a node; a null pointer is one. -/
def Node.depth : Node → Nat
  | .struct _ _ cs => 1 + depthAll cs
  | .pointers cs => 1 + depthAll cs
  | _ => 1

def depthAll : List Node → Nat
  | [] => 0
  | c :: cs => max c.depth (depthAll cs)

end

/-! ## Reading back costs what it says and gives the node -/

theorem length_setFields (data : Bytes) (fs : List Field) :
    (setFields data fs).length = data.length := by
  induction fs generalizing data with
  | nil => rfl
  | cons f fs ih => rw [setFields_cons, ih, Mem.length_read]

theorem length_dataOf (dw : Nat) (fs : List Field) : (dataOf dw fs).length = dw * 8 := by
  rw [dataOf, length_setFields, List.length_replicate]

variable {A : Arena} {B : Nat}

/-- Following the pointer to a node costs the fee of the node. -/
theorem fee_eq {seg slot : Nat} {node : Node} {xs : List Extent}
    (h : Denotes A 0 seg slot node.tree xs) : fee 0 xs = node.fee := by
  generalize ht : node.tree = t at h
  cases node with
  | null =>
    rw [Node.tree] at ht
    cases h <;> cases ht
    rfl
  | struct dw fs cs =>
    rw [Node.tree] at ht
    cases h with
    | @struct _ _ _ oseg w dw' ps =>
      injection ht with hdata hps
      have hlen : (A.bytes oseg w dw').length = dw' * 8 := Mem.length_read _ _ _
      rw [← hdata, ← dataOf, length_dataOf] at hlen
      rw [fee_cons, Node.fee, ← hps, length_treeAll]
      dsimp only
      rw [show dw' = dw by omega]
    | _ => cases ht
  | pointers cs =>
    rw [Node.tree] at ht
    cases h with
    | pointers =>
      injection ht with hps
      rw [fee_cons, Node.fee, ← hps, length_treeAll]
    | _ => cases ht
  | blob text value =>
    rw [Node.tree] at ht
    cases h with
    | @list _ _ _ _ _ size n =>
      injection ht with hsize helems
      have hlen := congrArg List.length helems
      rw [List.length_map, List.length_map, List.length_range] at hlen
      rw [fee_cons, Node.fee, ← hsize, ← hlen, show elementBits 2 = 8 from rfl]
      dsimp only
      omega
    | _ => cases ht

/-- The numbers of a struct are read back one by one. -/
theorem fetchFields_sees {v : Value} {data : Bytes} {ps : List Tree} {ys : Nat → List Extent}
    (h : Shows A 0 v (.struct data ps) ys) {n : Nat} (hlen : data.length = n * 8) (fs : List Field)
    (hfit : ∀ f ∈ fs, f.Fits n) (hB : fs.length ≤ B) :
    Triple (Reader.Sees A B) (fetchFields v fs) fun ns r =>
      ns = fs.map (Field.read data) ∧ r.Sees A (B - fs.length) := by
  induction fs generalizing B with
  | nil => exact Triple.ret fun r hr => ⟨rfl, hr⟩
  | cons f fs ih =>
    obtain ⟨hwidth, hbyte, -⟩ := hfit f List.mem_cons_self
    rw [List.length_cons] at hB
    have hn := cpUint_sees h (show 1 ≤ B by omega) f.byte hwidth
    rw [if_neg (by omega)] at hn
    have hns := ih (B := B - 1) (fun g hg => hfit g (List.mem_cons_of_mem _ hg)) (by omega)
    refine Triple.bind_eq hn (Triple.bind_eq hns (Triple.ret fun r hr => ⟨rfl, hr.mono ?_⟩))
    rw [List.length_cons]
    omega

/-- The data of a blob is its value; a text loses the zero byte that was added to it. -/
theorem data_tree (text : Bool) (value : Bytes) :
    (Node.blob text value).tree.data text .ok = (value, .ok) := by
  have hoctets : (Node.blob text value).tree.octets = stored text value := by
    rw [Node.tree, Tree.octets, List.map_map]
    refine (List.map_congr_left fun b _ => ?_).trans (List.map_id _)
    exact UInt8.ofNat_toNat
  unfold Tree.data
  rw [run_bind, run_get, if_neg (by simp [Node.tree, Tree.kind]),
    if_neg (by simp [Node.tree, Tree.kind, Tree.elementSize]), hoctets]
  cases text <;> simp [stored]

/-- The blob of a node is read back without the zero byte that was added to a text. -/
theorem fetchBlob_sees {v : Value} {text : Bool} {value : Bytes} {ys : Nat → List Extent}
    (h : Shows A 0 v (Node.blob text value).tree ys) :
    Triple (Reader.Sees A B) (readData v text) fun bs r => bs = value ∧ r.Sees A B := by
  intro r hr
  obtain ⟨B', htracks, hbytes, rfl⟩ := data_sim h text r .ok hr.tracks
  rw [data_tree] at htracks hbytes
  exact ⟨hbytes, htracks.sees⟩

theorem getElem?_treeAll {cs : List Node} {j : Nat} {c : Node} (h : cs[j]? = some c) :
    (treeAll cs)[j]? = some c.tree := by
  induction cs generalizing j with
  | nil => cases h
  | cons c' cs ih =>
    rw [treeAll]
    cases j with
    | zero =>
      rw [List.getElem?_cons_zero, Option.some.injEq] at h ⊢
      rw [h]
    | succ j =>
      rw [List.getElem?_cons_succ] at h ⊢
      exact ih h

theorem Node.one_le_depth (node : Node) : 1 ≤ node.depth := by
  cases node <;> simp [Node.depth]

theorem depth_le_depthAll {cs : List Node} {j : Nat} {c : Node} (h : cs[j]? = some c) :
    c.depth ≤ depthAll cs := by
  induction cs generalizing j with
  | nil => cases h
  | cons c' cs ih =>
    rw [depthAll]
    cases j with
    | zero =>
      rw [List.getElem?_cons_zero, Option.some.injEq] at h
      rw [h]
      omega
    | succ j =>
      have := ih h
      omega

/-- The pointers of a struct, or the elements of a list, lead to the children of the node. -/
theorem next_sees {v : Value} {cs : List Node} {ys : Nat → List Extent}
    {next : Nat → StateM Reader Value} (hd : v.depth + (1 + depthAll cs) ≤ depthMax + 1)
    (hstep : ∀ (i : Nat) (c : Tree), (treeAll cs)[i]? = some c → v.depth + 1 ≤ depthMax →
      (∃ seg slot, Denotes A 0 seg slot c (ys i)) ∧ ∀ B', fee 0 (ys i) ≤ B' →
        Triple (Reader.Sees A B') (next i) fun u r =>
          (∃ zs, Shows A 0 u c zs ∧ Below c.kids.length (ys i) zs ∧ u.depth ≤ v.depth + 1) ∧
            r.Sees A (B' - fee 0 (ys i))) :
    ∀ j c, cs[j]? = some c → ∀ B', c.fee ≤ B' →
      Triple (Reader.Sees A B') (next (0 + j)) fun u r =>
        (∃ zs, Shows A 0 u c.tree zs ∧ u.depth ≤ v.depth + 1) ∧ r.Sees A (B' - c.fee) := by
  intro j c hc B' hB'
  have hdepth := depth_le_depthAll hc
  have hone := c.one_le_depth
  obtain ⟨⟨seg, slot, hden⟩, htriple⟩ := hstep j c.tree (getElem?_treeAll hc) (by omega)
  have hfee := fee_eq hden
  rw [Nat.zero_add]
  rw [hfee] at htriple
  refine (htriple B' hB').post fun u r hr => ⟨?_, hr.2⟩
  obtain ⟨zs, hshow, -, hu⟩ := hr.1
  exact ⟨zs, hshow, hu⟩

mutual

/-- **A node is read back** from a value that shows it, if its levels and its cost are in bounds. -/
theorem fetch_sees (hA : ∀ seg, A.words seg < 2 ^ 32) (node : Node) {v : Value}
    {ys : Nat → List Extent} {B : Nat} (hw : node.WellTyped) (h : Shows A 0 v node.tree ys)
    (hd : v.depth + node.depth ≤ depthMax + 1) (hB : node.rest ≤ B) :
    Triple (Reader.Sees A B) (node.fetch v) fun item r =>
      item = node.item ∧ r.Sees A (B - node.rest) := by
  have hkind := h.kind_eq
  cases node with
  | null =>
    rw [Node.tree, Tree.kind] at hkind
    rw [Node.fetch, if_pos hkind]
    exact Triple.ret fun r hr => ⟨by rw [Node.item], hr.mono (Nat.sub_le _ _)⟩
  | struct dw fs cs =>
    rw [Node.tree] at h hkind
    rw [Node.WellTyped] at hw
    rw [Node.rest] at hB
    rw [Node.depth] at hd
    have hshape : v.dataWords = dw ∧ v.pointers = cs.length := by
      obtain ⟨hdata, hp⟩ := h.shape
      rw [length_setFields, List.length_replicate] at hdata
      exact ⟨by omega, by rw [hp, length_treeAll]⟩
    have hns := fetchFields_sees h (length_dataOf dw fs) fs hw.2.2.1 (show fs.length ≤ B by omega)
    have hnext := next_sees hd fun i c hc hdeep => ⟨?_, fun B' hB' => cpField_sees hA h hc hdeep hB'⟩
    · have hitems := fetchAll_sees hA cs hw.2.2.2 hnext (B := B - fs.length) (by omega) (by omega)
      rw [Node.fetch, Node.item, Node.rest]
      refine Triple.ite (fun hne => absurd hkind hne) fun _ => ?_
      refine Triple.bind_eq hns (Triple.bind_eq hitems (Triple.ret fun r hr => ⟨?_, hr.mono ?_⟩))
      · rw [hshape.1, hshape.2]
        rfl
      · omega
    · exact ⟨_, _, h.pointer hc⟩
  | pointers cs =>
    rw [Node.tree] at h hkind
    rw [Node.WellTyped] at hw
    rw [Node.rest] at hB
    rw [Node.depth] at hd
    have hshape : v.elementSize = 6 ∧ v.count = cs.length := by
      cases h with
      | pointers _ hsize hcount => exact ⟨hsize, by rw [hcount, length_treeAll]⟩
    have hnext := next_sees hd fun i c hc hdeep =>
      ⟨?_, fun B' hB' => cpAt_pointers_sees hA h hc hdeep hB'⟩
    · have hitems := fetchAll_sees hA cs hw.2 hnext (by omega) hB
      rw [Node.fetch, Node.item, Node.rest]
      refine Triple.ite (fun hne => hne.elim (absurd hkind) (absurd hshape.1)) fun _ => ?_
      refine Triple.bind_eq hitems (Triple.ret fun r hr => ⟨?_, hr⟩)
      rw [hshape.2]
    · cases h with
      | pointers _ _ _ _ hkids => exact ⟨_, _, hkids i c hc⟩
  | blob text value =>
    rw [Node.tree] at hkind
    rw [Node.fetch]
    refine Triple.ite (fun hne => absurd hkind hne) fun _ => ?_
    refine Triple.bind_eq (fetchBlob_sees h) (Triple.ret fun r hr => ⟨?_, hr.mono (Nat.sub_le _ _)⟩)
    rw [Node.item]

/-- The nodes behind pointers that show them are read back one by one. -/
theorem fetchAll_sees (hA : ∀ seg, A.words seg < 2 ^ 32) (cs : List Node) {d i B : Nat}
    {next : Nat → StateM Reader Value} (hw : wellTypedAll cs)
    (hnext : ∀ j c, cs[j]? = some c → ∀ B', c.fee ≤ B' →
      Triple (Reader.Sees A B') (next (i + j)) fun u r =>
        (∃ zs, Shows A 0 u c.tree zs ∧ u.depth ≤ d) ∧ r.Sees A (B' - c.fee))
    (hd : d + depthAll cs ≤ depthMax + 1) (hB : costAll cs ≤ B) :
    Triple (Reader.Sees A B) (fetchAll cs next i) fun items r =>
      items = itemAll cs ∧ r.Sees A (B - costAll cs) := by
  cases cs with
  | nil =>
    rw [fetchAll, itemAll]
    exact Triple.ret fun r hr => ⟨rfl, hr.mono (Nat.sub_le _ _)⟩
  | cons c cs =>
    rw [wellTypedAll] at hw
    rw [depthAll] at hd
    rw [costAll] at hB
    rw [fetchAll, itemAll, costAll]
    refine Triple.bind (hnext 0 c rfl B (by omega)) fun u => Triple.of_fact fun hu => ?_
    obtain ⟨zs, hshow, hdepth⟩ := hu
    have hitem := fetch_sees hA c hw.1 hshow (B := B - c.fee) (by omega) (by omega)
    have hnext' : ∀ j c', cs[j]? = some c' → ∀ B', c'.fee ≤ B' →
        Triple (Reader.Sees A B') (next (i + 1 + j)) fun u r =>
          (∃ zs, Shows A 0 u c'.tree zs ∧ u.depth ≤ d) ∧ r.Sees A (B' - c'.fee) := by
      intro j c' hc'
      have := hnext (j + 1) c' hc'
      rwa [show i + (j + 1) = i + 1 + j by omega] at this
    have hitems := fetchAll_sees hA cs hw.2 hnext' (B := B - c.fee - c.rest) (by omega) (by omega)
    refine Triple.bind_eq hitem (Triple.bind_eq hitems (Triple.ret fun r hr => ⟨rfl, hr.mono ?_⟩))
    omega

end

/-! ## The round trip -/

/-- The bytes of the two fields do not meet. -/
def Field.Apart (f g : Field) : Prop := f.byte + f.width ≤ g.byte ∨ g.byte + g.width ≤ f.byte

theorem Field.read_set (data : Bytes) (f g : Field) (hf : f.byte + f.width ≤ data.length) :
    f.read (((Mem.ofBytes data).write g.byte (Bytes.leBytes g.width g.value)).read 0 data.length) =
      Bytes.le (((Mem.ofBytes data).write g.byte (Bytes.leBytes g.width g.value)).read f.byte
        f.width) := by
  rw [Field.read, Mem.take_drop_read _ hf, Nat.zero_add]

/-- A field keeps its number while fields apart from it are set. -/
theorem Field.read_setFields {data : Bytes} {f : Field} (hf : f.byte + f.width ≤ data.length)
    {gs : List Field} (h : ∀ g ∈ gs, f.Apart g) : f.read (setFields data gs) = f.read data := by
  induction gs generalizing data with
  | nil => rfl
  | cons g gs ih =>
    have hapart : f.byte + f.width ≤ g.byte ∨ g.byte + g.width ≤ f.byte := h g List.mem_cons_self
    rw [setFields_cons, ih (by rw [Mem.length_read]; exact hf)
      fun k hk => h k (List.mem_cons_of_mem _ hk), f.read_set data g hf,
      Mem.read_write_disjoint _ _ (by rw [Bytes.length_leBytes]; omega), Mem.read_ofBytes hf]
    rfl

/-- A field that is not overwritten later holds the number it was set to, cut to its width. -/
theorem Field.read_dataOf {dw : Nat} {pre post : List Field} {f : Field} (hf : f.Fits dw)
    (hpost : ∀ g ∈ post, f.Apart g) :
    f.read (dataOf dw (pre ++ f :: post)) = f.value % 2 ^ (8 * f.width) := by
  have hlen : f.byte + f.width ≤ (dataOf dw pre).length := by
    rw [length_dataOf]
    exact hf.2.1
  have hsplit : dataOf dw (pre ++ f :: post) = setFields
      (((Mem.ofBytes (dataOf dw pre)).write f.byte (Bytes.leBytes f.width f.value)).read 0
        (dataOf dw pre).length) post := by
    rw [dataOf, setFields, List.foldl_append]
    rfl
  have hsame := Mem.read_write_same (Mem.ofBytes (dataOf dw pre)) f.byte
    (Bytes.leBytes f.width f.value)
  rw [Bytes.length_leBytes] at hsame
  rw [hsplit, Field.read_setFields (by rw [Mem.length_read]; exact hlen) hpost,
    f.read_set _ f hlen, hsame, Bytes.le_leBytes, Nat.pow_mul]

/-- Read a whole message back from its root. -/
def Node.fetchRoot (root : Node) : StateM Reader Item := do
  let v ← cpRoot
  root.fetch v

/-- **The builder and the reader are inverse to each other.** Whatever the order of the calls, no
byte outside the buffer changes; if the words fit, the frame has exactly the size they need and
reading it back gives the tree; if they do not, `cf_cp_build_end` fails and writes nothing. A number
that is not overwritten is read back as it was set, cut to its width. -/
theorem build_round_trip {root : Node} (hroot : root.WellTyped) (out : Mem) {cap : Nat}
    (hlo : 16 ≤ cap) (hhi : cap ≤ messageMax) :
    (∀ tasks b, Building root (cpBuildInit out cap).2 tasks b → ∀ i, cap ≤ i →
      b.buffer i = out i ∧ (cpBuildEnd b).2.buffer i = out i) ∧
    (∀ b, Building root (cpBuildInit out cap).2 [] b → 1 + root.words ≤ (cap - 8) / 8 →
      (cpBuildEnd b).1 = (.ok, 8 + 8 * (1 + root.words)) ∧ 8 + 8 * (1 + root.words) ≤ cap ∧
      (root.depth ≤ depthMax → root.cost ≤ traversalWords →
        ∃ g r, cpReadInit ((cpBuildEnd b).2.buffer.read 0 (cpBuildEnd b).1.2) = .ok g ∧
          root.fetchRoot g = (root.item, r) ∧ r.error = .ok)) ∧
    (∀ b, Building root (cpBuildInit out cap).2 [] b → (cap - 8) / 8 < 1 + root.words →
      (cpBuildEnd b).1.1 ≠ .ok ∧ (cpBuildEnd b).1.2 = 0) ∧
    (∀ (dw : Nat) (pre post : List Field) (f : Field), f.Fits dw → (∀ g ∈ post, f.Apart g) →
      f.read (dataOf dw (pre ++ f :: post)) = f.value % 2 ^ (8 * f.width)) := by
  refine ⟨fun tasks b hb i hi => ?_, fun b hb hfits => ?_, fun b hb hbig => ?_,
    fun dw pre post f hf hpost => Field.read_dataOf hf hpost⟩
  · have hp := hb.progress hroot hlo hhi
    refine ⟨hp.outside i hi, ?_⟩
    by_cases hok : b.error = .ok
    · rw [cpBuildEnd_of_ok hok]
      dsimp only
      rw [Mem.write_of_ge _ _ (by rw [Bytes.length_leBytes]; omega)]
      exact hp.outside i hi
    · rw [cpBuildEnd_of_error hok]
      exact hp.outside i hi
  · have hp := hb.progress hroot hlo hhi
    have hok : b.error = .ok := by
      by_contra he
      have := hp.failed he
      omega
    obtain ⟨hwords, g, hinit, hbudget, herror, hsmall, xs, hden⟩ := hp.denotes hhi hok
    rw [cpBuildEnd_of_ok hok]
    refine ⟨by dsimp only; rw [hwords, Nat.mul_comm], by omega, fun hdepth hcost => ?_⟩
    rw [Node.cost] at hcost
    have hsees : g.Sees g.arena traversalWords := ⟨rfl, herror, hbudget.ge, hbudget.le⟩
    have hfee := fee_eq hden
    obtain ⟨⟨ys, hshow, -, hd⟩, hroot'⟩ :=
      follow_sees hsmall hden one_le_depthMax (by omega) g hsees
    rw [hfee] at hroot'
    obtain ⟨hitem, hend⟩ :=
      fetch_sees hsmall root hroot hshow (by omega) (by omega) _ hroot'
    exact ⟨g, _, hinit, Prod.ext hitem rfl, hend.error⟩
  · have hp := hb.progress hroot hlo hhi
    have herr : b.error ≠ .ok := by
      intro hok
      have hneed := (hp.going hok).need
      have hroom := hp.room
      rw [List.map_nil, List.sum_nil] at hneed
      omega
    rw [cpBuildEnd_of_error herr]
    exact ⟨herr, rfl⟩

/-- A struct with a number and a text, built field first: the buffer is used to its last byte. -/
theorem build_round_trip_struct :
    let root : Node := .struct 1 [⟨0, 2, 7⟩] [.blob true [65]]
    ∃ b g r, Building root (cpBuildInit (fun _ => 0) 40).2 [] b ∧ (cpBuildEnd b).1 = (.ok, 40) ∧
      cpReadInit ((cpBuildEnd b).2.buffer.read 0 40) = .ok g ∧
      root.fetchRoot g = (.struct 1 1 [7] [.blob [65]], r) ∧ r.error = .ok := by
  intro root
  have hroot : root.WellTyped := by
    simp [root, Node.WellTyped, wellTypedAll, Field.Fits]
  have h1 : Building root _ [.fields 1 1 [⟨0, 2, 7⟩], .fill 2 (.blob true [65])] _ :=
    @Building.step root (cpBuildInit (fun _ => 0) 40).2 [] [] _ _ .start
  have h2 : Building root _ [.fields 1 1 [], .fill 2 (.blob true [65])] _ :=
    @Building.step root _ [] [_] _ _ h1
  have h3 : Building root _ [.fill 2 (.blob true [65])] _ := @Building.step root _ [] [_] _ _ h2
  have h4 : Building root _ [] _ := @Building.step root _ [] [] _ _ h3
  have hitem : root.item = .struct 1 1 [7] [.blob [65]] := by
    simp [root, Node.item, itemAll, Field.read, dataOf, setFields, Bytes.leBytes, Mem.ofBytes,
      Mem.write, Mem.read, List.range_succ]
  have hwords : root.words = 3 := by simp [root, Node.words, wordsAll, stored]
  have hdepth : root.depth = 2 := by simp [root, Node.depth, depthAll]
  have hcost : root.cost = 6 := by
    simp [root, Node.cost, Node.fee, Node.rest, costAll, stored]
  have htrip := build_round_trip hroot (fun _ => 0) (show 16 ≤ 40 by decide) (by decide)
  obtain ⟨hend, -, hread⟩ := htrip.2.1 _ h4 (by rw [hwords])
  obtain ⟨g, r, hinit, hfetch, herror⟩ := hread (by rw [hdepth]; decide) (by rw [hcost]; decide)
  rw [hwords] at hend
  rw [hitem] at hfetch
  rw [hend] at hinit
  exact ⟨_, g, r, h4, hend, hinit, hfetch, herror⟩

end EspCfTunnel.Capnp
