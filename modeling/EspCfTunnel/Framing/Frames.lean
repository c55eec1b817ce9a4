import EspCfTunnel.Framing.Chunks
import EspCfTunnel.Capnp.Reader

/-!
# The framer and the segment validator agree

`WellFormed cap frame` says what a frame is by the stream encoding: a segment count, the segment
sizes, padding up to a word, and the segments. The framer and `capnpSegment` both work on the bytes
instead; what the two of them see of a frame is `IsFrame`. Every well-formed frame is one
(`WellFormed.isFrame`), a framer at the start of a frame collects exactly its bytes
(`pushAll_frame`), and every frame a framer delivers is one (`pushAll_delivers`), on which the
validator and the reader agree about the segments (`IsFrame.capnpSegment`, `IsFrame.cpReadInit`).
-/

namespace EspCfTunnel.Framing

open EspCfTunnel

/-! ## Frames -/

/-- The stream encoding of a list of segments, with `pad` between the table and the segments. -/
def encodeFrame (segs : List Bytes) (pad : Bytes) : Bytes :=
  Bytes.leBytes 4 (segs.length - 1) ++ segs.flatMap (fun s => Bytes.leBytes 4 (s.length / 8)) ++
    pad ++ segs.flatten

/-- A well-formed frame of at most `cap` bytes: one to eight segments of whole words, the first of
them not empty, behind a table padded to a word. -/
def WellFormed (cap : Nat) (frame : Bytes) : Prop :=
  ∃ segs pad, 1 ≤ segs.length ∧ segs.length ≤ maxSegments ∧ (∀ s ∈ segs, s.length % 8 = 0) ∧
    segs.head? ≠ some [] ∧ 4 + 4 * segs.length + pad.length = tableSize segs.length ∧
    frame = encodeFrame segs pad ∧ frame.length ≤ cap

/-- What the framer and the validator check of a frame: the segment count, and that the table gives
the frame exactly its size. -/
structure IsFrame (cap : Nat) (frame : Bytes) : Prop where
  count : u32 (Mem.ofBytes frame) 0 < maxSegments
  size : totalSize (Mem.ofBytes frame) (u32 (Mem.ofBytes frame) 0 + 1) cap = .ok frame.length

/-- The number of segments a frame's table gives. -/
def segmentCount (frame : Bytes) : Nat := u32 (Mem.ofBytes frame) 0 + 1

theorem tableSize_ge (n : Nat) : 4 + 4 * n ≤ tableSize n := by
  unfold tableSize; omega

/-- The table is read the same from two memories that agree on it. -/
theorem u32_congr {p q : Mem} {off l : Nat} (hoff : off + 4 ≤ l)
    (h : ∀ i, i < l → p i = q i) : u32 p off = u32 q off := by
  unfold u32
  rw [Mem.read_congr fun i _ hi => h i (by omega)]

theorem segmentOffset_congr {p q : Mem} {n len i : Nat} (hi : i ≤ n) (hlen : tableSize n ≤ len)
    (h : ∀ j, j < len → p j = q j) : segmentOffset p n i = segmentOffset q n i := by
  have ht := tableSize_ge n
  induction i with
  | zero => rfl
  | succ i ih =>
    have hw : segmentWords p i = segmentWords q i := u32_congr (l := len) (by omega) h
    rw [segmentOffset_succ, segmentOffset_succ, ih (by omega), hw]

theorem totalSize_congr {p q : Mem} {n cap l t : Nat} (hn : 1 ≤ n) (hlen : tableSize n ≤ l)
    (h : ∀ i, i < l → p i = q i) : totalSize p n cap = .ok t ↔ totalSize q n cap = .ok t := by
  have ht := tableSize_ge n
  have hw : segmentWords p 0 = segmentWords q 0 := u32_congr (l := l) (by omega) h
  rw [totalSize_eq_ok, totalSize_eq_ok, hw, segmentOffset_congr le_rfl hlen h]

/-- A table entry inside a block of 32-bit numbers. -/
theorem read_flatMap_leBytes (pre : Bytes) (xs : List Nat) (post : Bytes) {i : Nat}
    (hi : i < xs.length) :
    (Mem.ofBytes (pre ++ xs.flatMap (Bytes.leBytes 4) ++ post)).read (pre.length + i * 4) 4 =
      Bytes.leBytes 4 xs[i] := by
  induction xs generalizing pre i with
  | nil => simp at hi
  | cons x xs ih =>
    cases i with
    | zero =>
      rw [Mem.read_ofBytes (by simp)]
      simp
    | succ i =>
      have := ih (pre ++ Bytes.leBytes 4 x) (i := i) (by simpa using hi)
      simp only [List.length_append, Bytes.length_leBytes, List.append_assoc] at this
      rw [List.getElem_cons_succ, ← this]
      simp only [List.flatMap_cons, List.append_assoc]
      rw [show pre.length + (i + 1) * 4 = pre.length + (4 + i * 4) by omega, ← Nat.add_assoc]

/-- Every well-formed frame passes the framer's and the validator's checks. -/
theorem WellFormed.isFrame {cap : Nat} {frame : Bytes} (hcap : cap ≤ messageMax)
    (h : WellFormed cap frame) : IsFrame cap frame := by
  obtain ⟨segs, pad, hpos, hmax, hword, hhead, hpad, rfl, hlen⟩ := h
  have hsegs : (segs.flatMap fun s => Bytes.leBytes 4 (s.length / 8)) =
      (segs.map fun s => s.length / 8).flatMap (Bytes.leBytes 4) := by
    rw [List.flatMap_map]
  have htab : (segs.flatMap fun s => Bytes.leBytes 4 (s.length / 8)).length = 4 * segs.length := by
    simp [List.length_flatMap, List.map_const', Nat.mul_comm]
  have hflat : (encodeFrame segs pad).length = tableSize segs.length + segs.flatten.length := by
    simp only [encodeFrame, List.length_append, htab, Bytes.length_leBytes]
    omega
  -- No segment is longer than the frame, so every size fits its 32-bit table entry.
  have hfits : ∀ s ∈ segs, s.length / 8 < 256 ^ 4 := by
    intro s hs
    have : s.length ≤ segs.flatten.length := (List.sublist_flatten_of_mem hs).length_le
    unfold messageMax at hcap
    omega
  have hcount : u32 (Mem.ofBytes (encodeFrame segs pad)) 0 = segs.length - 1 := by
    rw [u32, Mem.read_ofBytes (by rw [hflat]; unfold tableSize; omega)]
    simp only [encodeFrame, List.append_assoc, List.drop_zero]
    rw [List.take_append_of_le_length (by simp), List.take_of_length_le (by simp),
      Bytes.le_leBytes, Nat.mod_eq_of_lt (by unfold maxSegments at hmax; omega)]
  have hwords : ∀ i (hi : i < segs.length),
      segmentWords (Mem.ofBytes (encodeFrame segs pad)) i = segs[i].length / 8 := by
    intro i hi
    have := read_flatMap_leBytes (Bytes.leBytes 4 (segs.length - 1))
      (segs.map fun s => s.length / 8) (pad ++ segs.flatten) (i := i) (by simpa using hi)
    rw [← hsegs, Bytes.length_leBytes, List.getElem_map] at this
    rw [segmentWords, u32, encodeFrame, List.append_assoc, this, Bytes.le_leBytes,
      Nat.mod_eq_of_lt (hfits _ (List.getElem_mem hi))]
  have hoff : ∀ i, i ≤ segs.length → segmentOffset (Mem.ofBytes (encodeFrame segs pad)) segs.length i =
      tableSize segs.length + (segs.take i).flatten.length := by
    intro i hi
    induction i with
    | zero => simp
    | succ i ih =>
      have h8 := hword _ (List.getElem_mem (show i < segs.length by omega))
      rw [segmentOffset_succ, ih (by omega), hwords i (by omega), List.take_succ_eq_append_getElem
        (show i < segs.length by omega), List.flatten_append, List.length_append]
      simp only [List.flatten_cons, List.flatten_nil, List.append_nil]
      omega
  refine ⟨by rw [hcount]; omega, ?_⟩
  rw [hcount, Nat.sub_add_cancel hpos, totalSize_eq_ok, hwords 0 (by omega)]
  refine ⟨?_, by rw [hoff _ le_rfl, List.take_length, hflat], hlen⟩
  have h8 := hword _ (List.getElem_mem (show 0 < segs.length by omega))
  have hne : segs[0].length ≠ 0 := by
    intro h0
    apply hhead
    rw [List.head?_eq_getElem?, List.getElem?_eq_getElem (by omega),
      List.eq_nil_of_length_eq_zero h0]
  omega

/-! ## Collecting a frame -/

section
variable {σ : Type} (callback : σ → Bytes → σ × Result)

/-- A framer at the start of a frame, after the frame's first `k` bytes and with the target, segment
count and phase given. -/
def Framer.partway (f : Framer) (frame : Bytes) (k target segments phase : Nat) : Framer :=
  { (framerReset f).fill (frame.take k) with target, segments, phase }

/-- The framer's buffer shows the part of the frame it holds. -/
theorem buffer_partway (f : Framer) {frame : Bytes} {k : Nat} (hk : k ≤ frame.length) (i : Nat)
    (hi : i < k) : ((framerReset f).fill (frame.take k)).buffer i = Mem.ofBytes frame i := by
  have hlen : i < (frame.take k).length := by rw [List.length_take]; omega
  have hbuf : f.buffer.write 0 (frame.take k) (0 + i) = _ :=
    Mem.write_inside f.buffer (frame.take k) hlen
  rw [Nat.zero_add, List.getElem_take] at hbuf
  rw [Mem.ofBytes, List.getD_eq_getElem _ _ (by omega), ← hbuf]
  rfl

variable {f : Framer} {frame : Bytes} (s : σ) (hframe : IsFrame f.capacity frame)
include hframe

theorem IsFrame.table_lt : tableSize (segmentCount frame) < frame.length :=
  tableSize_lt_of_totalSize (by unfold segmentCount; omega) hframe.size

theorem IsFrame.length_le : frame.length ≤ f.capacity := (totalSize_eq_ok.1 hframe.size).2.2

/-- The segment count arrives. -/
theorem pushAll_count (rest : Bytes) :
    pushAll callback (framerReset f) s (frame.take 4 ++ rest) =
      (pushAll callback (f.partway frame 4 (tableSize (segmentCount frame)) (segmentCount frame) 1)
        s rest).advance 4 := by
  have htab := hframe.table_lt
  have hcap := hframe.length_le
  have h4 : 4 ≤ frame.length := by have := tableSize_ge (segmentCount frame); omega
  have hu : u32 ((framerReset f).fill (frame.take 4)).buffer 0 = u32 (Mem.ofBytes frame) 0 :=
    u32_congr (l := 4) le_rfl (buffer_partway f h4)
  have hlen : (frame.take 4).length = 4 := by rw [List.length_take]; omega
  have hc : complete callback ((framerReset f).fill (frame.take 4)) s =
      (f.partway frame 4 (tableSize (segmentCount frame)) (segmentCount frame) 1, s) := by
    have hfit : tableSize (u32 (Mem.ofBytes frame) 0 + 1) ≤ f.capacity := by
      unfold segmentCount at htab; omega
    rw [complete_count callback s rfl (by rw [hu]; exact hframe.count) (by rw [hu]; exact hfit), hu]
    rfl
  rw [pushAll_complete callback _ rest rfl (by simp [framerReset]) (by simp [framerReset, hlen]), hc,
    resume_of_ok callback rest rfl, hlen]

/-- The segment table arrives. -/
theorem pushAll_table (rest : Bytes) :
    pushAll callback (framerReset f) s (frame.take (tableSize (segmentCount frame)) ++ rest) =
      (pushAll callback (f.partway frame (tableSize (segmentCount frame)) frame.length
        (segmentCount frame) 2) s rest).advance (tableSize (segmentCount frame)) := by
  have htab := hframe.table_lt
  have hge := tableSize_ge (segmentCount frame)
  have hpos : 1 ≤ segmentCount frame := by unfold segmentCount; omega
  obtain ⟨T, hT⟩ : ∃ T, T = tableSize (segmentCount frame) := ⟨_, rfl⟩
  rw [← hT] at htab hge ⊢
  have hsplit : frame.take T = frame.take 4 ++ (frame.drop 4).take (T - 4) := by
    rw [← List.take_add, show 4 + (T - 4) = T by omega]
  have hlen : ((frame.drop 4).take (T - 4)).length = T - 4 := by
    rw [List.length_take, List.length_drop]; omega
  have h4 : (frame.take 4).length = 4 := by rw [List.length_take]; omega
  have hfill : (f.partway frame 4 T (segmentCount frame) 1).fill ((frame.drop 4).take (T - 4)) =
      f.partway frame T T (segmentCount frame) 1 := by
    have := Framer.fill_fill (framerReset f) (frame.take 4) ((frame.drop 4).take (T - 4))
    rw [← hsplit] at this
    unfold Framer.partway
    rw [← this]
    rfl
  have hsize : totalSize (f.partway frame T T (segmentCount frame) 1).buffer (segmentCount frame)
      f.capacity = .ok frame.length :=
    (totalSize_congr (l := T) (by unfold segmentCount; omega) hT.ge
      (buffer_partway f (by omega))).2 hframe.size
  have hc : complete callback (f.partway frame T T (segmentCount frame) 1) s =
      (f.partway frame T frame.length (segmentCount frame) 2, s) :=
    complete_table callback s rfl hsize
  have hused : (f.partway frame 4 T (segmentCount frame) 1).used = 4 := by
    simp [Framer.partway, Framer.fill, framerReset, h4]
  rw [hsplit, List.append_assoc, pushAll_count callback s hframe, ← hT,
    pushAll_complete callback _ rest rfl (by rw [hused]; exact (by omega : 4 < T))
      (by rw [hused, hlen]; exact (by omega : 4 + (T - 4) = T)),
    hfill, hc, resume_of_ok callback rest rfl, FeedResult.advance_advance, hlen,
    show T - 4 + 4 = T by omega]

/-- A whole frame arrives and goes to the callback. -/
theorem pushAll_frame (rest : Bytes) :
    pushAll callback (framerReset f) s (frame ++ rest) =
      (resume callback
        (complete callback (f.partway frame frame.length frame.length (segmentCount frame) 2) s)
        rest).advance frame.length := by
  have htab := hframe.table_lt
  obtain ⟨T, hT⟩ : ∃ T, T = tableSize (segmentCount frame) := ⟨_, rfl⟩
  rw [← hT] at htab
  have hfill : (f.partway frame T frame.length (segmentCount frame) 2).fill (frame.drop T) =
      f.partway frame frame.length frame.length (segmentCount frame) 2 := by
    have := Framer.fill_fill (framerReset f) (frame.take T) (frame.drop T)
    rw [List.take_append_drop] at this
    unfold Framer.partway
    rw [List.take_length, ← this]
    rfl
  have hused : (f.partway frame T frame.length (segmentCount frame) 2).used = T := by
    simp only [Framer.partway, Framer.fill, framerReset, List.length_take]; omega
  conv_lhs => rw [← List.take_append_drop T frame, List.append_assoc]
  rw [hT, pushAll_table callback s hframe, ← hT,
    pushAll_complete callback _ rest rfl (by rw [hused]; exact htab)
      (by rw [hused, List.length_drop]; exact (by omega : T + (frame.length - T) = frame.length)),
    hfill, FeedResult.advance_advance, List.length_drop, Nat.sub_add_cancel htab.le]

/-- A proper part of a frame stays in the buffer. -/
theorem pushAll_cut {k : Nat} (hk : k < frame.length) :
    (pushAll callback (framerReset f) s (frame.take k)).framer.used = k ∧
      (pushAll callback (framerReset f) s (frame.take k)).framer.error = .ok ∧
      (pushAll callback (framerReset f) s (frame.take k)).state = s := by
  have htab := hframe.table_lt
  have hge := tableSize_ge (segmentCount frame)
  obtain ⟨T, hT⟩ : ∃ T, T = tableSize (segmentCount frame) := ⟨_, rfl⟩
  rw [← hT] at htab hge
  -- The three phases: the count, the table, the segments.
  rcases Nat.lt_or_ge k 4 with h4 | h4
  · have hlen : (frame.take k).length = k := by rw [List.length_take]; omega
    rw [← List.append_nil (frame.take k), pushAll_fill callback _ [] rfl
      (by simp [framerReset, hlen, h4])]
    simp [pushAll, FeedResult.advance, Framer.fill, framerReset, hk.le]
  have hcut : ∀ j, j ≤ k → frame.take k = frame.take j ++ (frame.drop j).take (k - j) := by
    intro j hj
    rw [← List.take_add, show j + (k - j) = k by omega]
  have hlen : ∀ j, j ≤ k → ((frame.drop j).take (k - j)).length = k - j := by
    intro j hj
    rw [List.length_take, List.length_drop]; omega
  rcases Nat.lt_or_ge k T with hlt | hlt
  · rw [hcut 4 h4, pushAll_count callback s hframe, ← hT,
      ← List.append_nil ((frame.drop 4).take (k - 4)), pushAll_fill callback _ [] rfl
        (by simp only [Framer.partway, Framer.fill, framerReset, List.length_take, hlen 4 h4]; omega)]
    simp only [pushAll, FeedResult.advance, Framer.partway, Framer.fill, framerReset, hlen 4 h4,
      List.length_take, and_true]
    omega
  · rw [hcut T hlt, hT, pushAll_table callback s hframe, ← hT,
      ← List.append_nil ((frame.drop T).take (k - T)), pushAll_fill callback _ [] rfl
        (by simp only [Framer.partway, Framer.fill, framerReset, List.length_take, hlen T hlt]; omega)]
    simp only [pushAll, FeedResult.advance, Framer.partway, Framer.fill, framerReset, hlen T hlt,
      List.length_take, and_true]
    omega

end

/-! ## What a framer delivers -/

/-- What the buffer of a framer holds: the segment count once it has arrived, and the segment table
that has set the target once that has. -/
structure Framer.Holds (f : Framer) : Prop where
  count : f.phase ≠ 0 → 4 ≤ f.used ∧ u32 f.buffer 0 < maxSegments ∧ f.segments = u32 f.buffer 0 + 1
  total : f.phase ≠ 0 → f.phase ≠ 1 → tableSize f.segments ≤ f.used ∧
    totalSize f.buffer f.segments f.capacity = .ok f.target

theorem framerReset_holds (f : Framer) : (framerReset f).Holds :=
  ⟨fun h => absurd rfl h, fun h => absurd rfl h⟩

/-- More bytes do not change what the buffer holds already. -/
theorem Framer.Holds.fill {f : Framer} (hf : f.Holds) (bs : Bytes) : (f.fill bs).Holds := by
  have hsame : ∀ i, i < f.used → (f.fill bs).buffer i = f.buffer i := fun i hi =>
    f.buffer.write_of_lt bs hi
  constructor
  · intro h0
    obtain ⟨h4, hc, hs⟩ := hf.count h0
    have hu : u32 (f.fill bs).buffer 0 = u32 f.buffer 0 := u32_congr (l := f.used) h4 hsame
    rw [hu]
    exact ⟨by simp only [Framer.fill]; omega, hc, hs⟩
  · intro h0 h1
    obtain ⟨-, -, hs⟩ := hf.count h0
    obtain ⟨ht, hsz⟩ := hf.total h0 h1
    exact ⟨by simp only [Framer.fill]; omega,
      (totalSize_congr (p := (f.fill bs).buffer) (l := f.used)
        (by omega) ht hsame).2 hsz⟩

/-- A complete frame in the buffer is a frame. -/
theorem Framer.Holds.isFrame {f : Framer} (hf : f.Holds) (h0 : f.phase ≠ 0) (h1 : f.phase ≠ 1)
    (hused : f.used = f.target) : IsFrame f.capacity (f.buffer.read 0 f.used) := by
  obtain ⟨h4, hc, hs⟩ := hf.count h0
  obtain ⟨ht, hsz⟩ := hf.total h0 h1
  have hsame : ∀ i, i < f.used → Mem.ofBytes (f.buffer.read 0 f.used) i = f.buffer i := by
    intro i hi
    rw [Mem.ofBytes, List.getD_eq_getElem _ _ (by simpa using hi), Mem.getElem_read, Nat.zero_add]
  have hu : u32 (Mem.ofBytes (f.buffer.read 0 f.used)) 0 = u32 f.buffer 0 :=
    u32_congr (l := f.used) h4 hsame
  refine ⟨by rw [hu]; exact hc, ?_⟩
  rw [hu, ← hs, Mem.length_read, hused]
  rw [hused] at hsame ht
  exact (totalSize_congr (l := f.target) (by omega) ht hsame).2 hsz

section
variable {σ : Type} (callback : σ → Bytes → σ × Result)

/-- The end of a phase keeps what the buffer holds. -/
theorem complete_holds {f : Framer} {s : σ} (hinv : f.used = f.target)
    (hcount : f.phase = 0 → f.target = 4)
    (htable : f.phase = 1 → 1 ≤ f.segments ∧ f.target = tableSize f.segments) (hf : f.Holds)
    (herr : (complete callback f s).1.error = .ok) : (complete callback f s).1.Holds := by
  rcases complete_cases callback Prod.mk.eta.symm herr with
    ⟨h0, hlt, -, he, -⟩ | ⟨h1, total, htot, he, -⟩ | ⟨-, -, -, he⟩ <;> rw [he]
  · have h4 := hcount h0
    exact ⟨fun _ => ⟨by simp only; omega, hlt, rfl⟩, fun _ h => absurd rfl h⟩
  · have ht := (htable h1).2
    exact ⟨fun _ => hf.count (by omega), fun _ _ => ⟨by simp only; omega, htot⟩⟩
  · exact framerReset_holds f

/-- A byte is no frame, completes a phase of one, or completes a frame. -/
theorem push_delivers {f : Framer} {s : σ} {log : List Bytes} (b : UInt8) (hinv : f.Inv)
    (hf : f.Holds) (hlog : ∀ fr ∈ log, IsFrame f.capacity fr) :
    (push (logging callback) f (s, log) b).1.capacity = f.capacity ∧
      (∀ fr ∈ (push (logging callback) f (s, log) b).2.2, IsFrame f.capacity fr) ∧
      ((push (logging callback) f (s, log) b).1.error = .ok →
        (push (logging callback) f (s, log) b).1.Holds) := by
  have hfill := hf.fill [b]
  unfold push
  dsimp only
  split
  · exact ⟨rfl, hlog, fun _ => hfill⟩
  next hused =>
  have hused := not_not.1 hused
  refine ⟨complete_capacity _ _ _, ?_, fun herr =>
    complete_holds _ (f := f.fill [b]) hused hinv.count hinv.table hfill herr⟩
  by_cases h0 : f.phase = 0
  · rw [complete_state _ (f := f.fill [b]) _ (.inl h0)]; exact hlog
  by_cases h1 : f.phase = 1
  · rw [complete_state _ (f := f.fill [b]) _ (.inr h1)]; exact hlog
  rw [complete_frame (logging callback) (f := f.fill [b]) (s, log) h0 h1]
  simp only [logging, List.mem_append, List.mem_singleton]
  rintro fr (hfr | rfl)
  · exact hlog fr hfr
  · exact hfill.isFrame h0 h1 hused

/-- Every frame a framer delivers, whatever the bytes and the callback, is a frame. -/
theorem pushAll_delivers {f : Framer} {s : σ} {log : List Bytes} (bs : Bytes) (hinv : f.Inv)
    (hf : f.Holds) (hlog : ∀ fr ∈ log, IsFrame f.capacity fr) :
    ∀ fr ∈ (pushAll (logging callback) f (s, log) bs).state.2, IsFrame f.capacity fr := by
  induction bs generalizing f s log with
  | nil => exact hlog
  | cons b bs ih =>
    obtain ⟨hcap, hlog', hholds⟩ := push_delivers callback (s := s) b hinv hf hlog
    rw [pushAll_cons]
    by_cases herr : (push (logging callback) f (s, log) b).1.error = .ok
    · rw [resume_of_ok _ _ herr, ← hcap]
      exact ih (push_inv _ hinv herr) (hholds herr) (by rw [hcap]; exact hlog')
    · rw [resume_of_error _ _ herr]
      exact hlog'

end

/-! ## The segments of a frame -/

/-- The views of a frame's segments, as its table gives them. -/
def segmentViews (frame : Bytes) : List View :=
  (List.range (segmentCount frame)).map fun i =>
    ⟨segmentOffset (Mem.ofBytes frame) (segmentCount frame) i,
      segmentWords (Mem.ofBytes frame) i * 8⟩

@[simp] theorem length_segmentViews (frame : Bytes) :
    (segmentViews frame).length = segmentCount frame := by
  simp [segmentViews]

section
variable {cap : Nat} {frame : Bytes} (hcap : cap ≤ messageMax) (hframe : IsFrame cap frame)
include hframe

/-- The segments end where the frame does. -/
theorem IsFrame.end_eq :
    segmentOffset (Mem.ofBytes frame) (segmentCount frame) (segmentCount frame) = frame.length :=
  (totalSize_eq_ok.1 hframe.size).2.1.symm

/-- Every segment lies inside the frame. -/
theorem IsFrame.offset_le {k : Nat} (hk : k ≤ segmentCount frame) :
    segmentOffset (Mem.ofBytes frame) (segmentCount frame) k ≤ frame.length := by
  obtain ⟨j, hj⟩ := Nat.exists_eq_add_of_le hk
  have := segmentOffset_mono (Mem.ofBytes frame) (segmentCount frame) k j
  rwa [← hj, hframe.end_eq] at this

/-- The first `k` segments are the bytes from the table up to where the next one starts. -/
theorem IsFrame.flatten_views (k : Nat) (hk : k ≤ segmentCount frame) :
    (((segmentViews frame).take k).map (·.bytes frame)).flatten =
      (frame.take (segmentOffset (Mem.ofBytes frame) (segmentCount frame) k)).drop
        (tableSize (segmentCount frame)) := by
  induction k with
  | zero => simp
  | succ k ih =>
    have hend := hframe.offset_le (show k ≤ segmentCount frame by omega)
    have hstart := segmentOffset_mono (Mem.ofBytes frame) (segmentCount frame) 0 k
    rw [Nat.zero_add, segmentOffset_zero] at hstart
    have hview : (segmentViews frame)[k]? = some
        ⟨segmentOffset (Mem.ofBytes frame) (segmentCount frame) k,
          segmentWords (Mem.ofBytes frame) k * 8⟩ := by
      simp [segmentViews, show k < segmentCount frame by omega]
    rw [List.take_add_one, hview, List.map_append, List.flatten_append, ih (by omega),
      segmentOffset_succ]
    simp only [Option.toList_some, List.map_cons, List.map_nil, List.flatten_cons,
      List.flatten_nil, List.append_nil, View.bytes]
    rw [List.take_add, List.drop_append_of_le_length (by rw [List.length_take]; omega)]

include hcap

/-- The validator gives a segment for exactly the indices below the segment count. -/
theorem IsFrame.capnpSegment_eq (i : Nat) :
    capnpSegment frame i =
      if i < segmentCount frame then
        .ok ⟨segmentOffset (Mem.ofBytes frame) (segmentCount frame) i,
          segmentWords (Mem.ofBytes frame) i * 8⟩
      else .error .argument := by
  have htab := tableSize_lt_of_totalSize (by omega) hframe.size
  have hge := tableSize_ge (u32 (Mem.ofBytes frame) 0 + 1)
  obtain ⟨h0, hlen, hle⟩ := totalSize_eq_ok.1 hframe.size
  have hsize : totalSize (Mem.ofBytes frame) (u32 (Mem.ofBytes frame) 0 + 1) messageMax =
      .ok frame.length := totalSize_eq_ok.2 ⟨h0, hlen, by omega⟩
  have hcount := hframe.count
  unfold capnpSegment segmentCount
  dsimp only
  rw [if_neg (by omega), if_neg (by omega)]
  by_cases hi : i < u32 (Mem.ofBytes frame) 0 + 1
  · rw [if_neg (by omega), if_neg (by omega), hsize, if_pos hi]
    simp
  · rw [if_pos (by omega), if_neg hi]

theorem IsFrame.readSegments_eq (k i : Nat) (hi : i + k ≤ segmentCount frame) :
    Capnp.readSegments frame k i = .ok ((List.range' i k).map fun j =>
      ⟨segmentOffset (Mem.ofBytes frame) (segmentCount frame) j,
        segmentWords (Mem.ofBytes frame) j * 8⟩) := by
  induction k generalizing i with
  | zero => rfl
  | succ k ih =>
    rw [Capnp.readSegments, hframe.capnpSegment_eq hcap, if_pos (by omega), ih (i + 1) (by omega)]
    rfl

/-- The reader accepts the frame and takes the segments the validator gives. -/
theorem IsFrame.cpReadInit_eq :
    Capnp.cpReadInit frame = .ok ⟨frame, segmentViews frame, segmentCount frame,
      Capnp.traversalWords, .ok, []⟩ := by
  have hpos : segmentCount frame = segmentCount frame - 1 + 1 := by unfold segmentCount; omega
  have hviews : segmentViews frame =
      ⟨segmentOffset (Mem.ofBytes frame) (segmentCount frame) 0,
        segmentWords (Mem.ofBytes frame) 0 * 8⟩ ::
      (List.range' 1 (segmentCount frame - 1)).map fun j =>
        ⟨segmentOffset (Mem.ofBytes frame) (segmentCount frame) j,
          segmentWords (Mem.ofBytes frame) j * 8⟩ := by
    unfold segmentViews
    rw [hpos, List.range_eq_range', List.range'_succ]
    rfl
  rw [Capnp.cpReadInit, hframe.capnpSegment_eq hcap, if_pos (by omega), hviews]
  have := hframe.readSegments_eq hcap (segmentCount frame - 1) 1 (by omega)
  unfold segmentCount at this ⊢
  simp only [bind, Except.bind, this]
  rfl

end

/-- What the reader and the validator make of a frame: the reader accepts it, `cf_capnp_segment`
succeeds for exactly the indices below the segment count, and the views it gives are whole words,
start after the table, follow each other without gap or overlap and cover the rest of the frame. -/
def SegmentsTile (frame : Bytes) : Prop :=
  (∃ rd, Capnp.cpReadInit frame = .ok rd) ∧
    ∃ views : List View, views.length = segmentCount frame ∧
      (∀ i, capnpSegment frame i = if h : i < views.length then .ok views[i] else .error .argument) ∧
      (∀ v ∈ views, v.len % 8 = 0 ∧ v.off + v.len ≤ frame.length) ∧
      (∀ v, views[0]? = some v → v.off = tableSize (segmentCount frame)) ∧
      (∀ i v w, views[i]? = some v → views[i + 1]? = some w → w.off = v.off + v.len) ∧
      (views.map (·.bytes frame)).flatten = frame.drop (tableSize (segmentCount frame))

/-- On a frame the framer delivers, the validator and the reader agree about the segments. -/
theorem IsFrame.segmentsTile {cap : Nat} {frame : Bytes} (hcap : cap ≤ messageMax)
    (hframe : IsFrame cap frame) : SegmentsTile frame := by
  refine ⟨⟨_, hframe.cpReadInit_eq hcap⟩, segmentViews frame, length_segmentViews frame, ?_, ?_, ?_,
    ?_, ?_⟩
  · intro i
    rw [hframe.capnpSegment_eq hcap]
    by_cases hi : i < segmentCount frame
    · rw [if_pos hi, dif_pos (by simpa using hi)]
      simp [segmentViews]
    · rw [if_neg hi, dif_neg (by simpa using hi)]
  · intro v hv
    obtain ⟨i, hi, rfl⟩ := List.mem_map.1 hv
    refine ⟨by simp, ?_⟩
    have := hframe.offset_le (k := i + 1) (by have := List.mem_range.1 hi; omega)
    rwa [segmentOffset_succ] at this
  · intro v hv
    have hpos : 0 < segmentCount frame := by unfold segmentCount; omega
    simp only [segmentViews, List.getElem?_map, List.getElem?_range hpos, Option.map_some,
      Option.some.injEq] at hv
    rw [← hv]
    rfl
  · intro i v w hv hw
    have hi : i + 1 < segmentCount frame := by
      rw [← length_segmentViews frame]
      exact (List.getElem?_eq_some_iff.1 hw).1
    simp only [segmentViews, List.getElem?_map, List.getElem?_range hi,
      List.getElem?_range (show i < segmentCount frame by omega), Option.map_some,
      Option.some.injEq] at hv hw
    rw [← hv, ← hw]
    rfl
  · have := hframe.flatten_views (segmentCount frame) le_rfl
    rwa [hframe.end_eq, List.take_length, ← length_segmentViews frame, List.take_length,
      length_segmentViews] at this

/-! ## The framer loses nothing -/

/-- The callback that accepts every frame and keeps them. -/
def collect (frames : List Bytes) (frame : Bytes) : List Bytes × Result := (frames ++ [frame], .ok)

/-- A list of frames goes through whole, in order, and leaves the framer at the start of the next. -/
theorem pushAll_collect {f : Framer} (frames : List Bytes) (seen : List Bytes) (rest : Bytes)
    (h : ∀ fr ∈ frames, IsFrame f.capacity fr) :
    ∃ f', f'.capacity = f.capacity ∧
      pushAll collect (framerReset f) seen (frames.flatten ++ rest) =
        (pushAll collect (framerReset f') (seen ++ frames) rest).advance frames.flatten.length := by
  induction frames generalizing f seen with
  | nil => exact ⟨f, rfl, by simp⟩
  | cons fr frames ih =>
    have hfr := h fr (by simp)
    obtain ⟨g, hg⟩ : ∃ g, g = f.partway fr fr.length fr.length (segmentCount fr) 2 := ⟨_, rfl⟩
    have hread : g.buffer.read 0 g.used = fr := by
      rw [hg]
      simp only [Framer.partway, Framer.fill, framerReset, List.take_length, Nat.zero_add,
        Mem.read_write_same]
    have hphase : g.phase = 2 := by rw [hg]; rfl
    have hc : complete collect g seen = (framerReset g, seen ++ [fr]) := by
      rw [complete_frame collect seen (by omega) (by omega), hread]
      rfl
    obtain ⟨f', hcap, heq⟩ := ih (f := g) (seen ++ [fr]) (fun x hx => by
      rw [hg]; exact h x (List.mem_cons_of_mem _ hx))
    refine ⟨f', by rw [hcap, hg]; rfl, ?_⟩
    rw [List.flatten_cons, List.append_assoc, pushAll_frame collect seen hfr, ← hg, hc,
      resume_of_ok collect _ rfl, heq, FeedResult.advance_advance, List.append_assoc,
      List.singleton_append, List.length_append, Nat.add_comm fr.length]

/-- **The framer and the segment validator agree, and the framer loses nothing.** For every framer
`cf_capnp_framer_init` returns: a stream of well-formed frames, cut into any chunks, is delivered
frame by frame, consumed whole and ends at a frame border; cut strictly inside a frame it delivers
the whole frames before the cut and ends truncated; and every frame delivered from any stream to
any callback is accepted by the reader and the validator, which agree about its segments. -/
theorem framer_agrees {buffer : Mem} {cap : Nat} {f : Framer}
    (hinit : framerInit buffer cap = .ok f) :
    (∀ frames chunks : List Bytes, (∀ fr ∈ frames, WellFormed cap fr) →
      chunks.flatten = frames.flatten →
      let r := feedAll collect f [] chunks
      r.state = frames ∧ r.result = .ok ∧ r.consumed = frames.flatten.length ∧
        capnpEof r.framer = .ok) ∧
    (∀ (frames chunks : List Bytes) (fr : Bytes) (k : Nat),
      (∀ fr' ∈ frames ++ [fr], WellFormed cap fr') → 0 < k → k < fr.length →
      chunks.flatten = frames.flatten ++ fr.take k →
      let r := feedAll collect f [] chunks
      r.state = frames ∧ capnpEof r.framer = .truncated) ∧
    (∀ (σ : Type) (callback : σ → Bytes → σ × Result) (s : σ) (chunks : List Bytes),
      ∀ fr ∈ (feedAll (logging callback) f (s, []) chunks).state.2, SegmentsTile fr) := by
  obtain ⟨-, hcap, rfl⟩ := framerInit_eq_ok hinit
  have hinv := framerReset_inv ⟨buffer, cap, 0, 0, 0, 0, .ok⟩
  refine ⟨?_, ?_, ?_⟩
  · intro frames chunks hwf hstream
    obtain ⟨f', -, heq⟩ := pushAll_collect (f := ⟨buffer, cap, 0, 0, 0, 0, .ok⟩) frames [] []
      (fun fr hfr => (hwf fr hfr).isFrame hcap)
    dsimp only
    rw [feedAll_eq_pushAll collect [] chunks hinv rfl, hstream, ← List.append_nil frames.flatten,
      heq]
    simp [pushAll, FeedResult.advance, capnpEof, framerReset]
  · intro frames chunks fr k hwf hpos hlt hstream
    have hframes : ∀ fr' ∈ frames, IsFrame cap fr' := fun fr' h =>
      (hwf fr' (List.mem_append_left _ h)).isFrame hcap
    have hfr : IsFrame cap fr := (hwf fr (by simp)).isFrame hcap
    obtain ⟨f', hcap', heq⟩ := pushAll_collect (f := ⟨buffer, cap, 0, 0, 0, 0, .ok⟩) frames []
      (fr.take k) hframes
    dsimp only
    rw [feedAll_eq_pushAll collect [] chunks hinv rfl, hstream, heq]
    obtain ⟨hused, herr, hstate⟩ := pushAll_cut collect (f := f') ([] ++ frames)
      (by rw [hcap']; exact hfr) hlt
    refine ⟨by simpa [FeedResult.advance] using hstate, ?_⟩
    have hused' : (pushAll collect (framerReset f') ([] ++ frames) (fr.take k)).framer.used ≠ 0 := by
      omega
    simp only [FeedResult.advance, capnpEof, herr, hused', ne_eq, not_true_eq_false, if_false,
      not_false_eq_true, if_true]
  · intro σ callback s chunks fr hfr
    rw [feedAll_eq_pushAll (logging callback) (s, []) chunks hinv rfl] at hfr
    have := pushAll_delivers callback chunks.flatten hinv (framerReset_holds _) (by simp) fr hfr
    exact this.segmentsTile hcap

/-- One word in one segment, byte for byte: the frame arrives and is read back as one segment. -/
theorem framer_agrees_word :
    let f := framerReset ⟨fun _ => 0, 16, 0, 0, 0, 0, .ok⟩
    let frame : Bytes := [0, 0, 0, 0, 1, 0, 0, 0, 7, 0, 0, 0, 0, 0, 0, 0]
    (feedAll collect f [] (frame.map fun b => [b])).state = [frame] :=
  ((@framer_agrees (fun _ => 0) 16 _ rfl).1
    [[0, 0, 0, 0, 1, 0, 0, 0, 7, 0, 0, 0, 0, 0, 0, 0]] _
    (by
      simp only [List.mem_singleton, forall_eq]
      exact ⟨[[7, 0, 0, 0, 0, 0, 0, 0]], [], by decide, by decide, by decide, by decide, by decide,
        by decide, by decide⟩) (by decide)).1

end EspCfTunnel.Framing
