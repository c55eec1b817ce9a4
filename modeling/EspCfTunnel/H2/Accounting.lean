import EspCfTunnel.H2.Allocator

/-!
# What the heap counters say

Seen from outside, the allocator keeps a ledger of live blocks: it grants a block, releases one, or
leaves everything as it was. The calls are first brought to these moves (`allocate_cases`,
`deallocate_eq`, `resize_zero`, `resize_cases`, `zeroAllocate_cases`); the moves keep the books, so
they are right after every sequence of calls.
-/

namespace EspCfTunnel.Allocator

open EspCfTunnel StateLogic

variable {t : Target} {s : Heap} {p q size n : Nat} {b c : Block} {room : Option Room}

/-! ## The moves -/

/-- A new block is live and charged. -/
def Heap.grant (s : Heap) (p : Nat) (b : Block) : Heap :=
  { s with live := s.live.insert p b, current := s.current + b.bytes,
           peak := max s.peak (s.current + b.bytes) }

/-- A live block is written. -/
def Heap.store (s : Heap) (p : Nat) (b : Block) : Heap := { s with live := s.live.insert p b }

/-- A block is given back with its charge. -/
def Heap.release (s : Heap) (p : Nat) (b : Block) : Heap :=
  { s with live := s.live.erase p, current := s.current - b.bytes }

/-- A block as `allocate` lays it out: the memory it holds, with the `allocation`, is its charge. -/
def Block.Shaped (t : Target) (b : Block) : Prop :=
  b.bytes = t.header + b.data.length ∧ b.size = b.bytes

/-- The books are right. -/
structure Accounted (t : Target) (s : Heap) : Prop where
  charged : s.current = Ledger.total Block.bytes s.live
  shaped : ∀ p b, s.live.lookup p = some b → b.Shaped t
  current_le : s.current ≤ s.peak
  peak_le : s.peak ≤ s.limit
  limit_ge : 8192 ≤ s.limit
  limit_le : s.limit ≤ 65536
  unwrapped : s.wrapped = false
  unfaulted : s.faulted = false

namespace Accounted

theorem fresh {limit : Nat} (hge : 8192 ≤ limit) (hle : limit ≤ 65536) : Accounted t (.fresh limit) where
  charged := rfl
  shaped := by
    intro p b h
    simp [Heap.fresh] at h
  current_le := le_refl _
  peak_le := Nat.zero_le _
  limit_ge := hge
  limit_le := hle
  unwrapped := rfl
  unfaulted := rfl

theorem bytes_le (h : Accounted t s) (hp : s.live.lookup p = some b) : b.bytes ≤ s.current := by
  rw [h.charged]
  exact Ledger.le_total hp

theorem grant (h : Accounted t s) (hp : s.live.lookup p = none) (hb : b.Shaped t)
    (hroom : s.current + b.bytes ≤ s.limit) : Accounted t (s.grant p b) where
  charged := by
    rw [Heap.grant, Ledger.total_insert_new hp, h.charged]
  shaped := by
    intro q c hq
    rcases eq_or_ne q p with rfl | hne
    · rw [Heap.grant, AList.lookup_insert] at hq
      cases hq
      exact hb
    · rw [Heap.grant, AList.lookup_insert_ne hne] at hq
      exact h.shaped q c hq
  current_le := le_max_right _ _
  peak_le := max_le h.peak_le hroom
  limit_ge := h.limit_ge
  limit_le := h.limit_le
  unwrapped := h.unwrapped
  unfaulted := h.unfaulted

theorem store (h : Accounted t s) (hp : s.live.lookup p = some b) (hc : c.Shaped t)
    (hbytes : c.bytes = b.bytes) : Accounted t (s.store p c) where
  charged := by
    rw [Heap.store, Ledger.total_insert_same hp hbytes, h.charged]
  shaped := by
    intro q d hq
    rcases eq_or_ne q p with rfl | hne
    · rw [Heap.store, AList.lookup_insert] at hq
      cases hq
      exact hc
    · rw [Heap.store, AList.lookup_insert_ne hne] at hq
      exact h.shaped q d hq
  current_le := h.current_le
  peak_le := h.peak_le
  limit_ge := h.limit_ge
  limit_le := h.limit_le
  unwrapped := h.unwrapped
  unfaulted := h.unfaulted

theorem release (h : Accounted t s) (hp : s.live.lookup p = some b) : Accounted t (s.release p b) where
  charged := by
    have hsum : Ledger.total Block.bytes (s.live.erase p) + b.bytes = Ledger.total Block.bytes s.live :=
      Ledger.total_erase hp
    have hcharged := h.charged
    simp only [Heap.release]
    omega
  shaped := by
    intro q c hq
    rcases eq_or_ne q p with rfl | hne
    · simp [Heap.release] at hq
    · rw [Heap.release, AList.lookup_erase_ne hne] at hq
      exact h.shaped q c hq
  current_le := (Nat.sub_le _ _).trans h.current_le
  peak_le := h.peak_le
  limit_ge := h.limit_ge
  limit_le := h.limit_le
  unwrapped := h.unwrapped
  unfaulted := h.unfaulted

end Accounted

/-! ## Sizes and memory -/

theorem wrapIf_false (s : Heap) : wrapIf false s = ((), s) := by
  simp [wrapIf]

theorem add_eq {a b : Nat} (h : a + b ≤ t.sizeMax) (s : Heap) : add t a b s = (a + b, s) := by
  have hno : decide (t.sizeMax < a + b) = false := decide_eq_false (by omega)
  rw [add, run_bind, hno, wrapIf_false, run_pure, Nat.mod_eq_of_lt (by omega)]

theorem sub_eq {a b : Nat} (h : b ≤ a) (ha : a ≤ t.sizeMax) (s : Heap) : sub t a b s = (a - b, s) := by
  have hno : decide (a < b) = false := decide_eq_false (by omega)
  have hval : (a + (t.sizeMax + 1) - b) % (t.sizeMax + 1) = a - b := by
    rw [show a + (t.sizeMax + 1) - b = a - b + (t.sizeMax + 1) by omega, Nat.add_mod_right,
      Nat.mod_eq_of_lt (by omega)]
  rw [sub, run_bind, hno, wrapIf_false, run_pure, hval]

theorem mul_eq {a b : Nat} (h : a * b ≤ t.sizeMax) (s : Heap) : mul t a b s = (a * b, s) := by
  have hno : decide (t.sizeMax < a * b) = false := decide_eq_false (by omega)
  rw [mul, run_bind, hno, wrapIf_false, run_pure, Nat.mod_eq_of_lt (by omega)]

theorem faultIf_false (s : Heap) : faultIf false s = ((), s) := by
  simp [faultIf]

theorem block_eq (h : s.live.lookup p = some b) : block p s = (b, s) := by
  simp [block, h]

@[simp] theorem put_eq (p : Nat) (b : Block) (s : Heap) : put p b s = ((), s.store p b) := rfl

theorem Heap.store_store (s : Heap) (p : Nat) (b c : Block) : (s.store p b).store p c = s.store p c := by
  rw [Heap.store, Heap.store, Heap.store, AList.insert_insert]

@[simp] theorem Heap.lookup_store (s : Heap) (p : Nat) (b : Block) :
    (s.store p b).live.lookup p = some b :=
  AList.lookup_insert _

theorem Heap.lookup_store_ne (s : Heap) (h : q ≠ p) (b : Block) :
    (s.store p b).live.lookup q = s.live.lookup q :=
  AList.lookup_insert_ne h

@[simp] theorem Heap.lookup_grant (s : Heap) (p : Nat) (b : Block) :
    (s.grant p b).live.lookup p = some b :=
  AList.lookup_insert _

theorem Heap.lookup_grant_ne (s : Heap) (h : q ≠ p) (b : Block) :
    (s.grant p b).live.lookup q = s.live.lookup q :=
  AList.lookup_insert_ne h

theorem erase_insert (l : AList fun _ : Nat => Block) (p : Nat) (b : Block) :
    (l.insert p b).erase p = l.erase p := by
  apply AList.ext
  have hentries : ((l.insert p b).erase p).entries = (⟨p, b⟩ :: l.entries.kerase p).kerase p :=
    congrArg (List.kerase p) AList.entries_insert
  exact hentries.trans (List.kerase_cons_eq rfl)

theorem secureZero_eq (h : s.live.lookup p = some b) (hn : n ≤ b.size) :
    secureZero t p n s = ((), s.store p { b with
      bytes := 0, data := List.replicate (n - t.header) 0 ++ b.data.drop (n - t.header) }) := by
  have hin : decide (b.size < n) = false := decide_eq_false (by omega)
  rw [secureZero, run_bind, block_eq h]
  dsimp only
  rw [run_bind, hin, faultIf_false, put_eq]

theorem free_eq (h : s.live.lookup p = some b) :
    free p s = ((), { s with live := s.live.erase p }) := by
  rw [free, run_bind, block_eq h, run_modify]

theorem memset_eq (h : s.live.lookup p = some b) (hn : n ≤ b.data.length) :
    memset p n s = ((), s.store p { b with data := List.replicate n 0 ++ b.data.drop n }) := by
  have hin : decide (b.data.length < n) = false := decide_eq_false (by omega)
  rw [memset, run_bind, block_eq h]
  dsimp only
  rw [run_bind, hin, faultIf_false, put_eq]

theorem memcpy_eq (hq : s.live.lookup q = some c) (hp : s.live.lookup p = some b)
    (hdst : n ≤ c.data.length) (hsrc : n ≤ b.data.length) :
    memcpy q p n s = ((), s.store q { c with data := b.data.take n ++ c.data.drop n }) := by
  have hin : (decide (c.data.length < n) || decide (b.data.length < n)) = false := by
    rw [decide_eq_false (by omega : ¬ c.data.length < n),
      decide_eq_false (by omega : ¬ b.data.length < n), Bool.or_false]
  rw [memcpy, run_bind, block_eq hq]
  dsimp only
  rw [run_bind, block_eq hp]
  dsimp only
  rw [run_bind, hin, faultIf_false, put_eq]

/-! ## The calls as moves -/

theorem header_le (h : Accounted t s) : t.header ≤ s.limit := t.header_le.trans h.limit_ge

theorem limit_le_sizeMax (h : Accounted t s) : s.limit ≤ t.sizeMax := h.limit_le.trans t.le_sizeMax

/-- A pointer is granted only when the limit has room for the block besides all that are live. -/
theorem allocate_cases (h : Accounted t s) (hfresh : Fresh s room) :
    allocate t size room s = (none, s) ∨
      ∃ p b, allocate t size room s = (some p, s.grant p b) ∧ s.live.lookup p = none ∧
        b.Shaped t ∧ b.data.length = size ∧ s.current + b.bytes ≤ s.limit := by
  have hheader := header_le h
  have hmax := limit_le_sizeMax h
  have hcurrent := h.current_le.trans h.peak_le
  rw [allocate, run_bind, run_get, run_bind, sub_eq hheader hmax]
  dsimp only
  rw [run_ite]
  split
  · exact .inl rfl
  next hsize =>
    have htotal : size + t.header ≤ t.sizeMax := by omega
    rw [run_bind, add_eq htotal]
    dsimp only
    rw [run_bind, sub_eq hcurrent hmax]
    dsimp only
    rw [run_ite]
    split
    · exact .inl rfl
    next hleft =>
      cases room with
      | none => exact .inl rfl
      | some r =>
        have hnew : s.live.lookup r.address = none := hfresh r rfl
        have hsum : s.current + (size + t.header) ≤ t.sizeMax := by omega
        refine .inr ⟨r.address, ⟨size + t.header, size + t.header, (List.range size).map r.byte⟩,
          ?_, hnew, ⟨?_, rfl⟩, by simp, ?_⟩
        · rw [run_bind, malloc, run_bind, put_eq, run_pure]
          dsimp only
          rw [run_bind, block_eq (Heap.lookup_store s _ _)]
          dsimp only
          rw [run_bind, put_eq, Heap.store_store, Nat.add_sub_cancel]
          dsimp only
          rw [run_bind, add_eq hsum, run_bind, run_modify, run_pure, ← max_def_lt]
          rfl
        · simp [Nat.add_comm]
        · dsimp only
          omega

theorem deallocate_eq (h : Accounted t s) (hp : s.live.lookup p = some b) :
    deallocate t (some p) s = ((), s.release p b) := by
  have hbytes := h.bytes_le hp
  have hmax := limit_le_sizeMax h
  have hcurrent := h.current_le.trans h.peak_le
  have hsize : b.bytes ≤ b.size := (h.shaped p b hp).2.ge
  have hlower : ({ s with current := s.current - b.bytes } : Heap).live.lookup p = some b := hp
  rw [deallocate, run_bind, block_eq hp]
  dsimp only
  rw [run_bind, run_get]
  dsimp only
  rw [run_bind, sub_eq hbytes (by omega)]
  dsimp only
  rw [run_bind, run_modify]
  dsimp only
  rw [run_bind, secureZero_eq hlower hsize]
  dsimp only
  rw [free_eq (Heap.lookup_store _ _ _)]
  simp only [Heap.store, Heap.release, erase_insert]

theorem resize_zero (h : Accounted t s) (hp : s.live.lookup p = some b) :
    resize t (some p) 0 room s = (none, s.release p b) := by
  rw [resize, run_ite, if_pos rfl, run_bind, deallocate_eq h hp, run_pure]

/-- The old block is given up only when the new one is granted, and the copy reaches into neither
beyond its end. -/
theorem resize_cases (h : Accounted t s) (hp : s.live.lookup p = some b) (hsize : size ≠ 0)
    (hfresh : Fresh s room) :
    (resize t (some p) size room s = (none, s) ∧ allocate t size room s = (none, s)) ∨
      ∃ q c d, allocate t size room s = (some q, s.grant q c) ∧
        resize t (some p) size room s = (some q, ((s.grant q c).store q d).release p b) ∧
        p ≠ q ∧ Accounted t (s.grant q c) ∧ Accounted t ((s.grant q c).store q d) ∧
        d.bytes = c.bytes ∧ d.data.length = size ∧
        d.data.take (min b.data.length size) = b.data.take (min b.data.length size) := by
  have hb := h.shaped p b hp
  have hheader : t.header ≤ b.bytes := by rw [hb.1]; exact Nat.le_add_right _ _
  have hmax : b.bytes ≤ t.sizeMax :=
    (h.bytes_le hp).trans ((h.current_le.trans h.peak_le).trans (limit_le_sizeMax h))
  have hold : b.bytes - t.header = b.data.length := by rw [hb.1, Nat.add_sub_cancel_left]
  -- Behind the allocation: what is done with the block that it gives, if it gives one.
  obtain ⟨k, hrun, hfails, hcopies⟩ : ∃ k : Option Nat → M (Option Nat),
      resize t (some p) size room s = (allocate t size room >>= k) s ∧ k none = pure none ∧
      ∀ q, k (some q) = (do
        memcpy q p (if b.data.length < size then b.data.length else size)
        deallocate t (some p)
        return some q) := by
    rw [resize, run_ite, if_neg hsize, run_bind, block_eq hp]
    dsimp only
    rewrite [run_bind, sub_eq hheader hmax, hold]
    exact ⟨_, rfl, rfl, fun _ => rfl⟩
  rcases allocate_cases h hfresh with hnone | ⟨q, c, hsome, hq, hc, hlen, hroom⟩
  · refine .inl ⟨?_, hnone⟩
    rw [hrun, run_bind_eq hnone, hfails]
    rfl
  · have hne : p ≠ q := by
      intro hpq
      rw [← hpq, hp] at hq
      cases hq
    have hp' : (s.grant q c).live.lookup p = some b := by rw [Heap.lookup_grant_ne s hne, hp]
    have hmin : (if b.data.length < size then b.data.length else size) = min b.data.length size := by
      split <;> omega
    obtain ⟨n, hn⟩ : ∃ n, n = min b.data.length size := ⟨_, rfl⟩
    have hd : ({ c with data := b.data.take n ++ c.data.drop n } : Block).data.length = size := by
      simp only [List.length_append, List.length_take, List.length_drop]
      omega
    have hgrant := h.grant hq hc hroom
    have hstore := hgrant.store (c := { c with data := b.data.take n ++ c.data.drop n })
      (Heap.lookup_grant s q c) ⟨hc.1.trans (by rw [hlen, hd]), hc.2⟩ rfl
    have hlive : ((s.grant q c).store q { c with data := b.data.take n ++ c.data.drop n }).live.lookup p =
        some b := by
      rw [Heap.lookup_store_ne _ hne, hp']
    refine .inr ⟨q, c, { c with data := b.data.take n ++ c.data.drop n }, hsome, ?_, hne, hgrant,
      hstore, rfl, hd, ?_⟩
    · rw [hrun, run_bind_eq hsome, hcopies, hmin, ← hn, run_bind, memcpy_eq (Heap.lookup_grant s q c) hp' (by omega) (by omega)]
      dsimp only
      rw [run_bind, deallocate_eq hstore hlive, run_pure]
    · rw [← hn]
      dsimp only
      rw [List.take_append_of_le_length (by rw [List.length_take]; omega), List.take_take, Nat.min_self]

theorem zeroAllocate_cases {m : Nat} (h : Accounted t s) (hfresh : Fresh s room) :
    zeroAllocate t m size room s = (none, s) ∨
      ∃ p b, zeroAllocate t m size room s =
          (some p, (s.grant p b).store p { b with data := List.replicate (m * size) 0 }) ∧
        s.live.lookup p = none ∧ b.Shaped t ∧ b.data.length = m * size ∧
        s.current + b.bytes ≤ s.limit := by
  rw [zeroAllocate, run_ite]
  split
  · exact .inl rfl
  next hguard =>
    have htotal : m * size ≤ t.sizeMax := by
      rcases Nat.eq_zero_or_pos m with rfl | hm
      · rw [Nat.zero_mul]
        exact Nat.zero_le _
      · rw [Nat.mul_comm]
        exact (Nat.le_div_iff_mul_le hm).1 (not_lt.1 fun hlt => hguard ⟨hm.ne', hlt⟩)
    rw [run_bind, mul_eq htotal]
    dsimp only
    rcases allocate_cases h hfresh with hnone | ⟨p, b, hsome, hp, hb, hlen, hroom⟩
    · rw [run_bind_eq hnone]
      exact .inl rfl
    · refine .inr ⟨p, b, ?_, hp, hb, hlen, hroom⟩
      rw [run_bind_eq hsome]
      dsimp only
      rw [run_bind, mul_eq htotal]
      dsimp only
      rw [run_bind, memset_eq (Heap.lookup_grant s p b) hlen.ge, run_pure, List.drop_eq_nil_of_le hlen.le,
        List.append_nil]

/-! ## Runs -/

theorem call_accounted {c : Call} (h : Accounted t s) (hc : c.Legal t s) :
    Accounted t (call t c s).2 ∧ (call t c s).2.limit = s.limit := by
  cases c with
  | allocate size room =>
    rcases allocate_cases h hc.2 with hnone | ⟨p, b, hsome, hp, hb, -, hroom⟩
    · rw [call, hnone]
      exact ⟨h, rfl⟩
    · rw [call, hsome]
      exact ⟨h.grant hp hb hroom, rfl⟩
  | deallocate p =>
    cases p with
    | none => exact ⟨h, rfl⟩
    | some p =>
      obtain ⟨b, hp⟩ := Option.isSome_iff_exists.1 (hc p rfl)
      rw [call, run_bind, deallocate_eq h hp]
      exact ⟨h.release hp, rfl⟩
  | zeroAllocate m size room =>
    rcases zeroAllocate_cases h hc.2.2 with hnone | ⟨p, b, hsome, hp, hb, hlen, hroom⟩
    · rw [call, hnone]
      exact ⟨h, rfl⟩
    · rw [call, hsome]
      refine ⟨(h.grant hp hb hroom).store (Heap.lookup_grant s p b) ⟨?_, hb.2⟩ rfl, rfl⟩
      rw [List.length_replicate, ← hlen]
      exact hb.1
  | resize p size room =>
    cases p with
    | none =>
      rcases allocate_cases h hc.2.2 with hnone | ⟨p, b, hsome, hp, hb, -, hroom⟩
      · rw [call, resize, hnone]
        exact ⟨h, rfl⟩
      · rw [call, resize, hsome]
        exact ⟨h.grant hp hb hroom, rfl⟩
    | some p =>
      obtain ⟨b, hp⟩ := Option.isSome_iff_exists.1 (hc.1 p rfl)
      rcases Nat.eq_zero_or_pos size with rfl | hsize
      · rw [call, resize_zero h hp]
        exact ⟨h.release hp, rfl⟩
      · rcases resize_cases h hp hsize.ne' hc.2.2 with ⟨hnone, -⟩ | ⟨q, c, d, -, hsome, hne, -, hstore, -⟩
        · rw [call, hnone]
          exact ⟨h, rfl⟩
        · rw [call, hsome]
          refine ⟨hstore.release ?_, rfl⟩
          rw [Heap.lookup_store_ne _ hne, Heap.lookup_grant_ne s hne, hp]
  | write p i v =>
    obtain ⟨b, hp⟩ := Option.isSome_iff_exists.1 (hc p rfl)
    have hb := h.shaped p b hp
    rw [call, run_bind, block_eq hp]
    refine ⟨h.store (c := { b with data := b.data.set i v }) hp ⟨?_, hb.2⟩ rfl, rfl⟩
    rw [List.length_set]
    exact hb.1

theorem run_accounted {calls : List Call} (h : Accounted t s) (hc : Legal t calls s) :
    Accounted t (run t calls s) ∧ (run t calls s).limit = s.limit := by
  induction calls generalizing s with
  | nil => exact ⟨h, rfl⟩
  | cons c calls ih =>
    obtain ⟨hstep, hlimit⟩ := call_accounted h hc.1
    obtain ⟨hrest, heq⟩ := ih hstep hc.2
    exact ⟨hrest, heq.trans hlimit⟩

/-- Whatever nghttp2 has asked for, and whenever `malloc` has failed: the counter is the sum of what
the live blocks are charged, neither it nor its peak passes the limit, and no size has wrapped. A
resize takes the new block while the old one is still charged; it either leaves everything as it was
or keeps what both sizes hold. -/
theorem ngheap_accounted (t : Target) {limit : Nat} (hge : 8192 ≤ limit) (hle : limit ≤ 65536)
    (calls : List Call) (hcalls : Legal t calls (.fresh limit)) :
    let s := run t calls (.fresh limit)
    (s.current = Ledger.total Block.bytes s.live ∧ s.current ≤ s.peak ∧ s.peak ≤ s.limit ∧
      s.limit = limit ∧ s.wrapped = false ∧ s.faulted = false) ∧
    (s.live = ∅ → s.current = 0) ∧
    ∀ p b size room, s.live.lookup p = some b → 0 < size → size ≤ t.sizeMax → Fresh s room →
      let mid := allocate t size room s
      let r := resize t (some p) size room s
      (r.1 = none → r.2 = s) ∧
      ∀ q, r.1 = some q → ∃ c d,
        mid.1 = some q ∧ mid.2.live.lookup p = some b ∧ mid.2.live.lookup q = some c ∧
        mid.2.current = Ledger.total Block.bytes mid.2.live ∧ mid.2.current = s.current + c.bytes ∧
        mid.2.current ≤ r.2.peak ∧ r.2.peak ≤ limit ∧
        r.2.live.lookup q = some d ∧ r.2.live.lookup p = none ∧ d.data.length = size ∧
        d.data.take (min b.data.length size) = b.data.take (min b.data.length size) := by
  intro s
  obtain ⟨h, hlimit⟩ : Accounted t s ∧ s.limit = limit := run_accounted (.fresh hge hle) hcalls
  refine ⟨⟨h.charged, h.current_le, h.peak_le, hlimit, h.unwrapped, h.unfaulted⟩, ?_, ?_⟩
  · intro hempty
    rw [h.charged, hempty]
    rfl
  · intro p b size room hp hsize _ hfresh mid r
    rcases resize_cases h hp hsize.ne' hfresh with
      ⟨hnone, -⟩ | ⟨q, c, d, halloc, hsome, hne, hgrant, hstore, hbytes, hlen, hkept⟩
    · refine ⟨fun _ => congrArg Prod.snd hnone, ?_⟩
      intro q hq
      have hr : r.1 = none := congrArg Prod.fst hnone
      rw [hr] at hq
      cases hq
    · have hr : r = (some q, ((s.grant q c).store q d).release p b) := hsome
      have hmid : mid = (some q, s.grant q c) := halloc
      rw [hr, hmid]
      refine ⟨nofun, ?_⟩
      rintro q' hq'
      cases hq'
      refine ⟨c, d, rfl, ?_, Heap.lookup_grant s q c, hgrant.charged, rfl, hgrant.current_le, ?_, ?_,
        AList.lookup_erase _ _, hlen, hkept⟩
      · rw [Heap.lookup_grant_ne s hne, hp]
      · rw [← hlimit]
        exact hgrant.peak_le
      · exact (AList.lookup_erase_ne hne.symm).trans (Heap.lookup_store _ _ _)

/-- Two blocks, a `malloc` that fails, a block that grows, and one that is freed. -/
def growing : List Call :=
  [.allocate 100 (some ⟨4096, 0, fun _ => 170⟩), .write 4096 0 7,
   .zeroAllocate 3 5 (some ⟨8192, 0, fun _ => 170⟩), .allocate 40 none,
   .resize (some 4096) 200 (some ⟨16384, 0, fun _ => 170⟩), .deallocate (some 8192)]

theorem ngheap_accounted_growing :
    let s := run ⟨4294967295, 8, by simp, by simp⟩ growing (.fresh 8192)
    s.current = Ledger.total Block.bytes s.live ∧ s.current ≤ s.peak ∧ s.peak ≤ s.limit ∧
      s.limit = 8192 ∧ s.wrapped = false ∧ s.faulted = false :=
  (ngheap_accounted _ (le_refl _) (by simp) growing (by decide +kernel)).1

end EspCfTunnel.Allocator
