import EspCfTunnel.Dns.Name
import EspCfTunnel.Lib.StateLogic

/-!
# How a name is read

`read_name` statement by statement: what it reads from the packet, what it stores through `out`, and
what it leaves in `*offset`. Every index of the packet and of `out` that it uses is noted. The rounds
of its loop follow those of `readNameLoop` (`round_follows`), so it returns what `readName` says, and
a round that does not return has taken a pointer or a label of the 16 and 127 it may take.
-/

namespace EspCfTunnel.Dns

open EspCfTunnel StateLogic

/-- The local variables of `read_name` (its `at` is `pos`), what its arguments point to, and the
indices of the packet and of `out` that were used. -/
structure Frame where
  offset : Nat
  out : Mem
  pos : Nat
  used : Nat := 0
  resume : Nat := 0
  hops : Nat := 0
  labels : Nat := 0
  reads : List Nat := []
  writes : List Nat := []

section
variable (p : Buffer)

/-- `packet.ptr[at++]` -/
def nextByte : StateM Frame UInt8 := do
  let s ← get
  set { s with pos := s.pos + 1, reads := s.pos :: s.reads }
  return p.ptr s.pos

/-- `out[used++] = c` -/
def putChar (c : UInt8) : StateM Frame Unit :=
  modify fun s =>
    { s with out := s.out.write s.used [c], used := s.used + 1, writes := s.used :: s.writes }

/-- `while (n--)`: the characters of a label. -/
def copyLabel : Nat → StateM Frame (Option Result)
  | 0 => return none
  | n + 1 => do
    let c ← nextByte p
    if !nameChar (lower c) then return some .format
    putChar (lower c)
    copyLabel n

/-- A compression pointer, whose first byte was `n`. -/
def takePointer (n : UInt8) : StateM Frame (Option Result) := do
  let s ← get
  if s.pos ≥ p.len then return some .truncated
  let low ← nextByte p
  let target := (n &&& 0x3f).toNat * 256 + low.toNat
  modify fun s => { s with hops := s.hops + 1 }
  let s ← get
  if s.hops > 16 ∨ target ≥ s.pos - 2 then return some .format
  set { s with resume := if s.resume = 0 then s.pos else s.resume, pos := target }
  return none

/-- The end of the name. -/
def finishName : StateM Frame (Option Result) := do
  let s ← get
  set { s with out := s.out.write s.used [0], writes := s.used :: s.writes,
               offset := if s.resume ≠ 0 then s.resume else s.pos }
  return some .ok

/-- A label of `n` characters. -/
def takeLabel (n : Nat) : StateM Frame (Option Result) := do
  modify fun s => { s with labels := s.labels + 1 }
  let s ← get
  if s.labels > 127 ∨ n > p.len - s.pos ∨ s.used + n + (if s.used ≠ 0 then 1 else 0) > nameMax then
    return some .limit
  if s.used ≠ 0 then putChar 46
  copyLabel p n

/-- The body of `while (true)`. -/
def readRound : StateM Frame (Option Result) := do
  let s ← get
  if s.pos ≥ p.len then return some .truncated
  let n ← nextByte p
  if n &&& 0xc0 = 0xc0 then takePointer p n
  else if n > 63 then return some .format
  else if n = 0 then finishName
  else takeLabel p n.toNat

/-- `read_name` with `*offset` at `offset` and any bytes behind `out`, for at most `n` rounds. -/
def readNameRun (n offset : Nat) (out : Mem) : Option Result × Frame :=
  rounds (readRound p) n { offset := offset, out := out, pos := offset }

end

/-! ## Where a round stands -/

variable {p : Buffer} {s : Frame} {out : Bytes}

/-- What `out` holds and what was touched so far. -/
structure Tracks (p : Buffer) (s : Frame) (out : Bytes) : Prop where
  used : s.used = out.length
  holds : s.out.read 0 s.used = out
  reads : ∀ i ∈ s.reads, i < p.len
  count : s.writes.length = s.used
  writes : ∀ i ∈ s.writes, i < s.used

/-- Everything that was touched is in its buffer. -/
structure Touched (p : Buffer) (s : Frame) : Prop where
  reads : ∀ i ∈ s.reads, i < p.len
  count : s.writes.length ≤ 254
  writes : ∀ i ∈ s.writes, i < 254

theorem Tracks.touched (h : Tracks p s out) (hlen : out.length ≤ nameMax) : Touched p s where
  reads := h.reads
  count := by
    rw [h.count, h.used]
    exact hlen.trans (Nat.le_succ 253)
  writes := by
    intro i hi
    have hlt := h.writes i hi
    rw [h.used] at hlt
    exact (hlt.trans_le hlen).trans (Nat.lt_succ_self 253)

theorem nextByte_eq : nextByte p s =
    (p.ptr s.pos, { s with pos := s.pos + 1, reads := s.pos :: s.reads }) := rfl

theorem Tracks.next (h : Tracks p s out) (hpos : s.pos < p.len) :
    Tracks p (nextByte p s).2 out where
  used := h.used
  holds := h.holds
  reads := List.forall_mem_cons.2 ⟨hpos, h.reads⟩
  count := h.count
  writes := h.writes

theorem Tracks.put (h : Tracks p s out) (c : UInt8) : Tracks p (putChar c s).2 (out ++ [c]) where
  used := by
    rw [List.length_append, ← h.used]
    rfl
  holds := by
    have hend := s.out.read_write_end 0 s.used [c]
    rw [Nat.zero_add, h.holds] at hend
    exact hend
  reads := h.reads
  count := congrArg (· + 1) h.count
  writes := by
    intro i hi
    rcases List.mem_cons.1 hi with rfl | hi
    · exact Nat.lt_succ_self _
    · exact (h.writes i hi).trans (Nat.lt_succ_self _)

/-! ## The rounds follow those of `readNameLoop` -/

/-- What a label leaves as it is. -/
structure Kept (s s' : Frame) : Prop where
  offset : s'.offset = s.offset
  resume : s'.resume = s.resume
  hops : s'.hops = s.hops
  labels : s'.labels = s.labels

theorem Kept.trans {s₁ s₂ s₃ : Frame} (h : Kept s₁ s₂) (h' : Kept s₂ s₃) : Kept s₁ s₃ where
  offset := h'.offset.trans h.offset
  resume := h'.resume.trans h.resume
  hops := h'.hops.trans h.hops
  labels := h'.labels.trans h.labels

theorem copyLabel_follows {n : Nat} (h : Tracks p s out) (hn : s.pos + n ≤ p.len) :
    ∃ s' out', Tracks p s' out' ∧ out'.length ≤ out.length + n ∧ Kept s s' ∧
      if ((p.ptr.read s.pos n).map lower).all nameChar then
        copyLabel p n s = (none, s') ∧ out' = out ++ (p.ptr.read s.pos n).map lower ∧
          s'.pos = s.pos + n
      else copyLabel p n s = (some .format, s') := by
  induction n generalizing s out with
  | zero => exact ⟨s, out, h, Nat.le_refl _, ⟨rfl, rfl, rfl, rfl⟩, rfl, by simp, rfl⟩
  | succ n ih =>
    have hnext := h.next (by omega)
    rw [Mem.read_succ, List.map_cons, List.all_cons, copyLabel, run_bind, nextByte_eq]
    dsimp only
    cases hc : nameChar (lower (p.ptr s.pos)) with
    | false => exact ⟨_, out, hnext, Nat.le_add_right _ _, ⟨rfl, rfl, rfl, rfl⟩, rfl⟩
    | true =>
      have hpos : (putChar (lower (p.ptr s.pos)) (nextByte p s).2).2.pos = s.pos + 1 := rfl
      have hput : Kept s (putChar (lower (p.ptr s.pos)) (nextByte p s).2).2 := ⟨rfl, rfl, rfl, rfl⟩
      obtain ⟨s', out', htracks, hlen, hkept, hrest⟩ := ih (hnext.put (lower (p.ptr s.pos)))
        (by rw [hpos]; omega)
      rw [List.length_append, List.length_singleton] at hlen
      rw [hpos] at hrest
      refine ⟨s', out', htracks, by omega, hput.trans hkept, ?_⟩
      rw [Bool.true_and]
      split
      · next hall =>
        rw [if_pos hall] at hrest
        obtain ⟨hrun, hout, hend⟩ := hrest
        exact ⟨hrun, by rw [hout, List.append_assoc, List.singleton_append], by rw [hend]; omega⟩
      · next hall =>
        rw [if_neg hall] at hrest
        exact hrest

/-- The name that `readNameLoop` reads from where a frame stands. -/
def Frame.rest (p : Buffer) (s : Frame) (out : Bytes) : Except Result (Bytes × Nat) :=
  readNameLoop p.bytes (144 - (s.hops + s.labels)) s.pos out s.resume s.hops s.labels

/-- Before a round: what was read fits, and the rest of the name is the rest of the whole. -/
def Amid (p : Buffer) (offset : Nat) (s : Frame) : Prop :=
  ∃ out, Tracks p s out ∧ out.length ≤ nameMax ∧ s.hops ≤ 16 ∧ s.labels ≤ 127 ∧ s.offset = offset ∧
    readName p.bytes offset = s.rest p out

/-- What `read_name` returns and leaves. -/
def Returns (p : Buffer) (offset : Nat) (r : Result) (s : Frame) : Prop :=
  Touched p s ∧
  match readName p.bytes offset with
  | .ok (name, stop) => r = .ok ∧ s.offset = stop ∧ s.out.read 0 (name.length + 1) = name ++ [0]
  | .error e => r = e ∧ s.offset = offset

/-- The pointers and labels that may still come. -/
def Frame.left (s : Frame) : Nat := 143 - (s.hops + s.labels)

theorem Tracks.fails {offset : Nat} {e : Result} (h : Tracks p s out) (hlen : out.length ≤ nameMax)
    (hoffset : s.offset = offset) (hname : readName p.bytes offset = .error e) :
    Returns p offset e s := by
  refine ⟨h.touched hlen, ?_⟩
  rw [hname]
  exact ⟨rfl, hoffset⟩

/-- A round returns as it should, or goes on with less left than `m`. -/
def Follows (p : Buffer) (offset m : Nat) : Option Result × Frame → Prop
  | (some r, s) => Returns p offset r s
  | (none, s) => Amid p offset s ∧ s.left < m

theorem takePointer_follows {offset fuel : Nat} {n : UInt8} (h : Tracks p s out)
    (hlen : out.length ≤ nameMax) (hhops : s.hops ≤ 16) (hlabels : s.labels ≤ 127)
    (hoffset : s.offset = offset) (hfuel : fuel + (s.hops + s.labels) = 143)
    (hname : readName p.bytes offset = match p.bytes[s.pos]? with
      | none => .error .truncated
      | some low =>
        if s.hops + 1 > 16 ∨ (n &&& 0x3f).toNat * 256 + low.toNat ≥ s.pos + 1 - 2 then .error .format
        else readNameLoop p.bytes fuel ((n &&& 0x3f).toNat * 256 + low.toNat) out
          (if s.resume = 0 then s.pos + 1 else s.resume) (s.hops + 1) s.labels) :
    Follows p offset s.left (takePointer p n s) := by
  rw [takePointer, run_bind, run_get, run_ite]
  by_cases hpos : s.pos ≥ p.len
  · rw [if_pos hpos]
    rw [Buffer.getElem?_bytes_none hpos] at hname
    exact h.fails hlen hoffset hname
  rw [Buffer.getElem?_bytes (not_le.1 hpos)] at hname
  have hnext := h.next (not_le.1 hpos)
  rw [if_neg hpos, run_bind, nextByte_eq]
  dsimp only at hname ⊢
  rw [run_bind, run_modify, run_bind, run_get, run_ite]
  dsimp only
  split
  · next hbad =>
    rw [if_pos hbad] at hname
    exact Tracks.fails ⟨hnext.used, hnext.holds, hnext.reads, hnext.count, hnext.writes⟩ hlen hoffset
      hname
  · next hgood =>
    rw [if_neg hgood] at hname
    refine ⟨⟨out, ⟨hnext.used, hnext.holds, hnext.reads, hnext.count, hnext.writes⟩, hlen, ?_, hlabels,
      hoffset, ?_⟩, ?_⟩
    · change s.hops + 1 ≤ 16
      omega
    · rw [hname, Frame.rest]
      change _ = readNameLoop p.bytes (144 - (s.hops + 1 + s.labels)) _ out _ (s.hops + 1) s.labels
      rw [show 144 - (s.hops + 1 + s.labels) = fuel by omega]
    · change 143 - (s.hops + 1 + s.labels) < 143 - (s.hops + s.labels)
      omega

theorem finishName_follows {offset m : Nat} (h : Tracks p s out) (hlen : out.length ≤ nameMax)
    (hname : readName p.bytes offset = .ok (out, if s.resume ≠ 0 then s.resume else s.pos)) :
    Follows p offset m (finishName s) := by
  refine ⟨⟨h.reads, ?_, ?_⟩, ?_⟩
  · exact (congrArg (· + 1) (h.count.trans h.used)).trans_le (Nat.succ_le_succ hlen)
  · intro i hi
    have hused := h.used
    have hmax : out.length ≤ 253 := hlen
    rcases List.mem_cons.1 hi with rfl | hi
    · omega
    · exact (h.writes i hi).trans (by omega)
  · rw [hname]
    have hend := s.out.read_write_end 0 s.used [0]
    rw [Nat.zero_add, h.holds] at hend
    refine ⟨rfl, rfl, ?_⟩
    rw [← h.used]
    exact hend

theorem takeLabel_follows {offset fuel n : Nat} (h : Tracks p s out)
    (hlen : out.length ≤ nameMax) (hhops : s.hops ≤ 16) (hlabels : s.labels ≤ 127)
    (hoffset : s.offset = offset) (hpos : s.pos ≤ p.len) (hfuel : fuel + (s.hops + s.labels) = 143)
    (hname : readName p.bytes offset =
      if s.labels + 1 > 127 ∨ n > p.bytes.length - s.pos ∨
          out.length + n + (if out.length ≠ 0 then 1 else 0) > nameMax then .error .limit
      else if (((p.bytes.drop s.pos).take n).map lower).all nameChar then
        readNameLoop p.bytes fuel (s.pos + n)
          ((if out.length ≠ 0 then out ++ [46] else out) ++ ((p.bytes.drop s.pos).take n).map lower)
          s.resume s.hops (s.labels + 1)
      else .error .format) :
    Follows p offset s.left (takeLabel p n s) := by
  obtain ⟨s₁, hs₁⟩ : ∃ s₁ : Frame, s₁ = { s with labels := s.labels + 1 } := ⟨_, rfl⟩
  have h₁ : Tracks p s₁ out := hs₁ ▸ ⟨h.used, h.holds, h.reads, h.count, h.writes⟩
  rw [takeLabel, run_bind, run_modify, run_bind, run_get, run_ite, ← hs₁]
  dsimp only
  have hcond : (s₁.labels > 127 ∨ n > p.len - s₁.pos ∨
      s₁.used + n + (if s₁.used ≠ 0 then 1 else 0) > nameMax) ↔
      (s.labels + 1 > 127 ∨ n > p.bytes.length - s.pos ∨
        out.length + n + (if out.length ≠ 0 then 1 else 0) > nameMax) := by
    rw [Buffer.length_bytes, ← h.used, hs₁]
  by_cases hroom : s.labels + 1 > 127 ∨ n > p.bytes.length - s.pos ∨
      out.length + n + (if out.length ≠ 0 then 1 else 0) > nameMax
  · rw [if_pos hroom] at hname
    rw [if_pos (hcond.2 hroom)]
    exact h₁.fails hlen (by rw [hs₁]; exact hoffset) hname
  rw [if_neg hroom] at hname
  rw [if_neg (mt hcond.1 hroom)]
  obtain ⟨next, hnext⟩ : ∃ next, next = (if out.length ≠ 0 then out ++ [46] else out) := ⟨_, rfl⟩
  obtain ⟨label, hlabel⟩ : ∃ label, label = (p.ptr.read s.pos n).map lower := ⟨_, rfl⟩
  have hbytes : ((p.bytes.drop s.pos).take n).map lower = label := by
    rw [hlabel, Buffer.bytes, Mem.take_drop_read, Nat.zero_add]
    rw [Buffer.length_bytes] at hroom
    omega
  rw [hbytes, ← hnext] at hname
  -- The dot, if there is one, comes first.
  have hdot : ∃ s₂, Tracks p s₂ next ∧ Kept s₁ s₂ ∧ s₂.pos = s.pos ∧
      ((if s₁.used ≠ 0 then do putChar 46; copyLabel p n else copyLabel p n) s₁) = copyLabel p n s₂ := by
    by_cases hused : s₁.used ≠ 0
    · refine ⟨(putChar 46 s₁).2, ?_, ⟨rfl, rfl, rfl, rfl⟩, by rw [hs₁]; rfl, ?_⟩
      · rw [hnext, if_pos (by rwa [← h₁.used])]
        exact h₁.put 46
      · rw [if_pos hused]
        rfl
    · refine ⟨s₁, ?_, ⟨rfl, rfl, rfl, rfl⟩, by rw [hs₁], ?_⟩
      · rw [hnext, if_neg (by rwa [← h₁.used])]
        exact h₁
      · rw [if_neg hused]
  obtain ⟨s₂, h₂, hkept, hpos₂, hrun⟩ := hdot
  have hfit : next.length + n ≤ nameMax := by
    rw [hnext]
    split
    · next hne =>
      rw [if_pos hne] at hroom
      rw [List.length_append, List.length_singleton]
      omega
    · omega
  have hinside : s₂.pos + n ≤ p.len := by
    rw [Buffer.length_bytes] at hroom
    omega
  obtain ⟨s₃, out₃, h₃, hlen₃, hkept₃, hcopy⟩ := copyLabel_follows h₂ hinside
  rw [hpos₂, ← hlabel] at hcopy
  have hkept' := hkept.trans hkept₃
  have hoffset₃ : s₃.offset = offset := by rw [hkept'.offset, hs₁, hoffset]
  have hgoal : Follows p offset s.left (copyLabel p n s₂) := by
    by_cases hall : label.all nameChar = true
    · rw [if_pos hall] at hname hcopy
      obtain ⟨hrun₃, rfl, hpos₃⟩ := hcopy
      rw [hrun₃]
      have hlabels₃ : s₃.labels = s.labels + 1 := by rw [hkept'.labels, hs₁]
      have hhops₃ : s₃.hops = s.hops := by rw [hkept'.hops, hs₁]
      refine ⟨⟨next ++ label, h₃, by omega, by omega, by omega, hoffset₃, ?_⟩, ?_⟩
      · rw [hname, Frame.rest, hpos₃, hlabels₃, hhops₃, hkept'.resume, hs₁,
          show 144 - (s.hops + (s.labels + 1)) = fuel by omega]
      · rw [Frame.left, Frame.left, hlabels₃, hhops₃]
        omega
    · rw [if_neg hall] at hname hcopy
      rw [hcopy]
      exact h₃.fails (hlen₃.trans hfit) hoffset₃ hname
  rw [← hrun] at hgoal
  exact hgoal

theorem readRound_follows (p : Buffer) (offset : Nat) :
    Round (Amid p offset) Frame.left (Returns p offset) (readRound p) := by
  have hfollows : ∀ s, Amid p offset s → Follows p offset s.left (readRound p s) := by
    rintro s ⟨out, h, hlen, hhops, hlabels, hoffset, hname⟩
    obtain ⟨fuel, hfuel⟩ : ∃ fuel, 144 - (s.hops + s.labels) = fuel + 1 :=
      ⟨143 - (s.hops + s.labels), by omega⟩
    rw [Frame.rest, hfuel, readNameLoop] at hname
    rw [readRound, run_bind, run_get, run_ite]
    by_cases hpos : s.pos ≥ p.len
    · rw [if_pos hpos]
      rw [Buffer.getElem?_bytes_none hpos] at hname
      exact h.fails hlen hoffset hname
    rw [Buffer.getElem?_bytes (not_le.1 hpos)] at hname
    have hnext := h.next (not_le.1 hpos)
    have hleft : fuel + (s.hops + s.labels) = 143 := by omega
    rw [if_neg hpos, run_bind, nextByte_eq, run_ite, run_ite, run_ite]
    dsimp only at hname ⊢
    by_cases hhigh : p.ptr s.pos &&& 0xc0 = 0xc0
    · rw [if_pos hhigh] at hname ⊢
      exact takePointer_follows hnext hlen hhops hlabels hoffset hleft hname
    rw [if_neg hhigh] at hname ⊢
    by_cases hlong : p.ptr s.pos > 63
    · rw [if_pos hlong] at hname ⊢
      exact hnext.fails hlen hoffset hname
    rw [if_neg hlong] at hname ⊢
    by_cases hzero : p.ptr s.pos = 0
    · rw [if_pos hzero] at hname ⊢
      exact finishName_follows hnext hlen hname
    rw [if_neg hzero] at hname ⊢
    exact takeLabel_follows hnext hlen hhops hlabels hoffset (not_le.1 hpos) hleft hname
  intro s hs
  have h := hfollows s hs
  revert h
  rcases readRound p s with ⟨_ | r, s'⟩
  · exact fun h => .inr ⟨s', rfl, h⟩
  · exact fun h => .inl ⟨r, s', rfl, h⟩

/-! ## The offset behind a name -/

theorem NameAt.stop_le {packet : Bytes} {pos hops stop : Nat} {labels : List Bytes}
    (h : NameAt packet pos hops labels stop) : stop ≤ packet.length := by
  induction h with
  | root h => exact (List.getElem?_eq_some_iff.1 h).1
  | label _ _ ih => exact ih
  | pointer _ hl _ _ _ _ _ => exact (List.getElem?_eq_some_iff.1 hl).1

theorem NameAt.labels {packet : Bytes} {pos hops stop : Nat} {labels : List Bytes}
    (h : NameAt packet pos hops labels stop) :
    ∀ l ∈ labels, 1 ≤ l.length ∧ l.length ≤ 63 ∧ ∀ c ∈ l, nameChar c = true := by
  induction h with
  | root _ => nofun
  | label h _ ih => exact List.forall_mem_cons.2 ⟨⟨h.bounds.1, h.bounds.2, h.chars⟩, ih⟩
  | pointer _ _ _ _ _ _ ih => exact ih

/-- The length byte of a label is neither zero nor the start of a pointer. -/
theorem IsLabel.byte {packet : Bytes} {pos : Nat} {label : Bytes} (h : IsLabel packet pos label) :
    ∃ n : UInt8, packet[pos]? = some n ∧ n.toNat = label.length := by
  have hlt : label.length < 256 := Nat.lt_of_le_of_lt h.bounds.2 (by simp)
  exact ⟨_, h.length, UInt8.toNat_ofNat_of_lt' hlt⟩

/-- Where a name ends is decided by the bytes up to there, whatever its pointers lead to. -/
theorem NameAt.stop_congr {packet packet' : Bytes} {pos hops stop hops' stop' : Nat}
    {labels labels' : List Bytes} (h : NameAt packet pos hops labels stop)
    (h' : NameAt packet' pos hops' labels' stop')
    (hsame : ∀ i, pos ≤ i → i < stop → ∀ a b, packet[i]? = some a → packet'[i]? = some b → a = b) :
    stop' = stop := by
  induction h generalizing hops' stop' labels' with
  | @root pos hzero =>
    cases h' with
    | root _ => rfl
    | label hl _ =>
      obtain ⟨n, hn, hlen⟩ := hl.byte
      have hbounds := hl.bounds
      rw [← hsame pos (le_refl _) (by omega) _ _ hzero hn] at hlen
      have hnat : (0 : UInt8).toNat = 0 := rfl
      omega
    | pointer hhigh _ hh _ _ _ =>
      rw [← hsame pos (le_refl _) (by omega) _ _ hzero hhigh] at hh
      have hnat : (0 : UInt8).toNat = 0 := rfl
      omega
  | @label pos hops stop label labels hl rest ih =>
    obtain ⟨n, hn, hlen⟩ := hl.byte
    have hbounds := hl.bounds
    have hstop := rest.lt_stop
    cases h' with
    | root hzero =>
      rw [hsame pos (le_refl _) (by omega) _ _ hn hzero] at hlen
      have hnat : (0 : UInt8).toNat = 0 := rfl
      omega
    | label hl' rest' =>
      obtain ⟨n', hn', hlen'⟩ := hl'.byte
      have hpos := hsame pos (le_refl _) (by omega) _ _ hn hn'
      rw [← hpos, hlen] at hlen'
      rw [← hlen'] at rest'
      exact ih rest' fun i hi => hsame i (by omega)
    | pointer hhigh _ hh _ _ _ =>
      rw [← hsame pos (le_refl _) (by omega) _ _ hn hhigh] at hh
      omega
  | @pointer pos hops stop target high low labels hhigh hlow hh _ _ _ _ =>
    cases h' with
    | root hzero =>
      rw [hsame pos (le_refl _) (by omega) _ _ hhigh hzero] at hh
      have hnat : (0 : UInt8).toNat = 0 := rfl
      omega
    | label hl' _ =>
      obtain ⟨n', hn', hlen'⟩ := hl'.byte
      have hbounds := hl'.bounds
      rw [← hsame pos (le_refl _) (by omega) _ _ hhigh hn'] at hlen'
      omega
    | pointer _ _ _ _ _ _ => rfl

/-! ## The whole function -/

/-- `read_name` returns after 144 rounds at most, with what `readName` says. -/
theorem readNameRun_returns (p : Buffer) (offset : Nat) (out : Mem) :
    ∃ r s, readNameRun p 144 offset out = (some r, s) ∧ Returns p offset r s := by
  refine (readRound_follows p offset).ends ?_ (Nat.lt_succ_self 143)
  exact ⟨[], ⟨rfl, rfl, nofun, rfl, nofun⟩, Nat.zero_le _, Nat.zero_le _, Nat.zero_le _, rfl, rfl⟩

/-- When `read_name` succeeds, there is a name and `*offset` is behind it. -/
theorem Returns.name {offset : Nat} (h : Returns p offset .ok s) :
    ∃ hops labels, NameAt p.bytes offset hops labels s.offset ∧ (dotted labels).length ≤ nameMax ∧
      s.out.read 0 ((dotted labels).length + 1) = dotted labels ++ [0] := by
  have hreturns := h.2
  cases hname : readName p.bytes offset with
  | ok result =>
    obtain ⟨name, stop⟩ := result
    rw [hname] at hreturns
    obtain ⟨-, hstop, hout⟩ := hreturns
    obtain ⟨hops, labels, hat, -, hdotted, hmax⟩ := readName_iff.1 hname
    rw [← hstop] at hat
    rw [← hdotted] at hout hmax
    exact ⟨hops, labels, hat, hmax, hout⟩
  | error e =>
    rw [hname] at hreturns
    exact absurd (hreturns.1 ▸ hname) (readName_error _ _)

/-- **`read_name` is safe** on every packet and offset: it returns, it reads inside the packet only,
and it stores 254 characters at most. What it accepts is a name in lower case, ended by a NUL, and
the new offset is behind the old one, where the bytes between them say; a failure keeps the offset. -/
theorem read_name_safe (p : Buffer) (offset : Nat) (out : Mem) :
    ∃ r s, readNameRun p 144 offset out = (some r, s) ∧
      (∀ i ∈ s.reads, i < p.len) ∧ s.writes.length ≤ 254 ∧ (∀ i ∈ s.writes, i < 254) ∧
      (r ≠ .ok → s.offset = offset) ∧
      (r = .ok →
        (∃ labels : List Bytes,
          (∀ l ∈ labels, 1 ≤ l.length ∧ l.length ≤ 63 ∧ ∀ c ∈ l, nameChar c = true) ∧
          (dotted labels).length ≤ 253 ∧
          s.out.read 0 ((dotted labels).length + 1) = dotted labels ++ [0]) ∧
        offset < s.offset ∧ s.offset ≤ p.len ∧
        ∀ p' out' s', (∀ i, offset ≤ i → i < s.offset → p'.ptr i = p.ptr i) →
          readNameRun p' 144 offset out' = (some .ok, s') → s'.offset = s.offset) := by
  obtain ⟨r, s, hrun, hreturns⟩ := readNameRun_returns p offset out
  refine ⟨r, s, hrun, hreturns.1.reads, hreturns.1.count, hreturns.1.writes, ?_, ?_⟩
  · intro hne
    have hwhat := hreturns.2
    cases hname : readName p.bytes offset with
    | ok result =>
      rw [hname] at hwhat
      exact absurd hwhat.1 hne
    | error e =>
      rw [hname] at hwhat
      exact hwhat.2
  · rintro rfl
    obtain ⟨hops, labels, hat, hmax, hout⟩ := hreturns.name
    refine ⟨⟨labels, hat.labels, hmax, hout⟩, hat.lt_stop, ?_, ?_⟩
    · exact hat.stop_le.trans_eq p.length_bytes
    · intro p' out' s' hsame hrun'
      obtain ⟨r', s'', hrun'', hreturns'⟩ := readNameRun_returns p' offset out'
      rw [hrun'] at hrun''
      cases hrun''
      obtain ⟨hops', labels', hat', -⟩ := hreturns'.name
      refine hat.stop_congr hat' fun i hlow hhigh a b ha hb => ?_
      obtain ⟨ha', rfl⟩ := List.getElem?_eq_some_iff.1 ha
      obtain ⟨hb', rfl⟩ := List.getElem?_eq_some_iff.1 hb
      simp only [Buffer.bytes, Mem.getElem_read, Nat.zero_add]
      exact (hsame i hlow hhigh).symm

end EspCfTunnel.Dns
