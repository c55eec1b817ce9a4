import EspCfTunnel.Framing.Basic
import EspCfTunnel.Lib.StateLogic

/-!
# The Cap'n Proto builder

The writing half of `cf_capnp.c`: a builder appends words to one segment in the caller's buffer,
sets pointers and numbers in words it has handed out, and keeps the first error. The buffer is a
memory without bounds, so that a write outside `[0, capacity)` would be visible.
-/

namespace EspCfTunnel.Capnp

open EspCfTunnel Framing StateLogic

/-- `cf_cp_builder`. -/
structure Builder where
  buffer : Mem
  capacity : Nat
  words : Nat
  error : Result

/-- `put`: `n` bytes of `value` at `base`, least significant first. -/
def put (base n value : Nat) : StateM Builder Unit :=
  modify fun b => { b with buffer := b.buffer.write base (Bytes.leBytes n value) }

/-- `b->error = rc`. -/
def failBuild (rc : Result) : StateM Builder Unit := modify fun b => { b with error := rc }

/-- `alloc_words`: `n` zero words at the end of the segment; the result is the first of them. -/
def allocWords (n : Nat) : StateM Builder Nat := do
  let b ← get
  let at_ := b.words
  if b.error ≠ .ok then return 0
  if n > (b.capacity - 8) / 8 - b.words then
    failBuild .limit
    return 0
  set { b with buffer := b.buffer.write (8 + at_ * 8) (List.replicate (n * 8) 0), words := at_ + n }
  return at_

/-- `set_word`. -/
def setWord (slot value : Nat) : StateM Builder Unit := do
  let b ← get
  if b.error ≠ .ok then return
  if slot ≥ b.words then
    failBuild .argument
    return
  put (8 + slot * 8) 8 value

/-- `cf_cp_build_init`. -/
def cpBuildInit (out : Mem) (capacity : Nat) : Result × Builder :=
  if capacity < 16 ∨ capacity > messageMax then (.argument, ⟨out, 0, 0, .argument⟩)
  else
    let b : Builder := ⟨out.write 0 (List.replicate 8 0), capacity, 0, .ok⟩
    (.ok, (allocWords 1 b).2)

/-- The pointer word of `cf_cp_struct`. Zero-sized structs must be non-null even when allocated next
to slot. -/
def structWord (at_ slot dataWords pointers : Nat) : Nat :=
  let delta : Int := if dataWords = 0 ∧ pointers = 0 then -1 else (at_ : Int) - slot - 1
  (delta % 2 ^ 30).toNat <<< 2 ||| dataWords <<< 32 ||| pointers <<< 48

/-- The pointer word of `cf_cp_pointer_list` and `cf_cp_blob`, for elements of the given size. -/
def listWord (at_ slot size count : Nat) : Nat :=
  (((at_ : Int) - slot - 1) % 2 ^ 32).toNat <<< 2 ||| 1 ||| size <<< 32 ||| count <<< 35

/-- `cf_cp_struct`. -/
def cpStruct (slot dataWords pointers : Nat) : StateM Builder Nat := do
  let at_ ← allocWords (dataWords + pointers)
  setWord slot (structWord at_ slot dataWords pointers)
  return at_

/-- `cf_cp_set_uint`. -/
def cpSetUint (object byte width value : Nat) : StateM Builder Unit := do
  let offset := object * 8 + byte
  let b ← get
  if b.error ≠ .ok then return
  if (width ≠ 1 ∧ width ≠ 2 ∧ width ≠ 4 ∧ width ≠ 8) ∨ offset > b.words * 8 ∨
      width > b.words * 8 - offset then
    failBuild .argument
    return
  put (8 + offset) width value

/-- `cf_cp_pointer_list`. -/
def cpPointerList (slot count : Nat) : StateM Builder Nat := do
  let at_ ← allocWords count
  setWord slot (listWord at_ slot 6 count)
  return at_

/-- `cf_cp_blob`. -/
def cpBlob (slot : Nat) (value : Bytes) (text : Bool) : StateM Builder Unit := do
  if (← get).error ≠ .ok then return
  if value.length > messageMax - 1 then
    failBuild .argument
    return
  let n := value.length + if text then 1 else 0
  let at_ ← allocWords ((n + 7) / 8)
  setWord slot (listWord at_ slot 2 n)
  if (← get).error = .ok ∧ value.length ≠ 0 then
    modify fun b => { b with buffer := b.buffer.write (8 + at_ * 8) value }

/-- `cf_cp_build_end`: the result and `*written`. -/
def cpBuildEnd : StateM Builder (Result × Nat) := do
  let b ← get
  if b.error ≠ .ok then return (b.error, 0)
  put 4 4 b.words
  return (.ok, 8 + b.words * 8)

/-! ## Running the primitives -/

variable {b : Builder}

theorem allocWords_of_error (h : b.error ≠ .ok) (n : Nat) : allocWords n b = (0, b) := by
  unfold allocWords
  rw [run_bind, run_get, if_pos h]
  rfl

theorem allocWords_of_gt (h : b.error = .ok) {n : Nat} (hn : n > (b.capacity - 8) / 8 - b.words) :
    allocWords n b = (0, { b with error := .limit }) := by
  unfold allocWords
  rw [run_bind, run_get, if_neg (by simp [h]), if_pos hn]
  rfl

theorem allocWords_of_le (h : b.error = .ok) {n : Nat} (hn : n ≤ (b.capacity - 8) / 8 - b.words) :
    allocWords n b = (b.words, { b with
      buffer := b.buffer.write (8 + b.words * 8) (List.replicate (n * 8) 0)
      words := b.words + n }) := by
  unfold allocWords
  rw [run_bind, run_get, if_neg (by simp [h]), if_neg (by dsimp only; omega)]
  rfl

theorem setWord_of_error (h : b.error ≠ .ok) (slot value : Nat) : setWord slot value b = ((), b) := by
  unfold setWord
  rw [run_bind, run_get, if_pos h]
  rfl

theorem setWord_of_lt (h : b.error = .ok) {slot : Nat} (hslot : slot < b.words) (value : Nat) :
    setWord slot value b =
      ((), { b with buffer := b.buffer.write (8 + slot * 8) (Bytes.leBytes 8 value) }) := by
  unfold setWord
  rw [run_bind, run_get, if_neg (by simp [h]), if_neg (by dsimp only; omega)]
  rfl

/-- `n` zero words are appended, and then a slot is set. -/
def Builder.extend (b : Builder) (n slot value : Nat) : Builder :=
  { b with
    buffer := (b.buffer.write (8 + b.words * 8) (List.replicate (n * 8) 0)).write (8 + slot * 8)
      (Bytes.leBytes 8 value)
    words := b.words + n }

theorem cpStruct_run (h : b.error = .ok) {slot dw pc : Nat} (hslot : slot < b.words)
    (hn : dw + pc ≤ (b.capacity - 8) / 8 - b.words) :
    cpStruct slot dw pc b =
      (b.words, b.extend (dw + pc) slot (structWord b.words slot dw pc)) := by
  rw [cpStruct, run_bind, allocWords_of_le h hn, run_bind,
    setWord_of_lt (by exact h) (by dsimp only; omega)]
  rfl

theorem cpPointerList_run (h : b.error = .ok) {slot n : Nat} (hslot : slot < b.words)
    (hn : n ≤ (b.capacity - 8) / 8 - b.words) :
    cpPointerList slot n b = (b.words, b.extend n slot (listWord b.words slot 6 n)) := by
  rw [cpPointerList, run_bind, allocWords_of_le h hn, run_bind,
    setWord_of_lt (by exact h) (by dsimp only; omega)]
  rfl

theorem cpBlob_run (h : b.error = .ok) {slot n : Nat} {value : Bytes} {text : Bool}
    (hslot : slot < b.words) (hlen : value.length ≤ messageMax - 1)
    (hn : value.length + (if text then 1 else 0) = n)
    (hroom : (n + 7) / 8 ≤ (b.capacity - 8) / 8 - b.words) :
    cpBlob slot value text b =
      ((), { b.extend ((n + 7) / 8) slot (listWord b.words slot 2 n) with
        buffer := (b.extend ((n + 7) / 8) slot (listWord b.words slot 2 n)).buffer.write
          (8 + b.words * 8) value }) := by
  have hset : setWord slot (listWord b.words slot 2 n) { b with
      buffer := b.buffer.write (8 + b.words * 8) (List.replicate ((n + 7) / 8 * 8) 0)
      words := b.words + (n + 7) / 8 } =
      ((), b.extend ((n + 7) / 8) slot (listWord b.words slot 2 n)) :=
    setWord_of_lt (by exact h) (by dsimp only; omega) _
  unfold cpBlob
  rw [run_bind, run_get, if_neg (by simp [h]), if_neg (by omega)]
  simp only [hn]
  rw [run_bind, allocWords_of_le h hroom, run_bind, hset, run_bind, run_get]
  by_cases h0 : value.length = 0
  · obtain rfl := List.eq_nil_of_length_eq_zero h0
    rw [if_neg (by simp), Mem.write_nil]
    rfl
  · rw [if_pos ⟨h, h0⟩]
    rfl

/-- A blob that finds no room leaves an error and nothing else. -/
theorem cpBlob_of_gt (h : b.error = .ok) {slot n : Nat} {value : Bytes} {text : Bool}
    (hlen : value.length ≤ messageMax - 1) (hn : value.length + (if text then 1 else 0) = n)
    (hroom : (n + 7) / 8 > (b.capacity - 8) / 8 - b.words) :
    cpBlob slot value text b = ((), { b with error := .limit }) := by
  unfold cpBlob
  rw [run_bind, run_get, if_neg (by simp [h]), if_neg (by omega)]
  simp only [hn]
  rw [run_bind, allocWords_of_gt h hroom, run_bind, setWord_of_error Result.noConfusion, run_bind,
    run_get, if_neg (by simp)]
  rfl

theorem cpBlob_of_long (h : b.error = .ok) {slot : Nat} {value : Bytes} {text : Bool}
    (hlen : value.length > messageMax - 1) :
    cpBlob slot value text b = ((), { b with error := .argument }) := by
  unfold cpBlob
  rw [run_bind, run_get, if_neg (by simp [h]), if_pos hlen]
  rfl

theorem Builder.buffer_extend (b : Builder) (n slot value : Nat) :
    (b.extend n slot value).buffer =
      (b.buffer.write (8 + b.words * 8) (List.replicate (n * 8) 0)).write (8 + slot * 8)
        (Bytes.leBytes 8 value) := rfl

section
variable {n slot value : Nat} (hslot : slot < b.words)
include hslot

omit hslot in
/-- Words that were there before, other than the slot, are unchanged. -/
theorem Builder.extend_of_lt {w i : Nat} (hw : w < b.words) (hne : w ≠ slot) (hi : i < 8) :
    (b.extend n slot value).buffer (8 + w * 8 + i) = b.buffer (8 + w * 8 + i) := by
  rw [buffer_extend, Mem.write_of_not_mem _ _ (by rw [Bytes.length_leBytes]; omega),
    Mem.write_of_lt _ _ (by omega)]

/-- The header and everything behind the new words is unchanged. -/
theorem Builder.extend_outside {i : Nat} (hi : i < 8 ∨ 8 + (b.words + n) * 8 ≤ i) :
    (b.extend n slot value).buffer i = b.buffer i := by
  rw [buffer_extend, Mem.write_of_not_mem _ _ (by rw [Bytes.length_leBytes]; omega),
    Mem.write_of_not_mem _ _ (by rw [List.length_replicate]; omega)]

omit hslot in
theorem Builder.extend_slot :
    (b.extend n slot value).buffer.read (8 + slot * 8) 8 = Bytes.leBytes 8 value := by
  have := Mem.read_write_same (b.buffer.write (8 + b.words * 8) (List.replicate (n * 8) 0))
    (8 + slot * 8) (Bytes.leBytes 8 value)
  rwa [Bytes.length_leBytes] at this

theorem Builder.extend_new {k : Nat} (hk : k ≤ n * 8) :
    (b.extend n slot value).buffer.read (8 + b.words * 8) k = List.replicate k 0 := by
  have hall := Mem.read_write_same b.buffer (8 + b.words * 8) (List.replicate (n * 8) 0)
  rw [List.length_replicate] at hall
  have hpart : _ = Mem.read _ (8 + b.words * 8 + 0) k :=
    Mem.take_drop_read (b.buffer.write (8 + b.words * 8) (List.replicate (n * 8) 0))
      (show 0 + k ≤ n * 8 by omega)
  rw [hall, List.drop_zero, List.take_replicate, Nat.min_eq_left hk, Nat.add_zero] at hpart
  rw [buffer_extend, Mem.read_write_disjoint _ _ (by rw [Bytes.length_leBytes]; omega), hpart]

theorem Builder.extend_new_word {w : Nat} (hlo : b.words ≤ w) (hhi : w < b.words + n) :
    (b.extend n slot value).buffer.read (8 + w * 8) 8 = List.replicate 8 0 := by
  have hall : (b.extend n slot value).buffer.read (8 + b.words * 8) (n * 8) = _ :=
    b.extend_new hslot le_rfl
  have hpart : _ = Mem.read _ (8 + b.words * 8 + (w - b.words) * 8) 8 :=
    Mem.take_drop_read (b.extend n slot value).buffer
      (show (w - b.words) * 8 + 8 ≤ n * 8 by omega)
  rw [hall, List.drop_replicate, List.take_replicate] at hpart
  rw [show 8 + w * 8 = 8 + b.words * 8 + (w - b.words) * 8 by omega, ← hpart,
    Nat.min_eq_left (by omega)]

end

/-- A pointer word to a struct behind its slot is the sum of its parts. -/
theorem structWord_eq {slot at_ dw pc : Nat} (hlt : slot < at_) (hoff : at_ - slot - 1 < 2 ^ 30)
    (hdw : dw < 2 ^ 16) (hne : ¬ (dw = 0 ∧ pc = 0)) :
    structWord at_ slot dw pc = (at_ - slot - 1) * 4 + dw * 2 ^ 32 + pc * 2 ^ 48 := by
  have hdelta : (((at_ : Int) - slot - 1) % 2 ^ 30).toNat = at_ - slot - 1 := by omega
  rw [structWord]
  simp only [if_neg hne, hdelta]
  rw [Nat.or_comm (_ <<< 2), ← Nat.shiftLeft_add_eq_or_of_lt, Nat.or_comm,
    ← Nat.shiftLeft_add_eq_or_of_lt, Nat.shiftLeft_eq, Nat.shiftLeft_eq, Nat.shiftLeft_eq]
  · omega
  · rw [Nat.shiftLeft_eq, Nat.shiftLeft_eq]
    omega
  · rw [Nat.shiftLeft_eq]
    omega

/-- The pointer word to a zero-sized struct points back at its own slot. -/
theorem structWord_zero (slot at_ : Nat) : structWord at_ slot 0 0 = (2 ^ 30 - 1) * 4 := by
  simp [structWord]

theorem listWord_eq {slot at_ size count : Nat} (hlt : slot < at_)
    (hoff : at_ - slot - 1 < 2 ^ 30) (hsize : size < 8) :
    listWord at_ slot size count =
      (at_ - slot - 1) * 4 + 1 + size * 2 ^ 32 + count * 2 ^ 35 := by
  have hdelta : (((at_ : Int) - slot - 1) % 2 ^ 32).toNat = at_ - slot - 1 := by omega
  rw [listWord]
  simp only [hdelta]
  rw [← Nat.shiftLeft_add_eq_or_of_lt (by omega), Nat.or_comm (_ + 1),
    ← Nat.shiftLeft_add_eq_or_of_lt, Nat.or_comm, ← Nat.shiftLeft_add_eq_or_of_lt,
    Nat.shiftLeft_eq, Nat.shiftLeft_eq, Nat.shiftLeft_eq]
  · omega
  · rw [Nat.shiftLeft_eq, Nat.shiftLeft_eq]
    omega
  · rw [Nat.shiftLeft_eq]
    omega

end EspCfTunnel.Capnp
