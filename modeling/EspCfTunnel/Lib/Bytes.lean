import Mathlib.Tactic.Common
import Mathlib.Tactic.Ring
import Mathlib.Data.FinEnum
import Mathlib.Data.List.GetD

/-!
# Little-endian numbers and flat memories

A byte string is a `List UInt8`. `le` reads one as a little-endian number and `leBytes` writes a
number back (`le_leBytes`). A memory `Mem` is a total function from addresses to
bytes, so a write past the end of a buffer is visible as a change outside it: `Mem.write` and
`Mem.read` come with their same-range, disjoint-range and sub-range lemmas.
-/

namespace Bytes

/-- The number whose little-endian base-256 digits are `bs`. -/
def le : List UInt8 → Nat
  | [] => 0
  | b :: bs => b.toNat + 256 * le bs

/-- The `n` low base-256 digits of `v`, least significant first. -/
def leBytes : Nat → Nat → List UInt8
  | 0, _ => []
  | n + 1, v => UInt8.ofNat v :: leBytes n (v / 256)

@[simp] theorem le_nil : le [] = 0 := rfl
@[simp] theorem le_cons (b : UInt8) (bs : List UInt8) : le (b :: bs) = b.toNat + 256 * le bs := rfl

@[simp] theorem length_leBytes (n v : Nat) : (leBytes n v).length = n := by
  induction n generalizing v with
  | zero => rfl
  | succ n ih => simp [leBytes, ih]

/-- A little-endian number of `k` digits is below `256 ^ k`. -/
theorem le_lt (bs : List UInt8) : le bs < 256 ^ bs.length := by
  induction bs with
  | nil => simp
  | cons b bs ih =>
    have hb := b.toNat_lt
    rw [le_cons, List.length_cons, Nat.pow_succ]
    omega

/-- Writing a number and reading it back keeps its low digits. -/
theorem le_leBytes (n v : Nat) : le (leBytes n v) = v % 256 ^ n := by
  induction n generalizing v with
  | zero => simp [leBytes, Nat.mod_one]
  | succ n ih =>
    rw [leBytes, le_cons, ih, UInt8.toNat_ofNat', Nat.pow_succ (n := 256), Nat.mul_comm (256 ^ n),
      Nat.mod_mul]

/-- What is checked for the 256 bytes holds of every byte. -/
theorem forall_byte {P : UInt8 → Prop} (h : ∀ i : Fin 256, P (UInt8.ofNat i)) (b : UInt8) : P b := by
  have hb := h ⟨b.toNat, b.toNat_lt⟩
  rwa [UInt8.ofNat_toNat] at hb

/-- All-zero digits are the number zero. -/
@[simp] theorem le_replicate_zero (n : Nat) : le (List.replicate n 0) = 0 := by
  induction n with
  | zero => rfl
  | succ n ih => simp [List.replicate_succ, ih]

end Bytes

/-- A memory: every address holds a byte. -/
abbrev Mem := Nat → UInt8

namespace Mem

/-- Copy `bs` to the addresses from `base` on. -/
def write (m : Mem) (base : Nat) (bs : List UInt8) : Mem :=
  fun i => if base ≤ i then bs.getD (i - base) (m i) else m i

/-- The `n` bytes from `base` on. -/
def read (m : Mem) (base n : Nat) : List UInt8 :=
  (List.range n).map fun i => m (base + i)

/-- The memory that a pointer to the byte string `bs` shows; beyond its end the bytes read as
zero, so a proof that looks there has to say so. -/
def ofBytes (bs : List UInt8) : Mem := fun i => bs.getD i 0

@[simp] theorem length_read (m : Mem) (base n : Nat) : (m.read base n).length = n := by
  simp [read]

@[simp] theorem getElem_read (m : Mem) (base n i : Nat) (h : i < (m.read base n).length) :
    (m.read base n)[i] = m (base + i) := by
  simp [read]

@[simp] theorem read_zero (m : Mem) (base : Nat) : m.read base 0 = [] := rfl

/-- Two memories read the same where they agree. -/
theorem read_congr {m m' : Mem} {base n : Nat}
    (h : ∀ i, base ≤ i → i < base + n → m i = m' i) : m.read base n = m'.read base n := by
  apply List.map_congr_left
  intro i hi
  exact h _ (by omega) (by have := List.mem_range.1 hi; omega)

/-- A read splits at any point. -/
theorem read_add (m : Mem) (base n k : Nat) :
    m.read base (n + k) = m.read base n ++ m.read (base + n) k := by
  simp [read, List.range_add, Nat.add_assoc]

theorem read_succ (m : Mem) (base n : Nat) :
    m.read base (n + 1) = m base :: m.read (base + 1) n := by
  rw [Nat.add_comm n 1, read_add]
  rfl

/-- Reading through an offset. -/
theorem read_shift (m : Mem) (off base n : Nat) :
    Mem.read (fun i => m (off + i)) base n = m.read (off + base) n := by
  simp [read, Nat.add_assoc]

/-- A sub-range of a read is a read. -/
theorem take_drop_read (m : Mem) {base n k j : Nat} (h : k + j ≤ n) :
    ((m.read base n).drop k).take j = m.read (base + k) j := by
  obtain ⟨r, rfl⟩ := Nat.exists_eq_add_of_le h
  rw [show k + j + r = k + (j + r) by omega, read_add, read_add,
    List.drop_append_of_le_length (by simp), List.drop_of_length_le (by simp), List.nil_append,
    List.take_append_of_le_length (by simp), List.take_of_length_le (by simp)]

theorem write_of_lt (m : Mem) {base i : Nat} (bs : List UInt8) (h : i < base) :
    m.write base bs i = m i := by
  rw [write, if_neg (by omega)]

theorem write_of_ge (m : Mem) {base i : Nat} (bs : List UInt8) (h : base + bs.length ≤ i) :
    m.write base bs i = m i := by
  rw [write, if_pos (by omega), List.getD_eq_default _ _ (by omega)]

/-- Outside the written range a memory is unchanged. -/
theorem write_of_not_mem (m : Mem) {base i : Nat} (bs : List UInt8)
    (h : i < base ∨ base + bs.length ≤ i) : m.write base bs i = m i :=
  h.elim (m.write_of_lt bs) (m.write_of_ge bs)

theorem write_inside (m : Mem) {base i : Nat} (bs : List UInt8) (h : i < bs.length) :
    m.write base bs (base + i) = bs[i] := by
  rw [write, if_pos (by omega), Nat.add_sub_cancel_left, List.getD_eq_getElem _ _ h]

@[simp] theorem write_nil (m : Mem) (base : Nat) : m.write base [] = m := by
  funext i
  exact m.write_of_not_mem [] (by simp only [List.length_nil]; omega)

/-- Writing a concatenation is writing its parts one after the other. -/
theorem write_append (m : Mem) (base : Nat) (xs ys : List UInt8) :
    m.write base (xs ++ ys) = (m.write base xs).write (base + xs.length) ys := by
  funext i
  rcases Nat.lt_or_ge i base with h | h
  · rw [write_of_lt _ _ h, write_of_lt _ _ (by omega), write_of_lt _ _ h]
  obtain ⟨j, rfl⟩ := Nat.exists_eq_add_of_le h
  rcases Nat.lt_or_ge j xs.length with hx | hx
  · rw [write_inside _ _ (by rw [List.length_append]; omega), write_of_lt _ _ (by omega),
      write_inside _ _ hx, List.getElem_append_left hx]
  obtain ⟨k, rfl⟩ := Nat.exists_eq_add_of_le hx
  rcases Nat.lt_or_ge k ys.length with hy | hy
  · rw [write_inside _ _ (by rw [List.length_append]; omega), ← Nat.add_assoc,
      write_inside _ _ hy, List.getElem_append_right (by omega)]
    simp
  · rw [write_of_ge _ _ (by rw [List.length_append]; omega), write_of_ge _ _ (by omega),
      write_of_ge _ _ (by omega)]

/-- What was written is read back. -/
@[simp] theorem read_write_same (m : Mem) (base : Nat) (bs : List UInt8) :
    (m.write base bs).read base bs.length = bs := by
  apply List.ext_getElem (by simp)
  intro i _ h
  rw [getElem_read, write_inside _ _ h]

/-- A write does not touch a disjoint range. -/
theorem read_write_disjoint (m : Mem) {base base' n : Nat} (bs : List UInt8)
    (h : base' + n ≤ base ∨ base + bs.length ≤ base') :
    (m.write base bs).read base' n = m.read base' n :=
  read_congr fun _ h₁ h₂ => write_of_not_mem _ _ (by omega)

/-- A write appends to what was read up to it. -/
theorem read_write_end (m : Mem) (base n : Nat) (bs : List UInt8) :
    (m.write (base + n) bs).read base (n + bs.length) = m.read base n ++ bs := by
  rw [read_add, read_write_same, read_write_disjoint _ _ (by omega)]

/-- The whole byte string behind a pointer. -/
@[simp] theorem read_ofBytes_zero (bs : List UInt8) : (ofBytes bs).read 0 bs.length = bs := by
  apply List.ext_getElem (by simp)
  intro i _ h
  rw [getElem_read, ofBytes, Nat.zero_add, List.getD_eq_getElem _ _ h]

/-- A write inside a range is a write to the bytes of the range. -/
theorem read_write_within (m : Mem) (base k n : Nat) (bs : List UInt8) :
    (m.write (base + k) bs).read base n = ((ofBytes (m.read base n)).write k bs).read 0 n := by
  refine List.ext_getElem (by simp) fun i hi _ => ?_
  rw [length_read] at hi
  have hbyte : ofBytes (m.read base n) i = m (base + i) := by
    rw [ofBytes, List.getD_eq_getElem _ _ (by simpa using hi), getElem_read]
  rw [getElem_read, getElem_read, Nat.zero_add]
  by_cases hk : k ≤ i
  · rw [write, write, if_pos (by omega), if_pos hk, hbyte, show base + i - (base + k) = i - k by omega]
  · rw [write, write, if_neg (by omega), if_neg hk, hbyte]

/-- A range inside the byte string behind a pointer. -/
theorem read_ofBytes {bs : List UInt8} {off n : Nat} (h : off + n ≤ bs.length) :
    (ofBytes bs).read off n = (bs.drop off).take n := by
  conv_rhs => rw [← read_ofBytes_zero bs]
  rw [take_drop_read _ h, Nat.zero_add]

end Mem
