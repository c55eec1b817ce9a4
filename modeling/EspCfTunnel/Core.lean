import EspCfTunnel.Lib.Bytes

/-!
# Results and views

`cf_core.h`: the result codes every module returns, and the non-owning byte view `cf_bytes`. A
view into a frame is kept as the offset and length it covers (`View`), so that a claim about where
it lies is a claim about numbers; a byte string with no frame behind it is a `List UInt8`. Where it
matters which bytes are read, a `cf_bytes` is a `Buffer`.
-/

namespace EspCfTunnel

/-- The byte strings the modules exchange. -/
abbrev Bytes := List UInt8

/-- The bytes of a text. -/
def text (s : String) : Bytes := s.toList.map fun c => UInt8.ofNat c.toNat

/-- A `cf_bytes` as the code reads it: a pointer into memory, and a length. -/
structure Buffer where
  ptr : Mem
  len : Nat

/-- The bytes that a buffer covers. -/
def Buffer.bytes (b : Buffer) : Bytes := b.ptr.read 0 b.len

@[simp] theorem Buffer.length_bytes (b : Buffer) : b.bytes.length = b.len := Mem.length_read _ _ _

theorem Buffer.getElem?_bytes {b : Buffer} {i : Nat} (h : i < b.len) : b.bytes[i]? = some (b.ptr i) := by
  rw [Buffer.bytes, List.getElem?_eq_getElem (by simpa using h), Mem.getElem_read, Nat.zero_add]

theorem Buffer.getElem?_bytes_none {b : Buffer} {i : Nat} (h : b.len ≤ i) : b.bytes[i]? = none := by
  rw [List.getElem?_eq_none_iff, Buffer.length_bytes]
  exact h

/-- `cf_result`. -/
inductive Result
  | ok | argument | format | limit | unsupported | state | memory | truncated
  deriving DecidableEq, Repr

/-- A `cf_bytes` whose pointer lies in some frame: `len` bytes from offset `off` on. -/
structure View where
  off : Nat
  len : Nat
  deriving DecidableEq, Repr

/-- The bytes a view covers. -/
def View.bytes (v : View) (frame : Bytes) : Bytes := (frame.drop v.off).take v.len

end EspCfTunnel
