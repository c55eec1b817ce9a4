import EspCfTunnel.Framing.Basic

/-!
# The Cap'n Proto reader

The reading half of `cf_capnp.c`. A reader borrows a whole frame, follows one pointer at a time and
never allocates; its error is sticky, every pointer followed and every field read is charged to a
budget, and nesting is bounded by `depthMax`. The operations are state transformers of the reader:
a `cf_cp_reader *` argument is the state of a `StateM Reader` program.

Machine arithmetic is on `Nat` with the reduction written out where the source relies on the width:
the slot and element computations in `cpField` and `cpAt`, the 8-bit depth, the 32-bit budget. The
field `Reader.reads` is not in the source: it records every range of bytes the reader has touched,
relative to the segment it was attributed to, so that bounds safety is a statement about it.
-/

namespace EspCfTunnel.Capnp

open EspCfTunnel Framing

/-- `CF_CAPNP_DEPTH_MAX`. -/
abbrev depthMax : Nat := 32

/-- `CF_CAPNP_TRAVERSAL_WORDS`. -/
abbrev traversalWords : Nat := 4096

/-- `cf_cp_kind`. -/
inductive Kind
  | null | struct | list | cap
  deriving DecidableEq, Repr

/-- `cf_cp_value`. -/
structure Value where
  kind : Kind := .null
  segment : Nat := 0
  word : Nat := 0
  count : Nat := 0
  cap : Nat := 0
  dataWords : Nat := 0
  pointers : Nat := 0
  elementSize : Nat := 0
  depth : Nat := 0
  deriving DecidableEq, Repr

/-- `len` bytes of segment `segment`, from its byte `first` on. -/
structure Access where
  segment : Nat
  first : Nat
  len : Nat
  deriving DecidableEq, Repr

/-- `cf_cp_reader`, with the frame it borrows and the ranges it has read. -/
structure Reader where
  frame : Bytes
  segments : List View
  segmentCount : Nat
  budget : Nat
  error : Result
  reads : List Access
  deriving DecidableEq, Repr

/-- `r->segments[seg]`. -/
def Reader.segment (r : Reader) (seg : Nat) : View := r.segments.getD seg ⟨0, 0⟩

/-- `r->error = rc`. -/
def setError (rc : Result) : StateM Reader Unit := modify fun r => { r with error := rc }

/-- Read `n` bytes of segment `seg`, from its byte `first` on. -/
def load (seg first n : Nat) : StateM Reader Bytes := fun r =>
  ((Mem.ofBytes r.frame).read ((r.segment seg).off + first) n,
    { r with reads := ⟨seg, first, n⟩ :: r.reads })

/-- `range`: the words lie inside the segment. -/
def range (seg word words : Nat) : StateM Reader Bool := do
  let r ← get
  if r.error ≠ .ok then return false
  if seg ≥ r.segmentCount ∨ word > (r.segment seg).len / 8 ∨
      words > (r.segment seg).len / 8 - word then
    setError .format
    return false
  return true

/-- `charge`: pay for `words` words of work. Empty structures still cost work. -/
def charge (words : Nat) : StateM Reader Bool := do
  let words := if words = 0 then 1 else words
  let r ← get
  if words > r.budget then
    setError .limit
    return false
  set { r with budget := (r.budget + 2 ^ 32 - words % 2 ^ 32) % 2 ^ 32 }
  return true

/-- `word_at`. -/
def wordAt (seg word : Nat) : StateM Reader Nat := do
  if !(← range seg word 1) then return 0
  return Bytes.le (← load seg (word * 8) 8)

/-- The rest of `cf_cp_read_init`'s loop: `k` segments from number `i` on. -/
def readSegments (frame : Bytes) : Nat → Nat → Except Result (List View)
  | 0, _ => .ok []
  | k + 1, i => do
    let s ← capnpSegment frame i
    let rest ← readSegments frame k (i + 1)
    return s :: rest

/-- `cf_cp_read_init`. -/
def cpReadInit (frame : Bytes) : Except Result Reader := do
  let first ← capnpSegment frame 0
  let count := u32 (Mem.ofBytes frame) 0 + 1
  let rest ← readSegments frame (count - 1) 1
  return ⟨frame, first :: rest, count, traversalWords, .ok, []⟩

/-- What a pointer word resolves to: the word that describes the object, the segment and slot it
counts from, and whether `slot` is already the object's first word (`direct_target`). -/
structure Target where
  p : Nat
  seg : Nat
  slot : Nat
  direct : Bool
  deriving DecidableEq, Repr

/-- The far-pointer part of `follow`. Far pointers resolve exactly one landing pad, not an arbitrary
chain. -/
def landingPad (seg slot p : Nat) : StateM Reader (Option Target) := do
  if p % 4 ≠ 2 then return some ⟨p, seg, slot, false⟩
  let two := p / 4 % 2 = 1
  let slot := p % 2 ^ 32 / 8
  let seg := p / 2 ^ 32
  let pad := if two then 2 else 1
  if !(← range seg slot pad) then return none
  if !(← charge pad) then return none
  let p ← wordAt seg slot
  if two then
    let tag ← wordAt seg (slot + 1)
    if p % 8 ≠ 2 ∨ tag % 2 ^ 32 / 4 ≠ 0 ∨ tag % 4 > 1 then
      setError .format
      return none
    return some ⟨tag, p / 2 ^ 32, p % 2 ^ 32 / 8, true⟩
  if p % 4 > 1 ∨ p = 0 then
    setError .format
    return none
  return some ⟨p, seg, slot, false⟩

/-- The 30-bit word offset of a pointer, sign-extended. -/
def pointerOffset (p : Nat) : Int :=
  let offset : Nat := p % 2 ^ 32 / 4
  if offset ≥ 0x20000000 then (offset : Int) - 0x40000000 else (offset : Int)

/-- The first word of the object a pointer describes. -/
def Target.word (t : Target) : Int :=
  if t.direct then t.slot else t.slot + 1 + pointerOffset t.p

/-- Bits of a list element by its size code; `bits[]` in `follow`. -/
def elementBits (size : Nat) : Nat := [0, 1, 8, 16, 32, 64, 64].getD size 0

/-- The end of `follow`: `v` is returned if its `words` words are in bounds and paid for. -/
def extent (v : Value) (words : Nat) : StateM Reader Value := do
  if !(← range v.segment v.word words) then return {}
  if !(← charge words) then return {}
  return v

/-- The inline-composite branch of `follow`: `v.count` words follow a tag word that gives the number
and the shape of the elements. -/
def composite (v : Value) : StateM Reader Value := do
  let words := v.count + 1
  if !(← range v.segment v.word words) then return {}
  let tag ← wordAt v.segment v.word
  if tag % 4 ≠ 0 then
    setError .format
    return {}
  let v := { v with word := v.word + 1, count := tag % 2 ^ 32 / 4,
                    dataWords := tag / 2 ^ 32 % 2 ^ 16, pointers := tag / 2 ^ 48 }
  if v.count * (v.dataWords + v.pointers) > words - 1 then
    setError .format
    return {}
  if !(← charge words) then return {}
  return v

/-- The part of `follow` after the far pointer is resolved. -/
def object (t : Target) (depth : Nat) : StateM Reader Value := do
  if t.p % 4 = 3 then
    if t.p % 2 ^ 32 ≠ 3 then
      setError .unsupported
      return {}
    return { kind := .cap, cap := t.p / 2 ^ 32, depth }
  if t.word < 0 ∨ t.word > 2 ^ 32 - 1 then
    setError .format
    return {}
  let v : Value := { segment := t.seg, word := t.word.toNat, depth }
  if t.p % 4 = 0 then
    let v := { v with kind := .struct, dataWords := t.p / 2 ^ 32 % 2 ^ 16, pointers := t.p / 2 ^ 48 }
    return ← extent v (v.dataWords + v.pointers)
  if t.p % 4 = 1 then
    let v := { v with kind := .list, elementSize := t.p / 2 ^ 32 % 8, count := t.p / 2 ^ 35 }
    if v.elementSize = 7 then return ← composite v
    return ← extent v ((v.count * elementBits v.elementSize + 63) / 64)
  setError .format
  return {}

/-- `follow`. -/
def follow (seg slot depth : Nat) : StateM Reader Value := do
  if (← get).error ≠ .ok then return {}
  if depth > depthMax then
    setError .limit
    return {}
  let p ← wordAt seg slot
  if (← get).error ≠ .ok then return {}
  if !(← charge 1) then return {}
  if p = 0 then return {}
  match ← landingPad seg slot p with
  | none => return {}
  | some t => object t depth

/-- `cf_cp_root`. -/
def cpRoot : StateM Reader Value := follow 0 0 1

/-- `cf_cp_field`. -/
def cpField (s : Value) (index : Nat) : StateM Reader Value := do
  if (← get).error ≠ .ok ∨ s.kind = .null then return {}
  if s.kind ≠ .struct then
    setError .format
    return {}
  if index ≥ s.pointers then return {}
  follow s.segment ((s.word + s.dataWords + index) % 2 ^ 32) ((s.depth + 1) % 2 ^ 8)

/-- `cf_cp_at`. -/
def cpAt (list : Value) (index : Nat) : StateM Reader Value := do
  if (← get).error ≠ .ok then return {}
  if list.kind ≠ .list ∨ index ≥ list.count then
    setError .format
    return {}
  if list.elementSize = 6 then
    return ← follow list.segment ((list.word + index) % 2 ^ 32) ((list.depth + 1) % 2 ^ 8)
  if list.elementSize ≠ 7 then
    setError .unsupported
    return {}
  if list.depth ≥ depthMax then
    setError .limit
    return {}
  if !(← charge 1) then
    setError .limit
    return {}
  return { list with kind := .struct, depth := (list.depth + 1) % 2 ^ 8,
                     word := (list.word + index * (list.dataWords + list.pointers)) % 2 ^ 32 }

/-- `cf_cp_uint`. -/
def cpUint (s : Value) (byte width : Nat) : StateM Reader Nat := do
  if (← get).error ≠ .ok ∨ s.kind = .null then return 0
  if s.kind ≠ .struct ∨ (width ≠ 1 ∧ width ≠ 2 ∧ width ≠ 4 ∧ width ≠ 8) then
    setError .format
    return 0
  if byte + width > s.dataWords * 8 then return 0
  if !(← range s.segment s.word s.dataWords) then return 0
  if !(← charge 1) then return 0
  return Bytes.le (← load s.segment (s.word * 8 + byte) width)

/-- `cf_cp_data`; `none` is the null view. -/
def cpData (v : Value) (text : Bool) : StateM Reader (Option View) := do
  if (← get).error ≠ .ok ∨ v.kind = .null then return none
  if v.kind ≠ .list ∨ v.elementSize ≠ 2 then
    setError .format
    return none
  if !(← range v.segment v.word ((v.count + 7) / 8)) then return none
  let b : View := ⟨((← get).segment v.segment).off + v.word * 8, v.count⟩
  if !text then return some b
  if b.len = 0 then
    setError .format
    return none
  if (← load v.segment (v.word * 8 + (b.len - 1)) 1) ≠ [0] then
    setError .format
    return none
  return some { b with len := b.len - 1 }

end EspCfTunnel.Capnp
