import EspCfTunnel.Core
import EspCfTunnel.Lib.Ledger
import EspCfTunnel.Lib.StateLogic

/-!
# The heap of nghttp2

The four functions that `cf_h2.c` gives nghttp2 as its allocator. A block of `malloc` starts with an
`allocation` that holds its charged size; what nghttp2 gets is the memory behind it. `size_t`
arithmetic wraps as on the target, and the heap remembers if it ever did (`wrapped`), as it does if
an access left a live block (`faulted`). What `malloc` answers is given with each call.
-/

namespace EspCfTunnel.Allocator

open EspCfTunnel StateLogic

/-- The target: `SIZE_MAX` and `sizeof(allocation)`. -/
structure Target where
  sizeMax : Nat
  header : Nat
  le_sizeMax : 65536 ≤ sizeMax
  header_le : header ≤ 8192

/-- A block of `malloc`: what it reserved, the `bytes` of the `allocation` and the memory behind. -/
structure Block where
  size : Nat
  bytes : Nat
  data : Bytes
  deriving DecidableEq, Repr

/-- The blocks that are not freed, and the counters `ngheap_*` of `cf_h2_stats`. -/
structure Heap where
  live : AList fun _ : Nat => Block
  current : Nat
  peak : Nat
  limit : Nat
  wrapped : Bool
  faulted : Bool
  deriving DecidableEq

/-- A place where `malloc` finds room, and what lies there. -/
structure Room where
  address : Nat
  word : Nat
  byte : Nat → UInt8

abbrev M := StateM Heap

section
variable (t : Target)

/-! ## `size_t` -/

def wrapIf (c : Bool) : M Unit := modify fun s => { s with wrapped := s.wrapped || c }

def add (a b : Nat) : M Nat := do
  wrapIf (decide (t.sizeMax < a + b))
  return (a + b) % (t.sizeMax + 1)

def sub (a b : Nat) : M Nat := do
  wrapIf (decide (a < b))
  return (a + (t.sizeMax + 1) - b) % (t.sizeMax + 1)

def mul (a b : Nat) : M Nat := do
  wrapIf (decide (t.sizeMax < a * b))
  return a * b % (t.sizeMax + 1)

/-! ## Memory -/

def faultIf (c : Bool) : M Unit := modify fun s => { s with faulted := s.faulted || c }

/-- The block of a pointer; behind a dead pointer there is none. -/
def block (p : Nat) : M Block := do
  let s ← get
  match s.live.lookup p with
  | some b => return b
  | none =>
    faultIf true
    return ⟨0, 0, []⟩

def put (p : Nat) (b : Block) : M Unit := modify fun s => { s with live := s.live.insert p b }

def malloc (total : Nat) : Option Room → M (Option Nat)
  | none => return none
  | some r => do
    put r.address ⟨total, r.word, (List.range (total - t.header)).map r.byte⟩
    return some r.address

def free (p : Nat) : M Unit := do
  let _ ← block p
  modify fun s => { s with live := s.live.erase p }

/-- `cf_secure_zero` of the first `n` bytes of a block, the `allocation` included. -/
def secureZero (p n : Nat) : M Unit := do
  let b ← block p
  faultIf (decide (b.size < n))
  put p { b with bytes := 0, data := List.replicate (n - t.header) 0 ++ b.data.drop (n - t.header) }

def memset (p n : Nat) : M Unit := do
  let b ← block p
  faultIf (decide (b.data.length < n))
  put p { b with data := List.replicate n 0 ++ b.data.drop n }

def memcpy (q p n : Nat) : M Unit := do
  let dst ← block q
  let src ← block p
  faultIf (decide (dst.data.length < n) || decide (src.data.length < n))
  put q { dst with data := src.data.take n ++ dst.data.drop n }

/-! ## The allocator -/

/-- `allocate` -/
def allocate (size : Nat) (room : Option Room) : M (Option Nat) := do
  let s ← get
  let most ← sub t s.limit t.header
  if size > most then return none
  let total ← add t size t.header
  let left ← sub t s.limit s.current
  if total > left then return none
  let a ← malloc t total room
  match a with
  | none => return none
  | some p =>
    let b ← block p
    put p { b with bytes := total }
    let current ← add t s.current total
    modify fun s => { s with current := current, peak := if s.peak < current then current else s.peak }
    return some p

/-- `deallocate` -/
def deallocate : Option Nat → M Unit
  | none => return ()
  | some p => do
    let b ← block p
    let s ← get
    let current ← sub t s.current b.bytes
    modify fun s => { s with current := current }
    secureZero t p b.bytes
    free p

/-- `resize` -/
def resize (p : Option Nat) (size : Nat) (room : Option Room) : M (Option Nat) := do
  match p with
  | none => allocate t size room
  | some p =>
    if size = 0 then
      deallocate t (some p)
      return none
    let b ← block p
    let old ← sub t b.bytes t.header
    let next ← allocate t size room
    match next with
    | none => return none
    | some q =>
      memcpy q p (if old < size then old else size)
      deallocate t (some p)
      return some q

/-- `zero_allocate` -/
def zeroAllocate (n size : Nat) (room : Option Room) : M (Option Nat) := do
  if n ≠ 0 ∧ size > t.sizeMax / n then return none
  let total ← mul t n size
  let p ← allocate t total room
  match p with
  | none => return none
  | some p =>
    let total ← mul t n size
    memset p total
    return some p

/-! ## Calls -/

/-- What nghttp2 does with its heap: the four calls, and a write into a block it holds. -/
inductive Call
  | allocate (size : Nat) (room : Option Room)
  | deallocate (p : Option Nat)
  | zeroAllocate (n size : Nat) (room : Option Room)
  | resize (p : Option Nat) (size : Nat) (room : Option Room)
  | write (p i : Nat) (v : UInt8)

def call : Call → M (Option Nat)
  | .allocate size room => allocate t size room
  | .deallocate p => do
    deallocate t p
    return none
  | .zeroAllocate n size room => zeroAllocate t n size room
  | .resize p size room => resize t p size room
  | .write p i v => do
    let b ← block p
    put p { b with data := b.data.set i v }
    return none

def run : List Call → Heap → Heap
  | [], s => s
  | c :: cs, s => run cs (call t c s).2

/-- `malloc` never gives a block that is in use. -/
def Fresh (s : Heap) (room : Option Room) : Prop := ∀ r ∈ room, s.live.lookup r.address = none

/-- A pointer that may be freed or resized: null, or live. -/
def Held (s : Heap) (p : Option Nat) : Prop := ∀ a ∈ p, (s.live.lookup a).isSome

instance (s : Heap) (room : Option Room) : Decidable (Fresh s room) :=
  inferInstanceAs (Decidable (∀ r ∈ room, s.live.lookup r.address = none))

instance (s : Heap) (p : Option Nat) : Decidable (Held s p) :=
  inferInstanceAs (Decidable (∀ a ∈ p, (s.live.lookup a).isSome))

/-- What a `size_t` parameter can hold, only live pointers, and `malloc` as it is documented. -/
def Call.Legal (s : Heap) : Call → Prop
  | .allocate size room => size ≤ t.sizeMax ∧ Fresh s room
  | .deallocate p => Held s p
  | .zeroAllocate n size room => n ≤ t.sizeMax ∧ size ≤ t.sizeMax ∧ Fresh s room
  | .resize p size room => Held s p ∧ size ≤ t.sizeMax ∧ Fresh s room
  | .write p _ _ => Held s (some p)

instance Call.decidableLegal (s : Heap) : (c : Call) → Decidable (c.Legal t s)
  | .allocate size room => inferInstanceAs (Decidable (size ≤ t.sizeMax ∧ Fresh s room))
  | .deallocate p => inferInstanceAs (Decidable (Held s p))
  | .zeroAllocate n size room =>
    inferInstanceAs (Decidable (n ≤ t.sizeMax ∧ size ≤ t.sizeMax ∧ Fresh s room))
  | .resize p size room => inferInstanceAs (Decidable (Held s p ∧ size ≤ t.sizeMax ∧ Fresh s room))
  | .write p _ _ => inferInstanceAs (Decidable (Held s (some p)))

def Legal : List Call → Heap → Prop
  | [], _ => True
  | c :: cs, s => c.Legal t s ∧ Legal cs (call t c s).2

instance decidableLegal : (cs : List Call) → (s : Heap) → Decidable (Legal t cs s)
  | [], _ => .isTrue trivial
  | c :: cs, s =>
    have := decidableLegal cs (call t c s).2
    inferInstanceAs (Decidable (c.Legal t s ∧ Legal t cs (call t c s).2))

end

/-- The heap that `cf_h2_create` starts with. -/
def Heap.fresh (limit : Nat) : Heap := ⟨∅, 0, 0, limit, false, false⟩

end EspCfTunnel.Allocator
