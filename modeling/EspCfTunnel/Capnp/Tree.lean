import EspCfTunnel.Capnp.Reader

/-!
# The trees a frame encodes

The abstract side of the reader: what a pointer word denotes by the rules of the encoding, whatever
the segment layout. `Points` resolves a pointer (near, through a one-word landing pad, or through a
far word and a tag) to the object it describes; `Denotes` gives the tree below it together with the
extents of all its objects. Nothing here mentions a budget, a depth or an error.

`Source` is the interface through which a message is read. The reader implements it on the bytes of
a frame (`readerSource`), and `treeSource` implements it on a tree, by taking components.
-/

namespace EspCfTunnel.Capnp

open EspCfTunnel Framing

/-- The segments of a frame: how many there are, their sizes in words and their bytes. -/
structure Arena where
  count : Nat
  words : Nat → Nat
  mem : Nat → Mem

namespace Arena

variable (A : Arena)

/-- The words lie in segment `seg`. -/
def Inside (seg word n : Nat) : Prop := seg < A.count ∧ word + n ≤ A.words seg

instance (seg word n : Nat) : Decidable (A.Inside seg word n) :=
  inferInstanceAs (Decidable (_ ∧ _))

/-- The word at `word` of segment `seg`. -/
def word (seg word : Nat) : Nat := Bytes.le ((A.mem seg).read (word * 8) 8)

/-- The bytes of `n` words. -/
def bytes (seg word n : Nat) : Bytes := (A.mem seg).read (word * 8) (n * 8)

/-- Element `i` of a list of data elements; a list of bits is packed from the lowest bit on. -/
def element (seg word size i : Nat) : Nat :=
  if size = 1 then ((A.mem seg) (word * 8 + i / 8)).toNat / 2 ^ (i % 8) % 2
  else Bytes.le ((A.mem seg).read (word * 8 + i * (elementBits size / 8)) (elementBits size / 8))

end Arena

/-- The segments a reader reads from. -/
def Reader.arena (r : Reader) : Arena :=
  ⟨r.segmentCount, fun seg => (r.segment seg).len / 8,
    fun seg i => Mem.ofBytes r.frame ((r.segment seg).off + i)⟩

/-- An abstract value of the encoding. The elements of `composite` are structs. -/
inductive Tree
  | null
  | struct (data : Bytes) (pointers : List Tree)
  | list (size : Nat) (elements : List Nat)
  | pointers (elements : List Tree)
  | composite (elements : List Tree)
  | cap (id : Nat)

/-- The words of one object. -/
structure Extent where
  seg : Nat
  first : Nat
  words : Nat

/-- The words of some objects. -/
def totalWords (xs : List Extent) : Nat := (xs.map (·.words)).sum

/-! ## What a pointer denotes -/

section
variable (A : Arena) (K : Nat)

/-- The pointer at `slot` is resolved to the word `p` that describes an object at word `w` of
segment `oseg`, over at most `K` words of landing pad. -/
inductive Points (seg slot : Nat) : Nat → Nat → Nat → Prop
  | near {p w : Nat} : A.Inside seg slot 1 → A.word seg slot = p → p ≠ 0 → p % 4 ≤ 1 →
      (w : Int) = slot + 1 + pointerOffset p → Points seg slot p seg w
  | far {q p oseg pad w : Nat} : 1 ≤ K → A.Inside seg slot 1 → A.word seg slot = q → q % 4 = 2 →
      q / 4 % 2 = 0 → q / 2 ^ 32 = oseg → q % 2 ^ 32 / 8 = pad → A.Inside oseg pad 1 →
      A.word oseg pad = p → p ≠ 0 → p % 4 ≤ 1 →
      (w : Int) = pad + 1 + pointerOffset p → Points seg slot p oseg w
  | doubleFar {q f p padSeg pad : Nat} : 2 ≤ K → A.Inside seg slot 1 → A.word seg slot = q →
      q % 4 = 2 → q / 4 % 2 = 1 → q / 2 ^ 32 = padSeg → q % 2 ^ 32 / 8 = pad →
      A.Inside padSeg pad 2 → A.word padSeg pad = f → f % 8 = 2 → A.word padSeg (pad + 1) = p →
      p % 2 ^ 32 / 4 = 0 → p % 4 ≤ 1 → Points seg slot p (f / 2 ^ 32) (f % 2 ^ 32 / 8)

/-- The pointer at `slot` denotes a tree whose objects have the extents `xs`, its own first. -/
inductive Denotes : Nat → Nat → Tree → List Extent → Prop
  | null {seg slot : Nat} : A.Inside seg slot 1 → A.word seg slot = 0 → Denotes seg slot .null []
  | cap {seg slot id : Nat} : A.Inside seg slot 1 → A.word seg slot = 3 + id * 2 ^ 32 →
      Denotes seg slot (.cap id) []
  | struct {seg slot p oseg w dw : Nat} {ps : List Tree} {xs : Nat → List Extent} :
      Points A K seg slot p oseg w → p % 4 = 0 → p / 2 ^ 32 % 2 ^ 16 = dw →
      p / 2 ^ 48 = ps.length → A.Inside oseg w (dw + ps.length) →
      (∀ i t, ps[i]? = some t → Denotes oseg (w + dw + i) t (xs i)) →
      Denotes seg slot (.struct (A.bytes oseg w dw) ps)
        (⟨oseg, w, dw + ps.length⟩ :: (List.range ps.length).flatMap xs)
  | list {seg slot p oseg w size n : Nat} :
      Points A K seg slot p oseg w → p % 4 = 1 → p / 2 ^ 32 % 8 = size → size ≤ 5 →
      p / 2 ^ 35 = n → A.Inside oseg w ((n * elementBits size + 63) / 64) →
      Denotes seg slot (.list size ((List.range n).map (A.element oseg w size)))
        [⟨oseg, w, (n * elementBits size + 63) / 64⟩]
  | pointers {seg slot p oseg w : Nat} {es : List Tree} {xs : Nat → List Extent} :
      Points A K seg slot p oseg w → p % 4 = 1 → p / 2 ^ 32 % 8 = 6 →
      p / 2 ^ 35 = es.length → A.Inside oseg w es.length →
      (∀ i t, es[i]? = some t → Denotes oseg (w + i) t (xs i)) →
      Denotes seg slot (.pointers es) (⟨oseg, w, es.length⟩ :: (List.range es.length).flatMap xs)
  | composite {seg slot p oseg w n tag count dw pc : Nat} {kids : Nat → List Tree}
      {xs : Nat → Nat → List Extent} :
      Points A K seg slot p oseg w → p % 4 = 1 → p / 2 ^ 32 % 8 = 7 → p / 2 ^ 35 = n →
      A.Inside oseg w (n + 1) → A.word oseg w = tag → tag % 4 = 0 → tag % 2 ^ 32 / 4 = count →
      tag / 2 ^ 32 % 2 ^ 16 = dw → tag / 2 ^ 48 = pc → count * (dw + pc) ≤ n →
      (∀ i, i < count → (kids i).length = pc) →
      (∀ i j t, i < count → (kids i)[j]? = some t →
        Denotes oseg (w + 1 + i * (dw + pc) + dw + j) t (xs i j)) →
      Denotes seg slot
        (.composite ((List.range count).map fun i =>
          .struct (A.bytes oseg (w + 1 + i * (dw + pc)) dw) (kids i)))
        (⟨oseg, w, n + 1⟩ ::
          (List.range count).flatMap fun i => (List.range pc).flatMap (xs i))

end

/-! ## Reading a message -/

/-- How `cf_rpc.c` reads a message: the operations of `cf_capnp.h` on values of type `V`, with a
state that holds the sticky error. -/
structure Source (σ V : Type) where
  kind : V → Kind
  cap : V → Nat
  elementSize : V → Nat
  count : V → Nat
  error : StateM σ Result
  setError : Result → StateM σ Unit
  root : StateM σ V
  field : V → Nat → StateM σ V
  elem : V → Nat → StateM σ V
  uint : V → Nat → Nat → StateM σ Nat
  data : V → Bool → StateM σ Bytes

/-- The bytes of a slice of the frame; none for the null view. -/
def readData (v : Value) (text : Bool) : StateM Reader Bytes := do
  match ← cpData v text with
  | none => return []
  | some b => return (Mem.ofBytes (← get).frame).read b.off b.len

/-- The reader reads from the bytes of a frame. -/
def readerSource : Source Reader Value where
  kind := Value.kind
  cap := Value.cap
  elementSize := Value.elementSize
  count := Value.count
  error := do return (← get).error
  setError := setError
  root := cpRoot
  field := cpField
  elem := cpAt
  uint := cpUint
  data := readData

namespace Tree

/-- The kind of value a tree shows as. -/
def kind : Tree → Kind
  | .null => .null
  | .struct .. => .struct
  | .list .. | .pointers _ | .composite _ => .list
  | .cap _ => .cap

def capId : Tree → Nat
  | .cap id => id
  | _ => 0

/-- The element size code of a list. -/
def elementSize : Tree → Nat
  | .list size _ => size
  | .pointers _ => 6
  | .composite _ => 7
  | _ => 0

/-- The number of elements of a list. -/
def count : Tree → Nat
  | .list _ es => es.length
  | .pointers es | .composite es => es.length
  | _ => 0

/-- The data bytes of a struct. -/
def dataBytes : Tree → Bytes
  | .struct data _ => data
  | _ => []

/-- The pointers of a struct, or the elements of a list of pointers or structs. -/
def kids : Tree → List Tree
  | .struct _ ps => ps
  | .pointers es | .composite es => es
  | _ => []

/-- The bytes of a list of bytes. -/
def octets : Tree → Bytes
  | .list _ es => es.map fun e => UInt8.ofNat e
  | _ => []

/-- The tree itself, unless there was an error. -/
def give (t : Tree) : StateM Result Tree := do
  if (← get) ≠ .ok then return .null
  return t

/-- The pointer field `index`; absent fields are null. -/
def field (t : Tree) (index : Nat) : StateM Result Tree := do
  if (← get) ≠ .ok ∨ t.kind = .null then return .null
  if t.kind ≠ .struct then
    set Result.format
    return .null
  return t.kids.getD index .null

/-- Element `index` of a list of pointers or structs. -/
def elem (t : Tree) (index : Nat) : StateM Result Tree := do
  if (← get) ≠ .ok then return .null
  if t.kind ≠ .list ∨ index ≥ t.count then
    set Result.format
    return .null
  if t.elementSize ≠ 6 ∧ t.elementSize ≠ 7 then
    set Result.unsupported
    return .null
  return t.kids.getD index .null

/-- The number in `width` bytes of a struct's data; absent data is zero. -/
def uint (t : Tree) (byte width : Nat) : StateM Result Nat := do
  if (← get) ≠ .ok ∨ t.kind = .null then return 0
  if t.kind ≠ .struct ∨ (width ≠ 1 ∧ width ≠ 2 ∧ width ≠ 4 ∧ width ≠ 8) then
    set Result.format
    return 0
  return if byte + width > t.dataBytes.length then 0
    else Bytes.le ((t.dataBytes.drop byte).take width)

/-- The bytes of a list of bytes; text loses the zero byte it must end with. -/
def data (t : Tree) (text : Bool) : StateM Result Bytes := do
  if (← get) ≠ .ok ∨ t.kind = .null then return []
  if t.kind ≠ .list ∨ t.elementSize ≠ 2 then
    set Result.format
    return []
  if !text then return t.octets
  if t.octets.getLast? ≠ some 0 then
    set Result.format
    return []
  return t.octets.dropLast

end Tree

/-- A message read from the tree it denotes: every operation takes a component. -/
def treeSource (t : Tree) : Source Result Tree where
  kind := Tree.kind
  cap := Tree.capId
  elementSize := Tree.elementSize
  count := Tree.count
  error := get
  setError := set
  root := t.give
  field := Tree.field
  elem := Tree.elem
  uint := Tree.uint
  data := Tree.data

end EspCfTunnel.Capnp
