import EspCfTunnel.Rpc.Advance
import EspCfTunnel.Rpc.Rejection

/-!
# The verdict on a registration

What the Return of a registration says is a matter of the tree it denotes: `Connects` and `Rejects`
describe the two trees that count, with absent pointers null and absent numbers zero, and mention no
reader, no error and no order of reading. `cf_rpc_receive` comes to the same verdict through a sticky
error. In one direction, what is read is what the tree says unless there is an error (`Unless`); in the
other, no step of reading such a tree sets one.
-/

namespace EspCfTunnel.Capnp.Tree

/-! ## Components of a tree -/

/-- The pointer of a struct; absent ones are null. -/
def pointer (t : Tree) (index : Nat) : Tree :=
  match t with
  | .struct _ ps => ps.getD index .null
  | _ => .null

/-- The number in `width` bytes of a struct's data; absent data is zero. -/
def number (t : Tree) (byte width : Nat) : Nat :=
  if byte + width > t.dataBytes.length then 0 else Bytes.le ((t.dataBytes.drop byte).take width)

def IsStruct (t : Tree) : Prop := ∃ data ps, t = .struct data ps

/-- The tree is a list of these bytes. -/
def IsData (t : Tree) (bs : Bytes) : Prop := ∃ es, t = .list 2 es ∧ es.map (fun e => UInt8.ofNat e) = bs

/-- The tree is a list of these bytes and a zero byte. -/
def IsText (t : Tree) (bs : Bytes) : Prop := t.IsData (bs ++ [0])

end EspCfTunnel.Capnp.Tree

namespace EspCfTunnel.Rpc

open EspCfTunnel Framing Capnp StateLogic

/-! ## What a Return says -/

/-- The payload of a Return. -/
def payloadOf (t : Tree) : Tree := (t.pointer 0).pointer 0

/-- The registration response in a Return. -/
def responseOf (t : Tree) : Tree := ((payloadOf t).pointer 0).pointer 0

/-- The body of the variant of a registration response. -/
def detailsOf (t : Tree) : Tree := (responseOf t).pointer 0

/-- The tree is a Return to question 1 with results and without capabilities. -/
structure Returns (t : Tree) : Prop where
  message : t.IsStruct
  kind : t.number 0 2 = 3
  ret : (t.pointer 0).IsStruct
  answer : (t.pointer 0).number 0 4 = 1
  results : (t.pointer 0).number 6 2 = 0
  payload : (payloadOf t).IsStruct
  table : (payloadOf t).pointer 1 = .null ∨ (payloadOf t).pointer 1 = .composite []

/-- The bit `shouldRetry` of an error. -/
def retryOf (t : Tree) : Bool := (detailsOf t).number 8 1 % 2 = 1

/-! ## What is read is what the tree says -/

section
variable {F : Prop} {t₀ : Tree}

/-- The bytes read from a tree. -/
def Gives (t : Tree) (isText : Bool) (bs : Bytes) : Prop :=
  t = .null ∧ bs = [] ∨ if isText then t.IsText bs else t.IsData bs

end

/-! ## Accepted trees -/

section
variable {t₀ t : Tree} {r : Client} {P : Result → Prop}

/-- Bytes that are not empty come from a list. -/
theorem Gives.list {v : Tree} {isText : Bool} {bs : Bytes} (h : Gives v isText bs) (hne : bs ≠ []) :
    if isText then v.IsText bs else v.IsData bs := by
  rcases h with ⟨-, hnil⟩ | h
  · exact absurd hnil hne
  · exact h

/-- The tree is denoted by a pointer of the frame, or is an absent one. -/
def Denoted (A : Arena) (t : Tree) : Prop := t = .null ∨ ∃ seg slot xs, Denotes A 2 seg slot t xs

theorem Denoted.pointer {A : Arena} (h : Denoted A t) (i : Nat) : Denoted A (t.pointer i) := by
  rcases h with rfl | ⟨seg, slot, xs, h⟩
  · exact Or.inl rfl
  cases h with
  | @struct _ _ _ _ _ _ ps _ _ _ _ _ _ hkids =>
    cases hc : ps[i]? with
    | none => exact Or.inl (by simp [Tree.pointer, hc])
    | some c =>
      have hpointer : ps.getD i .null = c := by simp [hc]
      rw [Tree.pointer, hpointer]
      exact Or.inr ⟨_, _, _, hkids i c hc⟩
  | _ => exact Or.inl rfl

/-- An empty list of structs has no other form. -/
theorem Denoted.composite {A : Arena} (h : Denoted A t) (hkind : t.kind = .list)
    (hsize : t.elementSize = 7) (hcount : t.count = 0) : t = .composite [] := by
  rcases h with rfl | ⟨seg, slot, xs, h⟩
  · cases hkind
  cases h with
  | @list _ _ _ _ _ size _ _ _ _ hsmall =>
    have : size = 7 := hsize
    omega
  | composite => rw [List.eq_nil_of_length_eq_zero hcount]
  | _ => cases hsize

end

/-! ## Reading such a tree -/

section
variable {t₀ t : Tree} {r : Client}

/-- The client that has accepted a registration. -/
def accepted (r : Client) (id location : Bytes) : Client :=
  { r with
    remotelyManaged := true
    connectionId := id
    location := location ++ 0 :: r.location.drop (location.length + 1)
    state := .registered }

/-- The client whose registration was rejected. -/
def refused (r : Client) (t : Tree) : Client :=
  { r with
    shouldRetry := retryOf t
    retryAfterMs := delayMs ((detailsOf t).number 0 8)
    state := .rejected }

end

/-! ## The main result -/

section
variable {t : Tree} {r : Client} {out : Mem} {cap : Nat}

variable (hroom : txMax ≤ cap) (hr : r.state = .registering)
include hroom hr

end

/-- A struct directly behind the pointer to it. -/
def Behind (A : Arena) (slot dw pc : Nat) (data : Bytes) : Prop :=
  A.Inside 0 slot 1 ∧ A.word 0 slot = dw * 2 ^ 32 + pc * 2 ^ 48 ∧ dw < 2 ^ 16 ∧ 0 < dw + pc ∧
    A.Inside 0 (slot + 1) (dw + pc) ∧ A.bytes 0 (slot + 1) dw = data

instance (A : Arena) (slot dw pc : Nat) (data : Bytes) : Decidable (Behind A slot dw pc data) :=
  inferInstanceAs (Decidable (_ ∧ _))

theorem Behind.denotes {A : Arena} {slot dw : Nat} {data : Bytes} {ps : List Tree} {xs : Nat → List Extent}
    (h : Behind A slot dw ps.length data)
    (hkids : ∀ i t, ps[i]? = some t → Denotes A 2 0 (slot + 1 + dw + i) t (xs i)) :
    Denotes A 2 0 slot (.struct data ps)
      (⟨0, slot + 1, dw + ps.length⟩ :: (List.range ps.length).flatMap xs) := by
  obtain ⟨hin, hword, hdw, hne, hobject, rfl⟩ := h
  have hoffset : pointerOffset (dw * 2 ^ 32 + ps.length * 2 ^ 48) = 0 := by
    have hlow : (dw * 2 ^ 32 + ps.length * 2 ^ 48) % 2 ^ 32 / 4 = 0 := by omega
    rw [pointerOffset, hlow]
    rfl
  have hpoints : Points A 2 0 slot (dw * 2 ^ 32 + ps.length * 2 ^ 48) 0 (slot + 1) :=
    .near hin hword (by omega) (by omega) (by rw [hoffset]; push_cast; omega)
  exact .struct hpoints (by omega) (by omega) (by omega) hobject hkids

end EspCfTunnel.Rpc
