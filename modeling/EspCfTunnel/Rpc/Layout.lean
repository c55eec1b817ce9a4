import EspCfTunnel.Rpc.Basic
import EspCfTunnel.Capnp.Simulation

/-!
# Messages mean their trees

`cf_rpc_receive` on a frame does what it does on the tree that the frame denotes: no path it follows
is deep enough for the depth limit, and it follows no pointer twice, so the words of the objects it
reads, which do not overlap, together with a few words for each pointer and number, stay below the
traversal budget. How the tree is laid out over segments therefore makes no difference.
-/

namespace EspCfTunnel.Rpc

open EspCfTunnel Framing Capnp StateLogic

section
variable {A : Arena} {B : Nat} {t₀ : Tree}

/-! ## The operations of the two sources -/

/-- What remains to be paid below the first two pointers of a value just reached. -/
theorem reached_elim {K d : Nat} {xs : List Extent} {v : Value} {t : Tree} {B' : Nat}
    (h : Reached A K d B xs v t B') :
    ∃ ys own, Shows A K v t ys ∧ v.depth ≤ d ∧ B ≤ B' + (K + 2 + own) ∧
      own + totalWords (ys 0) + totalWords (ys 1) ≤ totalWords xs := by
  obtain ⟨ys, own, hshow, hd, hB, hbelow⟩ := h
  refine ⟨ys, own, hshow, hd, hB, ?_⟩
  have := hbelow 2
  simp only [wordsBelow, List.range_succ, List.range_zero, List.nil_append, List.map_append,
    List.map_cons, List.map_nil, List.sum_append, List.sum_cons, List.sum_nil] at this
  omega

/-- Both programs return the same. -/
def Agree (A : Arena) (B : Nat) {α : Type} (x : StateM Reader α) (y : StateM Result α) : Prop :=
  Sim (Reader.Tracks A) B x y fun a b _ => a = b

theorem Agree.ret {α : Type} (a : α) : Agree A B (pure a) (pure a) := Sim.ret rfl

theorem Agree.ite {α : Type} {c d : Prop} [Decidable c] [Decidable d] {x x' : StateM Reader α}
    {y y' : StateM Result α} (hcd : c ↔ d) (ht : c → Agree A B x y) (he : ¬ c → Agree A B x' y') :
    Agree A B (if c then x else x') (if d then y else y') :=
  Sim.ite hcd (fun hc _ => ht hc) fun hc _ => he hc

section
variable (hA : ∀ seg, A.words seg < 2 ^ 32) {v : Value} {t : Tree} {ys : Nat → List Extent} {d : Nat}
    (h : Shows A 2 v t ys) (hv : v.depth ≤ d)
include h

theorem agree_uint {α : Type} {byte width : Nat} {f : Nat → StateM Reader α}
    {k : Nat → StateM Result α} (hB : 1 ≤ B) (hf : ∀ n, Agree A (B - 1) (f n) (k n)) :
    Agree A B (readerSource.uint v byte width >>= f) ((treeSource t₀).uint t byte width >>= k) := by
  refine Sim.bind (uint_sim h byte width hB) fun n n' B' hn => ?_
  obtain ⟨rfl, rfl⟩ := hn
  exact hf n

theorem agree_data {α : Type} {isText : Bool} {f : Bytes → StateM Reader α}
    {k : Bytes → StateM Result α} (hf : ∀ bs, Agree A B (f bs) (k bs)) :
    Agree A B (readerSource.data v isText >>= f) ((treeSource t₀).data t isText >>= k) := by
  refine Sim.bind (data_sim h isText) fun bs bs' B' hbs => ?_
  obtain ⟨rfl, rfl⟩ := hbs
  exact hf bs

include hA hv

/-- Following a pointer field, and going on with what it shows. -/
theorem agree_field {α : Type} {f : Value → StateM Reader α} {k : Tree → StateM Result α}
    (hd : d + 1 ≤ depthMax) (i : Nat) (hB : 4 + totalWords (ys i) ≤ B)
    (hf : ∀ u c zs own B', Shows A 2 u c zs → u.depth ≤ d + 1 → B ≤ B' + (4 + own) →
      own + totalWords (zs 0) + totalWords (zs 1) ≤ totalWords (ys i) → Agree A B' (f u) (k c)) :
    Agree A B (readerSource.field v i >>= f) ((treeSource t₀).field t i >>= k) := by
  refine Sim.bind (field_sim hA h hv hd i hB) fun u c B' hu => ?_
  obtain ⟨zs, own, hshow, hdepth, hcost, hbelow⟩ := reached_elim hu
  exact hf u c zs own B' hshow hdepth hcost hbelow

end

end

end EspCfTunnel.Rpc
