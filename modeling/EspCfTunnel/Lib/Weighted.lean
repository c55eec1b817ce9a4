import Mathlib.Tactic.Common
import Mathlib.Algebra.BigOperators.Group.List.Basic
import Mathlib.Algebra.GroupWithZero.Nat

/-!
# Choice by weight

A value below the sum of some weights is spent on them one after the other; the first that is larger
than what is left is chosen. Over all values below the sum, each is chosen as often as it weighs.
-/

namespace Weighted

/-- The index that a value falls on. -/
def chosen : List Nat → Nat → Nat
  | [], _ => 0
  | w :: ws, v => if v < w then 0 else chosen ws (v - w) + 1

theorem chosen_lt {ws : List Nat} {v : Nat} (h : v < ws.sum) : chosen ws v < ws.length := by
  induction ws generalizing v with
  | nil => exact absurd h (Nat.not_lt_zero _)
  | cons w ws ih =>
    rw [List.sum_cons] at h
    rw [chosen, List.length_cons]
    split
    · exact Nat.succ_pos _
    · exact Nat.succ_lt_succ (ih (by omega))

/-- **Every weight is chosen as often as it weighs**, one of zero never. -/
theorem count_chosen (ws : List Nat) {i : Nat} (hi : i < ws.length) :
    (List.range ws.sum).countP (fun v => chosen ws v = i) = ws[i] := by
  induction ws generalizing i with
  | nil => exact absurd hi (Nat.not_lt_zero _)
  | cons w ws ih =>
    -- The values below `w` choose the first weight, the others what is behind it.
    have hfirst : (List.range w).countP (fun v => chosen (w :: ws) v = i) = if i = 0 then w else 0 := by
      have hcongr : (List.range w).countP (fun v => chosen (w :: ws) v = i) =
          (List.range w).countP fun _ => 0 = i := by
        refine List.countP_congr fun v hv => ?_
        rw [chosen, if_pos (List.mem_range.1 hv)]
      rw [hcongr]
      by_cases h0 : i = 0
      · rw [if_pos h0, List.countP_eq_length.2 (by simp [h0]), List.length_range]
      · rw [if_neg h0, List.countP_eq_zero.2 (by simp [Ne.symm h0])]
    have hrest : ((List.range ws.sum).map (w + ·)).countP (fun v => chosen (w :: ws) v = i) =
        (List.range ws.sum).countP fun v => chosen ws v + 1 = i := by
      rw [List.countP_map]
      refine List.countP_congr fun v _ => ?_
      rw [Function.comp_apply, chosen, if_neg (by omega), Nat.add_sub_cancel_left]
    rw [List.sum_cons, List.range_add, List.countP_append, hfirst, hrest]
    cases i with
    | zero => simp
    | succ i =>
      have hcount := ih (Nat.lt_of_succ_lt_succ hi)
      rw [if_neg (Nat.succ_ne_zero i), Nat.zero_add, List.getElem_cons_succ, ← hcount]
      exact List.countP_congr fun v _ => by simp

end Weighted
