import Mathlib.Algebra.BigOperators.Fin
import Mathlib.Algebra.Order.BigOperators.Group.Finset
import Mathlib.Data.List.FinRange

/-!
# Tables of slots

A table is a function from `Fin n`. `lookup` is the first slot that a test accepts and `tally` the
number of such slots; the lemmas say how both change when one slot is written.
-/

namespace Table

variable {n : Nat} {α : Type}

/-- The first slot that passes the test. -/
def lookup (p : α → Bool) (t : Fin n → α) : Option (Fin n) := (List.finRange n).find? fun i => p (t i)

/-- How many slots pass the test. -/
def tally (p : α → Bool) (t : Fin n → α) : Nat := ((List.finRange n).filter fun i => p (t i)).length

variable {p q : α → Bool} {t u : Fin n → α} {i : Fin n}

/-! ## Looking up -/

theorem of_lookup_eq_some (h : lookup p t = some i) : p (t i) = true :=
  List.find?_some (p := fun i => p (t i)) h

theorem lookup_eq_none : lookup p t = none ↔ ∀ i, p (t i) = false := by
  simp [lookup]

/-- The only slot that passes the test is found. -/
theorem lookup_eq_some (hi : p (t i) = true) (huniq : ∀ j, p (t j) = true → j = i) :
    lookup p t = some i := by
  cases h : lookup p t with
  | none => rw [lookup_eq_none.1 h i] at hi; cases hi
  | some j => rw [huniq j (of_lookup_eq_some h)]

/-! ## Counting -/

theorem tally_eq_sum (p : α → Bool) (t : Fin n → α) :
    tally p t = ∑ i, if p (t i) then 1 else 0 := by
  have hlist : ∀ l : List (Fin n), (l.filter fun i => p (t i)).length =
      (l.map fun i => if p (t i) then 1 else 0).sum := by
    intro l
    induction l with
    | nil => rfl
    | cons i l ih =>
      rw [List.map_cons, List.sum_cons, ← ih, List.filter_cons]
      split
      · rw [List.length_cons, Nat.add_comm]
      · rw [Nat.zero_add]
  rw [tally, hlist, ← Fin.sum_univ_def]

/-- Slots that pass one test pass the other. -/
theorem tally_mono (h : ∀ i, p (t i) = true → q (u i) = true) : tally p t ≤ tally q u := by
  rw [tally_eq_sum, tally_eq_sum]
  refine Finset.sum_le_sum fun i _ => ?_
  by_cases hp : p (t i) = true
  · rw [if_pos hp, if_pos (h i hp)]
  · rw [if_neg hp]
    exact Nat.zero_le _

theorem tally_congr (h : ∀ i, p (t i) = q (u i)) : tally p t = tally q u :=
  le_antisymm (tally_mono fun i hp => (h i).symm.trans hp) (tally_mono fun i hq => (h i).trans hq)

theorem tally_le (p : α → Bool) (t : Fin n → α) : tally p t ≤ n := by
  rw [tally]
  exact (List.length_filter_le _ _).trans_eq (List.length_finRange)

theorem tally_pos (h : p (t i) = true) : 0 < tally p t := by
  rw [tally]
  exact List.length_pos_of_mem (List.mem_filter.2 ⟨List.mem_finRange i, h⟩)

/-- Different values that are found in slots with the test are no more than those slots. -/
theorem length_le_tally {β : Type} {l : List β} {f : α → β} (hl : l.Nodup)
    (h : ∀ b ∈ l, ∃ i, p (t i) = true ∧ f (t i) = b) : l.length ≤ tally p t := by
  have hsub : l ⊆ ((List.finRange n).filter fun i => p (t i)).map fun i => f (t i) := by
    intro b hb
    obtain ⟨i, hi, rfl⟩ := h b hb
    exact List.mem_map_of_mem (List.mem_filter.2 ⟨List.mem_finRange i, hi⟩)
  exact (List.subperm_of_subset hl hsub).length_le.trans_eq (List.length_map _)

/-- Writing a slot changes the number by that slot alone. -/
theorem tally_update (p : α → Bool) (t : Fin n → α) (i : Fin n) (a : α) :
    tally p (Function.update t i a) + (if p (t i) then 1 else 0) =
      tally p t + if p a then 1 else 0 := by
  have hrest : ∀ j, j ∈ Finset.univ.erase i →
      (if p (Function.update t i a j) then 1 else 0) = if p (t j) then 1 else 0 := by
    intro j hj
    rw [Function.update_of_ne (Finset.ne_of_mem_erase hj)]
  rw [tally_eq_sum, tally_eq_sum, ← Finset.add_sum_erase _ _ (Finset.mem_univ i),
    ← Finset.add_sum_erase Finset.univ (fun j => if p (t j) then 1 else 0) (Finset.mem_univ i),
    Finset.sum_congr rfl hrest, Function.update_self]
  omega

/-- A slot that does not pass after it is written. -/
theorem tally_update_le {a : α} (h : p a = true → p (t i) = true) :
    tally p (Function.update t i a) ≤ tally p t := by
  have hcount := tally_update p t i a
  by_cases ha : p a = true
  · rw [if_pos ha, if_pos (h ha)] at hcount
    omega
  · rw [if_neg ha] at hcount
    omega

end Table
