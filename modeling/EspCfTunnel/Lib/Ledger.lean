import Mathlib.Data.List.AList
import Mathlib.Algebra.BigOperators.Group.List.Basic
import Mathlib.Algebra.GroupWithZero.Nat

/-!
# Ledgers

A ledger keeps entries under distinct keys, each with a weight. `total` is the sum of the weights;
the lemmas say how it moves when an entry is made, changed or struck out.
-/

namespace Ledger

variable {κ β : Type} [DecidableEq κ] {weight : β → Nat} {l : AList fun _ : κ => β} {a : κ} {b c : β}

/-- The weight of all entries together. -/
def total (weight : β → Nat) (l : AList fun _ : κ => β) : Nat :=
  (l.entries.map fun e => weight e.2).sum

/-- Striking an entry out takes its weight. -/
theorem total_erase (h : l.lookup a = some b) : total weight (l.erase a) + weight b = total weight l := by
  have hmem : a ∈ l.entries.keys := by
    rw [← AList.keys, ← AList.mem_keys, ← AList.lookup_isSome, h]
    rfl
  obtain ⟨c, before, after, hnot, hentries, herase⟩ := List.exists_of_kerase hmem
  have hc : c = b := by
    have hlook : l.entries.dlookup a = some b := h
    rw [hentries, List.dlookup_append, List.dlookup_eq_none.2 hnot, Option.none_or,
      List.dlookup_cons_eq] at hlook
    exact Option.some.inj hlook
  subst hc
  have hrest : (l.erase a).entries = before ++ after := herase
  rw [total, total, hrest, hentries]
  simp only [List.map_append, List.map_cons, List.sum_append, List.sum_cons]
  omega

theorem total_insert : total weight (l.insert a b) = weight b + total weight (l.erase a) := by
  rw [total, AList.entries_insert, List.map_cons, List.sum_cons]
  rfl

/-- A new entry adds its weight. -/
theorem total_insert_new (h : l.lookup a = none) :
    total weight (l.insert a b) = total weight l + weight b := by
  rw [total, AList.entries_insert_of_notMem (AList.lookup_eq_none.1 h), List.map_cons,
    List.sum_cons, Nat.add_comm]
  rfl

/-- An entry that keeps its weight when it is changed. -/
theorem total_insert_same (h : l.lookup a = some c) (hw : weight b = weight c) :
    total weight (l.insert a b) = total weight l := by
  rw [total_insert, hw, Nat.add_comm]
  exact total_erase h

/-- An entry weighs no more than the whole. -/
theorem le_total (h : l.lookup a = some b) : weight b ≤ total weight l := by
  have hsum : total weight (l.erase a) + weight b = total weight l := total_erase h
  omega

end Ledger
