import Mathlib.Tactic.Common

/-!
# Histories

A history is the list of what has happened. A rule `ok before a` says whether `a` may happen after
`before`; a history keeps the rule if every entry was allowed by those before it. `Obeys` is for
histories that are written oldest first, `Lawful` for those that are written newest first.
-/

namespace History

variable {α : Type} {ok ok' : List α → α → Prop} {log : List α}

/-- Every entry was allowed when it happened. -/
def Obeys (ok : List α → α → Prop) (log : List α) : Prop :=
  ∀ before a after, log = before ++ a :: after → ok before a

theorem Obeys.nil : Obeys ok [] := by
  intro before a after h
  simp at h

/-- What happens last is allowed by all the rest. -/
theorem obeys_concat {a : α} : Obeys ok (log ++ [a]) ↔ Obeys ok log ∧ ok log a := by
  constructor
  · intro h
    refine ⟨fun before b after hlog => ?_, h log a [] rfl⟩
    exact h before b (after ++ [a]) (by simp [hlog])
  · rintro ⟨h, ha⟩ before b after hlog
    rcases List.eq_nil_or_concat after with rfl | ⟨rest, c, rfl⟩
    · obtain ⟨rfl, hb⟩ := List.append_inj' hlog rfl
      cases hb
      exact ha
    · have hlog' : log ++ [a] = (before ++ b :: rest) ++ [c] := by simp [hlog]
      obtain ⟨hrest, -⟩ := List.append_inj' hlog' rfl
      exact h before b rest hrest

/-- A history has kept the rule from its beginning. -/
theorem Obeys.of_append {rest : List α} (h : Obeys ok (log ++ rest)) : Obeys ok log := by
  intro before a after hlog
  refine h before a (after ++ rest) ?_
  rw [hlog, List.append_assoc, List.cons_append]

/-- An entry of a history was allowed by some part of it. -/
theorem Obeys.mem {a : α} (h : Obeys ok log) (ha : a ∈ log) :
    ∃ before after, log = before ++ a :: after ∧ ok before a := by
  obtain ⟨before, after, hlog⟩ := List.append_of_mem ha
  exact ⟨before, after, hlog, h before a after hlog⟩

/-- Every entry of a history, newest first, was allowed when it happened. -/
def Lawful (ok : List α → α → Prop) : List α → Prop
  | [] => True
  | a :: before => ok before a ∧ Lawful ok before

theorem Lawful.split {later before : List α} {a : α} (h : Lawful ok (later ++ a :: before)) :
    ok before a := by
  induction later with
  | nil => exact h.1
  | cons b later ih => exact ih h.2

theorem Lawful.suffix {log log' : List α} (h : Lawful ok log') (hlog : log <:+ log') : Lawful ok log := by
  obtain ⟨later, rfl⟩ := hlog
  induction later with
  | nil => exact h
  | cons b later ih => exact ih h.2

/-- Entries that are always allowed. -/
theorem Lawful.append {later before : List α} (h : Lawful ok before)
    (hlater : ∀ a ∈ later, ∀ past, ok past a) : Lawful ok (later ++ before) := by
  induction later with
  | nil => exact h
  | cons a later ih =>
    exact ⟨hlater a List.mem_cons_self _, ih fun b hb => hlater b (List.mem_cons_of_mem _ hb)⟩

end History
