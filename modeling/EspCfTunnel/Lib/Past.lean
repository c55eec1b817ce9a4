import Mathlib.Data.List.Induction
import Mathlib.Tactic.Common

/-!
# Past-time properties of runs

A run feeds inputs to a step function. `Since P Q` holds after a run if some input met `P` when it was
taken, and no later one met `Q`; both may look at the state the input found. An invariant that speaks of
the past is proved by induction over the run with `since_concat`, which says what one more input does.
-/

namespace Past

variable {ι σ : Type} (step : ι → σ → σ)

/-- The inputs one after the other. -/
def run (is : List ι) (s : σ) : σ := is.foldl (fun s i => step i s) s

@[simp] theorem run_nil (s : σ) : run step [] s = s := rfl

theorem run_append (is js : List ι) (s : σ) : run step (is ++ js) s = run step js (run step is s) :=
  List.foldl_append

@[simp] theorem run_concat (is : List ι) (i : ι) (s : σ) :
    run step (is ++ [i]) s = step i (run step is s) := run_append step is [i] s

/-- Some input met `P`, and none after it has met `Q`. -/
def Since (P Q : ι → σ → Prop) (is : List ι) (s : σ) : Prop :=
  ∃ before i after, is = before ++ i :: after ∧ P i (run step before s) ∧
    ∀ mid j rest, after = mid ++ j :: rest → ¬ Q j (run step (before ++ i :: mid) s)

variable {step} {P P' Q : ι → σ → Prop} {is : List ι} {i : ι} {s : σ}

theorem not_since_nil : ¬ Since step P Q [] s := by
  rintro ⟨before, i, after, h, -⟩
  simp at h

/-- The last input met `P`, or it came about earlier and the last input did not meet `Q`. -/
theorem since_concat : Since step P Q (is ++ [i]) s ↔
    P i (run step is s) ∨ (Since step P Q is s ∧ ¬ Q i (run step is s)) := by
  constructor
  · rintro ⟨before, k, after, hsplit, hk, hquiet⟩
    rcases List.eq_nil_or_concat after with rfl | ⟨after, j, rfl⟩
    · obtain ⟨rfl, hi⟩ := List.append_inj' hsplit rfl
      cases hi
      exact .inl hk
    · have hsplit' : is ++ [i] = (before ++ k :: after) ++ [j] := by simp [hsplit]
      obtain ⟨rfl, hi⟩ := List.append_inj' hsplit' rfl
      cases hi
      refine .inr ⟨⟨before, k, after, rfl, hk, fun mid j rest hmid => ?_⟩, ?_⟩
      · exact hquiet mid j (rest ++ [i]) (by simp [hmid])
      · exact hquiet after i [] (by simp)
  · rintro (hi | ⟨⟨before, k, after, rfl, hk, hquiet⟩, hi⟩)
    · exact ⟨is, i, [], rfl, hi, fun mid j rest hsplit => by simp at hsplit⟩
    · refine ⟨before, k, after ++ [i], by simp, hk, fun mid j rest hsplit => ?_⟩
      rcases List.eq_nil_or_concat rest with rfl | ⟨rest, j', rfl⟩
      · obtain ⟨rfl, hj⟩ := List.append_inj' hsplit rfl
        cases hj
        exact hi
      · have hsplit' : after ++ [i] = (mid ++ j :: rest) ++ [j'] := by simp [hsplit]
        obtain ⟨hafter, -⟩ := List.append_inj' hsplit' rfl
        exact hquiet mid j rest hafter

theorem Since.mono (h : Since step P Q is s) (hP : ∀ i s, P i s → P' i s) : Since step P' Q is s := by
  obtain ⟨before, i, after, hsplit, hi, hquiet⟩ := h
  exact ⟨before, i, after, hsplit, hP _ _ hi, hquiet⟩

/-- What holds at the start and is kept by every input holds after every run. -/
theorem run_invariant {I : σ → Prop} (h : I s) (hstep : ∀ i s, I s → I (step i s)) :
    I (run step is s) := by
  induction is using List.reverseRecOn with
  | nil => exact h
  | append_singleton is i ih =>
    rw [run_concat]
    exact hstep i _ ih

end Past
