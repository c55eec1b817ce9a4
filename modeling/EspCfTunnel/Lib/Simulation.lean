import EspCfTunnel.Lib.StateLogic

/-!
# Simulation of state transformers

Two programs over different states are run side by side. `Sim S i x y Q` says that from states
related by `S i` the programs `x` and `y` end in states related by `S j`, with results related by
`Q` at `j`. The index carries what the relation promises quantitatively, such as a budget: a rule
that spends some of it moves from `i` to a smaller `j`, and what follows starts from there.
-/

namespace StateLogic

variable {ι σ τ α β γ δ : Type}

/-- From states related at `i`, both programs end in states related at some `j`, and their results
are related by `Q` at `j`. -/
def Sim (S : ι → σ → τ → Prop) (i : ι) (x : StateM σ α) (y : StateM τ β)
    (Q : α → β → ι → Prop) : Prop :=
  ∀ s t, S i s t → ∃ j, S j (x s).2 (y t).2 ∧ Q (x s).1 (y t).1 j

namespace Sim

variable {S : ι → σ → τ → Prop} {i : ι} {Q Q' : α → β → ι → Prop} {R : γ → δ → ι → Prop}

theorem ret {a : α} {b : β} (h : Q a b i) : Sim S i (pure a) (pure b) Q :=
  fun _ _ hs => ⟨i, hs, h⟩

theorem bind {x : StateM σ α} {y : StateM τ β} {f : α → StateM σ γ} {k : β → StateM τ δ}
    (hx : Sim S i x y Q) (hf : ∀ a b j, Q a b j → Sim S j (f a) (k b) R) :
    Sim S i (x >>= f) (y >>= k) R := by
  intro s t hs
  obtain ⟨j, hj, hq⟩ := hx s t hs
  exact hf _ _ j hq _ _ hj

/-- A branch that both programs take alike. -/
theorem ite {c d : Prop} [Decidable c] [Decidable d] {x x' : StateM σ α} {y y' : StateM τ β}
    (hcd : c ↔ d) (ht : c → d → Sim S i x y Q) (he : ¬ c → ¬ d → Sim S i x' y' Q) :
    Sim S i (if c then x else x') (if d then y else y') Q := by
  by_cases hc : c
  · rw [if_pos hc, if_pos (hcd.1 hc)]
    exact ht hc (hcd.1 hc)
  · rw [if_neg hc, if_neg fun hd => hc (hcd.2 hd)]
    exact he hc fun hd => hc (hcd.2 hd)

end Sim

end StateLogic
