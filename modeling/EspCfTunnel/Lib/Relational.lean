import EspCfTunnel.Lib.StateLogic

/-!
# Two programs side by side

`Agree R x y` says that `x` and `y`, started in states related by `R`, return the same value and end in
related states. It is how one shows that a part of the state is not seen from outside: `R` relates the
states that differ in that part.
-/

namespace StateLogic

variable {σ τ α β : Type} {R : σ → τ → Prop}

/-- From related states, the same value and related states. -/
def Agree (R : σ → τ → Prop) (x : StateM σ α) (y : StateM τ α) : Prop :=
  ∀ s t, R s t → (x s).1 = (y t).1 ∧ R (x s).2 (y t).2

namespace Agree

theorem ret {a : α} : Agree R (pure a) (pure a) := fun _ _ h => ⟨rfl, h⟩

theorem bind {x : StateM σ α} {y : StateM τ α} {f : α → StateM σ β} {g : α → StateM τ β}
    (hx : Agree R x y) (hf : ∀ a, Agree R (f a) (g a)) : Agree R (x >>= f) (y >>= g) := by
  intro s t h
  obtain ⟨hvalue, hstate⟩ := hx s t h
  rw [run_bind, run_bind, ← hvalue]
  exact hf _ _ _ hstate

/-- What follows a read may use that the states that were read are related. -/
theorem get_bind {f : σ → StateM σ β} {g : τ → StateM τ β}
    (h : ∀ s t, R s t → (f s s).1 = (g t t).1 ∧ R (f s s).2 (g t t).2) :
    Agree R (get >>= f) (get >>= g) := h

theorem modify {f : σ → σ} {g : τ → τ} (h : ∀ s t, R s t → R (f s) (g t)) :
    Agree R (modify f : StateM σ PUnit) (modify g : StateM τ PUnit) :=
  fun s t hst => ⟨rfl, h s t hst⟩

theorem ite {c : Prop} [Decidable c] {x x' : StateM σ α} {y y' : StateM τ α} (ht : c → Agree R x y)
    (he : ¬ c → Agree R x' y') : Agree R (if c then x else x') (if c then y else y') := by
  split
  · next h => exact ht h
  · next h => exact he h

/-- A step that is taken only under a condition, before the rest. -/
theorem when {c : Prop} [Decidable c] {x : StateM σ PUnit} {y : StateM τ PUnit} {f : StateM σ β}
    {g : StateM τ β} (hx : c → Agree R x y) (hf : Agree R f g) :
    Agree R (if c then x >>= fun _ => f else f) (if c then y >>= fun _ => g else g) :=
  ite (fun hc => bind (hx hc) fun _ => hf) fun _ => hf

end Agree

end StateLogic
