import Mathlib.Logic.Relation
import Mathlib.Tactic.Common

/-!
# Pre- and postconditions of state transformers

`Triple P x Q` says that the program `x : StateM σ α`, started in a state where `P` holds, ends with
a value and a state where `Q` holds. The rules follow the constructs of `do` notation, so a proof
walks down a program the way the program is written. The `run` lemmas compute a program on a state.
`Steps R x` says that all the program does is a sequence of steps of `R`, `Oblivious p x` that it
does not see what `p` changes in the state, and `Keeps f x` that `f` of the state does not change. `rounds x n` repeats the body of a loop until it returns
a value, and `Round I m Q x` is what a body has to do for the loop to end.
-/

namespace StateLogic

variable {σ α β : Type}

/-! ## Running a program -/

@[simp] theorem run_pure (a : α) (s : σ) : (pure a : StateM σ α) s = (a, s) := rfl

@[simp] theorem run_bind (x : StateM σ α) (f : α → StateM σ β) (s : σ) :
    (x >>= f) s = f (x s).1 (x s).2 := rfl

/-- What follows a program whose run is known. -/
theorem run_bind_eq {x : StateM σ α} {f : α → StateM σ β} {s s' : σ} {a : α} (h : x s = (a, s')) :
    (x >>= f) s = f a s' := by
  rw [run_bind, h]

@[simp] theorem run_get (s : σ) : (get : StateM σ σ) s = (s, s) := rfl

@[simp] theorem run_set (s s' : σ) : (set s' : StateM σ PUnit) s = (⟨⟩, s') := rfl

@[simp] theorem run_modify (f : σ → σ) (s : σ) : (modify f : StateM σ PUnit) s = (⟨⟩, f s) := rfl

@[simp] theorem run_ite {c : Prop} [Decidable c] (x y : StateM σ α) (s : σ) :
    (if c then x else y) s = if c then x s else y s := by
  split <;> rfl

/-! ## Triples -/

/-- From a state with `P`, the program ends with a value and a state with `Q`. -/
def Triple (P : σ → Prop) (x : StateM σ α) (Q : α → σ → Prop) : Prop :=
  ∀ s, P s → Q (x s).1 (x s).2

namespace Triple

variable {P P' : σ → Prop} {Q Q' : α → σ → Prop} {R : β → σ → Prop}

theorem ret {a : α} (h : ∀ s, P s → Q a s) : Triple P (pure a) Q := h

theorem bind {x : StateM σ α} {f : α → StateM σ β} (hx : Triple P x Q)
    (hf : ∀ a, Triple (Q a) (f a) R) : Triple P (x >>= f) R :=
  fun s hs => hf _ _ (hx s hs)

theorem ite {c : Prop} [Decidable c] {x y : StateM σ α} (ht : c → Triple P x Q)
    (he : ¬ c → Triple P y Q) : Triple P (if c then x else y) Q := by
  split
  · next h => exact ht h
  · next h => exact he h

/-- A step that is taken only under a condition, before the rest. -/
theorem when {c : Prop} [Decidable c] {x : StateM σ PUnit} {k : StateM σ β} {A : σ → Prop}
    (hx : c → Triple P x fun _ => A) (hno : ¬ c → ∀ s, P s → A s) (hk : Triple A k R) :
    Triple P (if c then x >>= fun _ => k else k) R :=
  ite (fun h => bind (hx h) fun _ => hk) fun h s hs => hk s (hno h s hs)

/-- Reading the state: what follows may use that the value read is the state it starts in. -/
theorem get_bind {f : σ → StateM σ β} (h : ∀ s, P s → Triple (fun s' => s' = s ∧ P s') (f s) R) :
    Triple P (get >>= f) R :=
  fun s hs => h s hs s ⟨rfl, hs⟩

theorem weaken {x : StateM σ α} (h : Triple P x Q) (hp : ∀ s, P' s → P s)
    (hq : ∀ a s, Q a s → Q' a s) : Triple P' x Q' :=
  fun s hs => hq _ _ (h s (hp s hs))

theorem pre {x : StateM σ α} (h : Triple P x Q) (hp : ∀ s, P' s → P s) : Triple P' x Q :=
  h.weaken hp fun _ _ h => h

theorem post {x : StateM σ α} (h : Triple P x Q) (hq : ∀ a s, Q a s → Q' a s) : Triple P x Q' :=
  h.weaken (fun _ h => h) hq

theorem and {P' : σ → Prop} {Q' : α → σ → Prop} {x : StateM σ α} (h : Triple P x Q)
    (h' : Triple P' x Q') : Triple (fun s => P s ∧ P' s) x fun a s => Q a s ∧ Q' a s :=
  fun s hs => ⟨h s hs.1, h' s hs.2⟩

/-- A fact that does not mention the state may be used to prove the triple. -/
theorem of_fact {φ : Prop} {x : StateM σ α} (h : φ → Triple P x Q) :
    Triple (fun s => φ ∧ P s) x Q :=
  fun s hs => h hs.1 s hs.2

/-- The idiom `if !(← x) then y` before the rest: a check that leaves `A` on either outcome, and
also `B` when it succeeds. -/
theorem guard {x : StateM σ Bool} {y k : StateM σ β} {A B : σ → Prop}
    (hx : Triple P x fun ok s => A s ∧ (ok = true → B s)) (hy : Triple A y R)
    (hk : Triple (fun s => B s ∧ A s) k R) : Triple P (x >>= fun ok => if !ok then y else k) R := by
  refine bind hx fun ok => ?_
  cases ok with
  | false => exact fun s hs => hy s hs.1
  | true => exact fun s hs => hk s ⟨hs.2 rfl, hs.1⟩

/-- The same idiom when the check is known to succeed. -/
theorem pass {x : StateM σ Bool} {y k : StateM σ β} {A : σ → Prop}
    (hx : Triple P x fun ok s => ok = true ∧ A s) (hk : Triple A k R) :
    Triple P (x >>= fun ok => if !ok then y else k) R := by
  intro s hs
  obtain ⟨hok, ha⟩ := hx s hs
  rw [run_bind, hok]
  exact hk _ ha

/-- A program whose result is known. -/
theorem bind_eq {x : StateM σ α} {f : α → StateM σ β} {a : α} {A : σ → Prop}
    (hx : Triple P x fun b s => b = a ∧ A s) (hf : Triple A (f a) R) : Triple P (x >>= f) R := by
  intro s hs
  obtain ⟨rfl, ha⟩ := hx s hs
  exact hf _ ha

end Triple

/-! ## Programs as sequences of steps -/

/-- The program leads from a state to one that steps of `R` lead to. -/
def Steps (R : σ → σ → Prop) (x : StateM σ α) : Prop := ∀ s, Relation.ReflTransGen R s (x s).2

namespace Steps

variable {R R' : σ → σ → Prop}

theorem ret {a : α} : Steps R (pure a) := fun _ => .refl

theorem single {x : StateM σ α} (h : ∀ s, R s (x s).2) : Steps R x := fun s => .single (h s)

theorem bind {x : StateM σ α} {f : α → StateM σ β} (hx : Steps R x) (hf : ∀ a, Steps R (f a)) :
    Steps R (x >>= f) :=
  fun s => (hx s).trans (hf _ _)

theorem get_bind {f : σ → StateM σ β} (h : ∀ a, Steps R (f a)) : Steps R (get >>= f) :=
  fun s => h s s

theorem ite {c : Prop} [Decidable c] {x y : StateM σ α} (ht : c → Steps R x) (he : ¬ c → Steps R y) :
    Steps R (if c then x else y) := by
  split
  · next h => exact ht h
  · next h => exact he h

theorem mono {x : StateM σ α} (h : Steps R x) (hR : ∀ s s', R s s' → R' s s') : Steps R' x :=
  fun s => Relation.ReflTransGen.mono hR _ _ (h s)

theorem of_triple {x : StateM σ α}
    (h : ∀ s, Triple (fun s' => s' = s) x fun _ => Relation.ReflTransGen R s) : Steps R x :=
  fun s => h s s rfl

/-- What holds of the states that a state leads to. -/
theorem triple {x : StateM σ α} (h : Steps R x) (s : σ) :
    Triple (Relation.ReflTransGen R s) x fun _ => Relation.ReflTransGen R s :=
  fun s' hs => hs.trans (h s')

/-- A property that every step keeps is kept by the program. -/
theorem keeps {x : StateM σ α} (h : Steps R x) {P : σ → Prop} (hP : ∀ s s', R s s' → P s → P s') :
    Triple P x fun _ => P := by
  intro s hs
  have hpath := h s
  generalize (x s).2 = s' at hpath
  induction hpath with
  | refl => exact hs
  | tail _ hstep ih => exact hP _ _ hstep ih

end Steps

/-! ## Programs that do not see a part of the state -/

/-- The program does the same after the change `p` of the state, and leaves the change as it is. -/
def Oblivious (p : σ → σ) (x : StateM σ α) : Prop := ∀ s, x (p s) = ((x s).1, p (x s).2)

namespace Oblivious

variable {p : σ → σ}

theorem ret (a : α) : Oblivious p (pure a : StateM σ α) := fun _ => rfl

theorem bind {x : StateM σ α} {f : α → StateM σ β} (hx : Oblivious p x) (hf : ∀ a, Oblivious p (f a)) :
    Oblivious p (x >>= f) := by
  intro s
  rw [run_bind, run_bind, hx s]
  exact hf _ _

/-- What follows a read depends only on what is not changed. -/
theorem get_bind {f : σ → StateM σ β} (hsame : ∀ s, f (p s) = f s) (hf : ∀ s, Oblivious p (f s)) :
    Oblivious p (get >>= f) := by
  intro s
  rw [run_bind, run_get, run_bind, run_get]
  dsimp only
  rw [hsame s]
  exact hf s s

theorem modify {f : σ → σ} (hf : ∀ s, f (p s) = p (f s)) :
    Oblivious p (modify f : StateM σ PUnit) := by
  intro s
  rw [run_modify, run_modify, hf s]

theorem ite {c : Prop} [Decidable c] {x y : StateM σ α} (hx : Oblivious p x) (hy : Oblivious p y) :
    Oblivious p (if c then x else y) := by
  split
  · exact hx
  · exact hy

end Oblivious

/-! ## Programs that leave a part of the state as it is -/

/-- Whatever the program does, `f` of the state stays what it was. -/
def Keeps {τ : Type} (f : σ → τ) (x : StateM σ α) : Prop := ∀ s, f (x s).2 = f s

namespace Keeps

variable {τ : Type} {f : σ → τ}

theorem ret {a : α} : Keeps f (pure a : StateM σ α) := fun _ => rfl

theorem bind {x : StateM σ α} {k : α → StateM σ β} (hx : Keeps f x) (hk : ∀ a, Keeps f (k a)) :
    Keeps f (x >>= k) :=
  fun s => (hk _ _).trans (hx s)

/-- What follows a read is only looked at in the state that was read. -/
theorem get_bind {k : σ → StateM σ β} (h : ∀ s, f (k s s).2 = f s) : Keeps f (get >>= k) := h

theorem modify {g : σ → σ} (h : ∀ s, f (g s) = f s) : Keeps f (modify g : StateM σ PUnit) := h

theorem ite {c : Prop} [Decidable c] {x y : StateM σ α} (hx : Keeps f x) (hy : Keeps f y) :
    Keeps f (if c then x else y) := by
  split
  · exact hx
  · exact hy

end Keeps

/-! ## Loops that end when their body returns a value -/

/-- At most `n` rounds of a loop. The first value that the body returns ends it. -/
def rounds (x : StateM σ (Option α)) : Nat → StateM σ (Option α)
  | 0 => return none
  | n + 1 => do
    match ← x with
    | some a => return some a
    | none => rounds x n

/-- A round from a state with `I` ends the loop with `Q`, or keeps `I` and lowers the measure `m`. -/
def Round (I : σ → Prop) (m : σ → Nat) (Q : α → σ → Prop) (x : StateM σ (Option α)) : Prop :=
  ∀ s, I s → (∃ a s', x s = (some a, s') ∧ Q a s') ∨ ∃ s', x s = (none, s') ∧ I s' ∧ m s' < m s

/-- Such a loop ends, with as many rounds as the measure is high and one more. -/
theorem Round.ends {I : σ → Prop} {m : σ → Nat} {Q : α → σ → Prop} {x : StateM σ (Option α)}
    (h : Round I m Q x) {n : Nat} {s : σ} (hs : I s) (hn : m s < n) :
    ∃ a s', rounds x n s = (some a, s') ∧ Q a s' := by
  induction n generalizing s with
  | zero => exact absurd hn (Nat.not_lt_zero _)
  | succ n ih =>
    rw [rounds]
    rcases h s hs with ⟨a, s', hx, hq⟩ | ⟨s', hx, hi, hm⟩
    · rw [run_bind_eq hx]
      exact ⟨a, s', rfl, hq⟩
    · rw [run_bind_eq hx]
      exact ih hi (by omega)

end StateLogic
