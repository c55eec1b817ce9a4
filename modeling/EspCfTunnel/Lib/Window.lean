import Mathlib.Data.List.Count
import Mathlib.Tactic.Common
import Mathlib.Tactic.Ring

/-!
# Counters that start again

A counter allows `limit` moves in a window of `width` units of time. A window starts with the first move
after the one before it is over, so the moves at the end of one window and the start of the next may
come close together; what holds is a bound on the moves in any stretch of time (`Run.spent_le`). A move
that clears the counter gives the whole limit back.
-/

namespace Window

/-- When the window started, and what was spent in it. -/
structure Counter where
  start : Nat
  spent : Nat

/-- The counter that a move at this time finds. -/
def Counter.at (width : Nat) (c : Counter) (now : Nat) : Counter :=
  if now - c.start ≥ width then ⟨now, 0⟩ else c

inductive Kind
  | idle | spend | clear
  deriving DecidableEq

/-- One move at the time `now`. -/
inductive Step (width limit now : Nat) (c : Counter) : Kind → Counter → Prop
  | idle : Step width limit now c .idle c
  | spend (h : (c.at width now).spent < limit) :
    Step width limit now c .spend ⟨(c.at width now).start, (c.at width now).spent + 1⟩
  | clear : Step width limit now c .clear ⟨(c.at width now).start, 0⟩

/-- Moves one after the other. -/
inductive Run (width limit : Nat) : Counter → List (Nat × Kind) → Counter → Prop
  | nil (c : Counter) : Run width limit c [] c
  | cons {c c' c'' : Counter} {now : Nat} {k : Kind} {moves : List (Nat × Kind)}
    (h : Step width limit now c k c') (hrun : Run width limit c' moves c'') :
    Run width limit c ((now, k) :: moves) c''

/-- How many moves of a kind there are. -/
def count (k : Kind) (moves : List (Nat × Kind)) : Nat := (moves.map Prod.snd).count k

@[simp] theorem count_nil (k : Kind) : count k [] = 0 := rfl

@[simp] theorem count_cons (k k' : Kind) (now : Nat) (moves : List (Nat × Kind)) :
    count k ((now, k') :: moves) = count k moves + if k' = k then 1 else 0 := by
  simp [count, List.count_cons]

variable {width limit : Nat} {c c' : Counter} {now : Nat} {k : Kind} {moves : List (Nat × Kind)}

/-- A move finds the old window, or one that starts now. -/
theorem Counter.at_cases (c : Counter) (hle : c.start ≤ now) :
    (now < c.start + width ∧ c.at width now = c) ∨
      (c.start + width ≤ now ∧ c.at width now = ⟨now, 0⟩) := by
  unfold Counter.at
  split
  · next h => exact .inr ⟨by omega, rfl⟩
  · next h => exact .inl ⟨by omega, rfl⟩

theorem Step.spent_le (h : Step width limit now c k c') (hc : c.spent ≤ limit) : c'.spent ≤ limit := by
  cases h with
  | idle => exact hc
  | spend hlt => exact hlt
  | clear => exact Nat.zero_le _

/-- The window of a counter starts in the past. -/
theorem Step.start_le (h : Step width limit now c k c') (hc : c.start ≤ now) : c'.start ≤ now := by
  have hat : (c.at width now).start ≤ now := by
    rcases c.at_cases hc with ⟨-, heq⟩ | ⟨-, heq⟩
    · rwa [heq]
    · rw [heq]
  cases h with
  | idle => exact hc
  | spend => exact hat
  | clear => exact hat

theorem Run.limit_le (hrun : Run width limit c moves c') (hc : c.spent ≤ limit) : c'.spent ≤ limit := by
  induction hrun with
  | nil => exact hc
  | cons hstep _ ih => exact ih (hstep.spent_le hc)

/-- After a run, the window starts no later than its last move. -/
theorem Run.start_le (hrun : Run width limit c moves c') {since last : Nat}
    (hsorted : (since :: moves.map Prod.fst).Pairwise (· ≤ ·)) (hstart : c.start ≤ since)
    (hsince : since ≤ last) (hlast : ∀ t ∈ moves.map Prod.fst, t ≤ last) : c'.start ≤ last := by
  induction hrun generalizing since with
  | nil => exact hstart.trans hsince
  | cons hstep _ ih =>
    simp only [List.map_cons, List.pairwise_cons, List.mem_cons, forall_eq_or_imp] at hsorted hlast
    obtain ⟨⟨hnow, -⟩, hlater, hrest⟩ := hsorted
    exact ih (List.pairwise_cons.2 ⟨hlater, hrest⟩) (hstep.start_le (hstart.trans hnow)) hlast.1 hlast.2

/-- The bound along a run: `n` windows may still start after the one of the counter is over. -/
theorem Run.spent_le_aux (hrun : Run width limit c moves c') {since n : Nat}
    (hsorted : (since :: moves.map Prod.fst).Pairwise (· ≤ ·)) (hc : c.spent ≤ limit)
    (hstart : c.start ≤ since)
    (hend : ∀ t ∈ moves.map Prod.fst, t < max (c.start + width) since + n * width) :
    count .spend moves + c.spent ≤ limit * (n + 1 + count .clear moves) := by
  induction hrun generalizing since n with
  | nil c =>
    simp only [count_nil]
    calc 0 + c.spent ≤ limit := by omega
      _ ≤ limit * (n + 1 + 0) := Nat.le_mul_of_pos_right _ (by omega)
  | @cons c c₁ c₂ now k moves hstep hrun ih =>
    simp only [List.map_cons, List.pairwise_cons, List.mem_cons, forall_eq_or_imp] at hsorted hend
    obtain ⟨⟨hnow, -⟩, hlater, hrest⟩ := hsorted
    obtain ⟨hend, hends⟩ := hend
    have hold : c.start ≤ now := hstart.trans hnow
    have hih {n' : Nat} (hbound : ∀ t ∈ moves.map Prod.fst, t < max (c₁.start + width) now + n' * width) :
        count .spend moves + c₁.spent ≤ limit * (n' + 1 + count .clear moves) :=
      ih (List.pairwise_cons.2 ⟨hlater, hrest⟩) (hstep.spent_le hc) (hstep.start_le hold) hbound
    have hlate (n' : Nat) (start : Nat) (hle : max (c.start + width) since + n * width ≤
        max (start + width) now + n' * width) :
        ∀ t ∈ moves.map Prod.fst, t < max (start + width) now + n' * width :=
      fun t ht => (hends t ht).trans_le hle
    have hmono : max (c.start + width) since + n * width ≤ max (c.start + width) now + n * width := by
      omega
    -- A window that starts now is one of the `n`.
    have hnew (hover : c.start + width ≤ now) : ∃ n', n = n' + 1 ∧
        max (c.start + width) since + n * width ≤ max (now + width) now + n' * width := by
      cases n with
      | zero => omega
      | succ n' =>
        refine ⟨n', rfl, ?_⟩
        rw [Nat.succ_mul]
        omega
    rw [count_cons, count_cons]
    cases hstep with
    | idle =>
      have hbound := hih (hlate n c.start hmono)
      simpa using hbound
    | spend hlt =>
      rcases c.at_cases hold with ⟨-, heq⟩ | ⟨hover, heq⟩
      · rw [heq] at hih
        have hbound := hih (hlate n c.start hmono)
        simp only [reduceCtorEq, if_false, if_true, Nat.add_zero] at hbound ⊢
        omega
      · obtain ⟨n', rfl, hle⟩ := hnew hover
        rw [heq] at hih
        have hbound := hih (hlate n' now hle)
        have hlimit : limit * (n' + 1 + 1 + count .clear moves) =
            limit * (n' + 1 + count .clear moves) + limit := by ring
        simp only [reduceCtorEq, if_false, if_true, Nat.add_zero] at hbound ⊢
        omega
    | clear =>
      rcases c.at_cases hold with ⟨-, heq⟩ | ⟨hover, heq⟩
      · rw [heq] at hih
        have hbound := hih (hlate n c.start hmono)
        have hlimit : limit * (n + 1 + (count .clear moves + 1)) =
            limit * (n + 1 + count .clear moves) + limit := by ring
        simp only [reduceCtorEq, if_false, if_true, Nat.add_zero] at hbound ⊢
        omega
      · obtain ⟨n', rfl, hle⟩ := hnew hover
        rw [heq] at hih
        have hbound := hih (hlate n' now hle)
        have hlimit : limit * (n' + 1 + 1 + (count .clear moves + 1)) =
            limit * (n' + 1 + count .clear moves) + limit + limit := by ring
        simp only [reduceCtorEq, if_false, if_true, Nat.add_zero] at hbound ⊢
        omega

/-- In a stretch of time that is shorter than `n` windows, at most `n + 1` times the limit is spent, and
the limit once more for each time the counter was cleared. -/
theorem Run.spent_le (hrun : Run width limit c moves c') {since n : Nat}
    (hsorted : (moves.map Prod.fst).Pairwise (· ≤ ·)) (hc : c.spent ≤ limit) (hstart : c.start ≤ since)
    (htimes : ∀ t ∈ moves.map Prod.fst, since ≤ t ∧ t < since + n * width) :
    count .spend moves ≤ limit * (n + 1 + count .clear moves) := by
  have hbound := hrun.spent_le_aux (n := n)
    (List.pairwise_cons.2 ⟨fun t ht => (htimes t ht).1, hsorted⟩) hc hstart
    fun t ht => (htimes t ht).2.trans_le (by omega)
  omega

end Window
