import EspCfTunnel.Lib.Window
import EspCfTunnel.Monitor.Session

/-!
# How often a password may be tried

`login_post` takes five attempts a minute. In any stretch of a run that is shorter than `n` minutes, at
most `5 (n + 1)` wrong passwords are looked at, and five more for each login that succeeds in between;
the bound is the one of a counter that starts again (`Window.Run.spent_le`).
-/

namespace EspCfTunnel.Api

open EspCfTunnel StateLogic Config Monitor Window

/-- The clock of a request. -/
def Input.time : Input → Option Nat
  | .request _ a => some a.now
  | _ => none

/-- The clocks of the requests of a run. -/
def times (is : List Input) : List Nat := is.filterMap Input.time

/-- The clock never goes back and has not run over. -/
def Clocked (is : List Input) : Prop := (times is).Pairwise (· ≤ ·) ∧ ∀ t ∈ times is, t < 2 ^ 64

/-- What a request is for the counter of the logins: a wrong password, one that opens a session, or
neither. -/
def kindOf (l : Library) (a : Answers) (r : Request) (s : State) : Kind :=
  if r.post = true ∧ r.path = text "/api/login" then
    if (dispatch l a r s).1.status = 401 then .spend
    else if r.originAllowed = true ∧ attempts a.now s < 5 ∧ passwordValid a r s = true then .clear
    else .idle
  else .idle

/-- The requests of a run, with their times. -/
def moves (l : Library) : List Input → State → List (Nat × Kind)
  | [], _ => []
  | .request r a :: is, s => (a.now, kindOf l a r s) :: moves l is (step l (.request r a) s)
  | i :: is, s => moves l is (step l i s)

/-- The counter of the logins. -/
def State.counter (s : State) : Counter := ⟨s.failureWindow, s.failures⟩

section
variable {l : Library} {a : Answers} {r : Request} {s : State}

/-- The counter that a login finds, while the clock does not go back. -/
theorem counter_at {now : Nat} (h : s.failureWindow ≤ now) (hnow : now < 2 ^ 64) :
    s.counter.at 60000 now = ⟨window now s, attempts now s⟩ := by
  unfold Counter.at window attempts State.counter
  rw [Network.elapsed_eq h hnow]
  dsimp only
  split <;> rfl

/-- A request is a move of the counter. -/
theorem serve_step (h : s.failureWindow ≤ a.now) (hnow : a.now < 2 ^ 64) :
    Window.Step 60000 5 a.now s.counter (kindOf l a r s) (serve l a r s).2.counter := by
  have hcounter {s' : State} (h : (serve l a r s).2.logins = s'.logins) :
      (serve l a r s).2.counter = s'.counter :=
    congrArg (fun x => (⟨x.2.2.1, x.2.2.2⟩ : Counter)) h
  have hserve := serve_logins l a r s
  unfold kindOf
  by_cases hlogin : r.post = true ∧ r.path = text "/api/login"
  · rw [if_pos hlogin]
    rw [dispatch_login hlogin] at hserve ⊢
    have hat := counter_at h hnow
    obtain ⟨n, w, hn, hw, hcases⟩ := loginPost_cases l a r s
    rw [← hn, ← hw] at hat
    rw [← hn]
    rcases hcases with ⟨ho, heq⟩ | ⟨-, hroom, heq⟩ | ⟨-, hroom, -, heq⟩ |
      ⟨ho, hroom, hright, reply, -, hstatus, heq⟩
    · rw [heq] at hserve ⊢
      rw [hcounter hserve, if_neg (by simp [error]), if_neg (by simp [ho])]
      exact .idle
    · rw [heq] at hserve ⊢
      rw [hcounter hserve, if_neg (by simp [error]), if_neg (by omega)]
      exact .idle
    · rw [heq] at hserve ⊢
      rw [hcounter hserve, if_pos (by simp [error])]
      have hstep : Window.Step 60000 5 a.now s.counter .spend _ := .spend (by rw [hat]; exact hroom)
      rw [hat] at hstep
      exact hstep
    · rw [heq] at hserve ⊢
      rw [hcounter hserve, if_neg hstatus, if_pos ⟨ho, hroom, passwordValid_iff.2 hright⟩]
      have hstep : Window.Step 60000 5 a.now s.counter .clear _ := .clear
      rw [hat] at hstep
      exact hstep
  · rw [if_neg hlogin]
    obtain ⟨hwindow, hfailures⟩ := (dispatch_change l a r s).counter hlogin
    have hsame : (dispatch l a r s).2.counter = s.counter := by
      rw [State.counter, hwindow, hfailures]
      rfl
    rw [hcounter hserve, hsame]
    exact .idle

/-! ## Runs -/

/-- An input that is no request leaves the counter as it is. -/
theorem step_counter {i : Input} (h : i.time = none) : (step l i s).counter = s.counter := by
  cases i with
  | request r a => cases h
  | tick locked a =>
    exact congrArg (fun x => (⟨x.2.2.1, x.2.2.2⟩ : Counter)) (tick_logins s)
  | network reads t => rfl
  | event o => rfl

theorem moves_times (l : Library) (is : List Input) (s : State) :
    (moves l is s).map Prod.fst = times is := by
  induction is generalizing s with
  | nil => rfl
  | cons i is ih =>
    cases i with
    | request r a => exact congrArg (a.now :: ·) (ih _)
    | tick locked a => exact ih _
    | network reads t => exact ih _
    | event o => exact ih _

/-- A run is a run of the counter. -/
theorem run_moves {is : List Input} {since : Nat} (hsorted : (since :: times is).Pairwise (· ≤ ·))
    (hbound : ∀ t ∈ times is, t < 2 ^ 64) (hstart : s.failureWindow ≤ since) :
    Window.Run 60000 5 s.counter (moves l is s) (run l is s).counter := by
  induction is generalizing s since with
  | nil => exact .nil _
  | cons i is ih =>
    cases htime : i.time with
    | none =>
      have hsame : times (i :: is) = times is := List.filterMap_cons_none htime
      have hcounter := step_counter (l := l) (s := s) htime
      have hwindow : (step l i s).failureWindow ≤ since := by
        have hfield : (step l i s).failureWindow = s.failureWindow := congrArg Counter.start hcounter
        rwa [hfield]
      rw [hsame] at hsorted hbound
      have hrest := ih hsorted hbound hwindow
      rw [hcounter] at hrest
      cases i with
      | request r a => cases htime
      | tick locked a => exact hrest
      | network reads t => exact hrest
      | event o => exact hrest
    | some now =>
      cases i with
      | request r a =>
        have hcons : times (.request r a :: is) = a.now :: times is := rfl
        rw [hcons] at hsorted hbound
        simp only [List.pairwise_cons, List.mem_cons, forall_eq_or_imp] at hsorted hbound
        obtain ⟨⟨hnow, -⟩, hlater, hrest⟩ := hsorted
        have hstep := serve_step (l := l) (r := r) (hstart.trans hnow) hbound.1
        exact .cons hstep (ih (List.pairwise_cons.2 ⟨hlater, hrest⟩) hbound.2
          (hstep.start_le (hstart.trans hnow)))
      | tick locked a => cases htime
      | network reads t => cases htime
      | event o => cases htime

end

/-- **The password cannot be tried fast.** In any run from boot, over a stretch of less than `n` minutes,
at most `5 (n + 1)` wrong passwords are looked at, and five more for each login that succeeded in the
stretch. -/
theorem guesses_bounded (l : Library) (store : Store) (light : Light) (net : Network.State)
    (before stretch : List Input) (since n : Nat) (hclock : Clocked (before ++ stretch))
    (hbefore : ∀ t ∈ times before, t ≤ since)
    (hstretch : ∀ t ∈ times stretch, since ≤ t ∧ t < since + n * 60000) :
    let s := run l before { store, light, net }
    count .spend (moves l stretch s) ≤ 5 * (n + 1 + count .clear (moves l stretch s)) := by
  intro s
  have htimes : times (before ++ stretch) = times before ++ times stretch := List.filterMap_append
  obtain ⟨hsorted, hbound⟩ := hclock
  rw [htimes] at hsorted hbound
  obtain ⟨hfirst, hrest, -⟩ := List.pairwise_append.1 hsorted
  -- The run before the stretch leaves the counter with a window that has begun.
  have hrun := run_moves (l := l) (s := { store, light, net })
    (List.pairwise_cons.2 ⟨fun t _ => Nat.zero_le t, hfirst⟩)
    (fun t ht => hbound t (List.mem_append_left _ ht)) (Nat.le_refl 0)
  have hstart : s.counter.start ≤ since := by
    have hmoves : (0 :: (moves l before { store, light, net }).map Prod.fst).Pairwise (· ≤ ·) := by
      rw [moves_times]
      exact List.pairwise_cons.2 ⟨fun t _ => Nat.zero_le t, hfirst⟩
    refine hrun.start_le hmoves (Nat.le_refl 0) (Nat.zero_le _) ?_
    rw [moves_times]
    exact hbefore
  have hspent : s.counter.spent ≤ 5 := hrun.limit_le (Nat.zero_le 5)
  have hthen : Window.Run 60000 5 s.counter (moves l stretch s) _ := run_moves
    (List.pairwise_cons.2 ⟨fun t ht => (hstretch t ht).1, hrest⟩)
    (fun t ht => hbound t (List.mem_append_right _ ht)) hstart
  refine hthen.spent_le ?_ hspent hstart ?_
  · rw [moves_times]
    exact hrest
  · rw [moves_times]
    exact hstretch

/-- Five attempts at the end of a minute and five at the start of the next come through. -/
theorem guesses_bounded_edge :
    let guess := sampleLogin "open sesame"
    let stretch := List.replicate 6 (guess 59999) ++ List.replicate 6 (guess 60000)
    count .spend (moves sampleLibrary stretch {}) = 10 ∧
      count .spend (moves sampleLibrary stretch {}) ≤ 5 * (1 + 1) := by
  intro guess stretch
  have htimes : times stretch = List.replicate 6 59999 ++ List.replicate 6 60000 := rfl
  have hclock : Clocked ([] ++ stretch) := by
    unfold Clocked
    rw [List.nil_append, htimes]
    decide
  have hbound := guesses_bounded sampleLibrary {} {} {} [] stretch 59999 1 hclock (by decide)
    (by rw [htimes]; decide)
  have hclear : count .clear (moves sampleLibrary stretch {}) = 0 := by decide +kernel
  have hrun : run sampleLibrary [] {} = {} := rfl
  dsimp only at hbound
  rw [hrun, hclear] at hbound
  exact ⟨by decide +kernel, hbound⟩

end EspCfTunnel.Api
