import EspCfTunnel.Core
import EspCfTunnel.Lib.History
import Mathlib.Tactic.Common

/-!
# The pins and the light of the monitor

`monitor_io.c` and `monitor_led.c`: four pins that may be switched over the API, and one RGB light.
The log says how the GPIO driver was called, newest first.
-/

namespace EspCfTunnel.Monitor

open History

/-- `monitor_gpio` -/
structure Gpio where
  pin : Int
  mode : Int
  level : Int
  deriving DecidableEq, Repr

/-- How a pin was set up. -/
inductive PinCall
  | level (pin value : Int)
  | config (pin mode : Int)
  deriving DecidableEq, Repr

structure Pins where
  table : List Gpio := [⟨4, 0, -1⟩, ⟨5, 0, -1⟩, ⟨6, 0, -1⟩, ⟨7, 0, -1⟩]
  log : List PinCall := []
  deriving DecidableEq, Repr

/-- What the GPIO driver answers: whether a level and a direction can be set, and the level of a
pin. -/
structure PinAnswers where
  levelSet : Bool := true
  configured : Bool := true
  read : Int → Int := fun _ => 0

/-- `monitor_io_snapshot` -/
def ioSnapshot (a : PinAnswers) (p : Pins) : List Gpio :=
  p.table.map fun g => if g.mode ≠ 0 then { g with level := a.read g.pin } else g

/-- `monitor_io_set` -/
def ioSet (a : PinAnswers) (pin mode value : Int) (p : Pins) : Bool × Pins :=
  if mode < 0 ∨ mode > 2 ∨ (value ≠ 0 ∧ value ≠ 1) then (false, p)
  else if p.table.all (·.pin ≠ pin) then (false, p)
  else
    let p := if mode = 2 then { p with log := .level pin value :: p.log } else p
    if mode = 2 ∧ !a.levelSet then (false, p)
    else
      let p := { p with log := .config pin mode :: p.log }
      if !a.configured then (false, p)
      else
        let set (g : Gpio) : Gpio :=
          if g.pin = pin then ⟨g.pin, mode, if mode ≠ 0 then a.read pin else -1⟩ else g
        (true, { p with table := p.table.map set })

/-- `monitor_rgb` -/
structure Rgb where
  available : Bool := false
  on : Bool := false
  red : Nat := 0
  green : Nat := 128
  blue : Nat := 255
  brightness : Nat := 20
  deriving DecidableEq, Repr

/-- The light: whether `led` is there, and `state`. -/
structure Light where
  led : Bool := false
  state : Rgb := {}
  deriving DecidableEq, Repr

/-- `monitor_led_init`; `made` and `cleared` are what the driver answers. -/
def ledInit (made cleared : Bool) (l : Light) : Light :=
  if made ∧ cleared then ⟨true, { l.state with available := true }⟩ else { l with led := false }

/-- `monitor_led_set`; `shown` says whether the driver takes the pixel and the refresh. -/
def ledSet (shown on : Bool) (red green blue brightness : Nat) (l : Light) : Bool × Light :=
  if !l.led then (false, l)
  else if red > 255 ∨ green > 255 ∨ blue > 255 ∨ brightness > 100 then (false, l)
  else if shown then (true, { l with state := ⟨true, on, red, green, blue, brightness⟩ })
  else (false, l)

/-! ## What the driver is called for -/

/-- The pins that the monitor may touch. -/
def exposed : List Int := [4, 5, 6, 7]

/-- A call of the driver after those before it: a pin becomes an output right after its level was set. -/
def PinRule (before : List PinCall) : PinCall → Prop
  | .level pin value => pin ∈ exposed ∧ (value = 0 ∨ value = 1)
  | .config pin mode => pin ∈ exposed ∧ 0 ≤ mode ∧ mode ≤ 2 ∧
    (mode = 2 → ∃ value earlier, before = .level pin value :: earlier)

/-- The table lists the four pins with their modes, and the calls of the driver keep the rule. -/
structure Pins.Inv (p : Pins) : Prop where
  pins : p.table.map Gpio.pin = exposed
  modes : ∀ g ∈ p.table, 0 ≤ g.mode ∧ g.mode ≤ 2 ∧ (g.mode = 0 → g.level = -1)
  calls : Lawful PinRule p.log

theorem Pins.init_inv : Pins.Inv {} := ⟨rfl, by decide, trivial⟩

section
variable {a : PinAnswers} {pin mode value : Int} {p : Pins}

/-- What a request for a pin does: nothing, or one or two calls of the driver, and the table follows the
last of them. -/
theorem ioSet_cases (a : PinAnswers) (pin mode value : Int) (p : Pins) :
    (ioSet a pin mode value p).2 = p ∨
    ((0 ≤ mode ∧ mode ≤ 2) ∧ (value = 0 ∨ value = 1) ∧ (∃ g ∈ p.table, g.pin = pin) ∧
      ∃ log, (log = p.log ∧ mode ≠ 2 ∨ log = .level pin value :: p.log ∧ mode = 2) ∧
        ((ioSet a pin mode value p).2 = { p with log := log } ∨
          (ioSet a pin mode value p).2 = { p with log := .config pin mode :: log } ∨
          (ioSet a pin mode value p).2 = {
            table := p.table.map fun g =>
              if g.pin = pin then ⟨g.pin, mode, if mode ≠ 0 then a.read pin else -1⟩ else g
            log := .config pin mode :: log })) := by
  unfold ioSet
  split
  · exact .inl rfl
  next hargs =>
  split
  · exact .inl rfl
  next hpin =>
  have hmode : 0 ≤ mode ∧ mode ≤ 2 := by omega
  have hvalue : value = 0 ∨ value = 1 := by omega
  have hlisted : ∃ g ∈ p.table, g.pin = pin := by simpa using hpin
  refine .inr ⟨hmode, hvalue, hlisted, ?_⟩
  by_cases houtput : mode = 2
  · refine ⟨_, .inr ⟨rfl, houtput⟩, ?_⟩
    rw [if_pos houtput]
    dsimp only
    split
    · exact .inl rfl
    split
    · exact .inr (.inl rfl)
    · exact .inr (.inr rfl)
  · refine ⟨_, .inl ⟨rfl, houtput⟩, ?_⟩
    rw [if_neg houtput]
    dsimp only
    split
    · exact .inl rfl
    split
    · exact .inr (.inl rfl)
    · exact .inr (.inr rfl)

/-- A request for a pin keeps the invariant. -/
theorem Pins.Inv.ioSet (h : p.Inv) : (ioSet a pin mode value p).2.Inv := by
  rcases ioSet_cases a pin mode value p with heq | ⟨hmode, hvalue, ⟨g, hg, rfl⟩, log, hlog, hcases⟩
  · rw [heq]
    exact h
  have hexposed : g.pin ∈ exposed := by
    rw [← h.pins]
    exact List.mem_map_of_mem hg
  have hlawful : Lawful PinRule log := by
    rcases hlog with ⟨rfl, -⟩ | ⟨rfl, -⟩
    · exact h.calls
    · exact ⟨⟨hexposed, hvalue⟩, h.calls⟩
  have hconfig : PinRule log (.config g.pin mode) := by
    refine ⟨hexposed, hmode.1, hmode.2, fun houtput => ?_⟩
    rcases hlog with ⟨-, hno⟩ | ⟨rfl, -⟩
    · exact absurd houtput hno
    · exact ⟨value, p.log, rfl⟩
  rcases hcases with heq | heq | heq
  · rw [heq]
    exact ⟨h.pins, h.modes, hlawful⟩
  · rw [heq]
    exact ⟨h.pins, h.modes, hconfig, hlawful⟩
  · rw [heq]
    refine ⟨?_, ?_, hconfig, hlawful⟩
    · rw [List.map_map, ← h.pins]
      refine List.map_congr_left fun g' _ => ?_
      dsimp only [Function.comp]
      split <;> rfl
    · intro g' hg'
      obtain ⟨g'', hg'', rfl⟩ := List.mem_map.1 hg'
      split
      · refine ⟨hmode.1, hmode.2, fun hzero => ?_⟩
        dsimp only at hzero ⊢
        rw [if_neg (not_not.2 hzero)]
      · exact h.modes g'' hg''

/-- The calls of a request are for its pin. -/
theorem ioSet_calls {c : PinCall} (hc : c ∈ (ioSet a pin mode value p).2.log) :
    c ∈ p.log ∨ c = .level pin value ∨ c = .config pin mode := by
  rcases ioSet_cases a pin mode value p with heq | ⟨-, -, -, log, hlog, hcases⟩
  · rw [heq] at hc
    exact .inl hc
  have hold : c ∈ log → c ∈ p.log ∨ c = .level pin value := by
    rcases hlog with ⟨rfl, -⟩ | ⟨rfl, -⟩
    · exact .inl
    · intro hmem
      exact (List.mem_cons.1 hmem).symm
  have hnew : c ∈ PinCall.config pin mode :: log → c ∈ p.log ∨ c = .level pin value ∨ c = .config pin mode := by
    intro hmem
    rcases List.mem_cons.1 hmem with rfl | hmem
    · exact .inr (.inr rfl)
    · exact (hold hmem).imp_right .inl
  rcases hcases with heq | heq | heq
  · rw [heq] at hc
    exact (hold hc).imp_right .inl
  · rw [heq] at hc
    exact hnew hc
  · rw [heq] at hc
    exact hnew hc

end

end EspCfTunnel.Monitor
