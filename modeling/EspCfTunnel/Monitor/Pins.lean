import EspCfTunnel.Monitor.Session

/-!
# Who switches a pin

The GPIO driver is called for the four pins that are led out, when someone with a session asks for it, and
a pin becomes an output only once its level is set. The values of the light are those that the driver
took last.
-/

namespace EspCfTunnel.Api

open EspCfTunnel StateLogic History Config Monitor

/-- The body asks for this call of the GPIO driver. -/
def AsksFor (c : PinCall) (j : Json) : Prop :=
  ∃ pin mode value, intOf j "pin" = some pin ∧ intOf j "mode" = some mode ∧
    intOf j "value" = some value ∧ (c = .level pin value ∨ c = .config pin mode)

/-- The light shows values that its driver can take. -/
def LightInv (l : Light) : Prop :=
  l.state.red ≤ 255 ∧ l.state.green ≤ 255 ∧ l.state.blue ≤ 255 ∧ l.state.brightness ≤ 100

theorem LightInv.ledSet {light : Light} (h : LightInv light) (shown on : Bool)
    (red green blue brightness : Nat) : LightInv (ledSet shown on red green blue brightness light).2 := by
  unfold Monitor.ledSet
  split
  · exact h
  split
  · exact h
  split
  · next hrange _ =>
    dsimp only [LightInv]
    omega
  · exact h

section
variable {l : Library} {s s₀ : State} {is : List Input}

/-- What one input does to the pins and the light. -/
theorem step_board (l : Library) (i : Input) (s : State) :
    ((step l i s).pins = s.pins ∨ ∃ r a j pin mode value, i = .request r a ∧ Authorised r a.now s ∧
      r.path = text "/api/gpio" ∧ bodyOf a r = some j ∧ intOf j "pin" = some pin ∧
      intOf j "mode" = some mode ∧ intOf j "value" = some value ∧
      (step l i s).pins = (ioSet a.pins pin mode value s.pins).2) ∧
    ((step l i s).light = s.light ∨ ∃ shown on red green blue brightness,
      (step l i s).light = (ledSet shown on red green blue brightness s.light).2) := by
  cases i with
  | request r a =>
    have hpins : (step l (.request r a) s).pins = (dispatch l a r s).2.pins ∧
        (step l (.request r a) s).light = (dispatch l a r s).2.light := by
      rw [step, serve_eq]
      dsimp only
      split <;> exact ⟨rfl, rfl⟩
    rw [hpins.1, hpins.2]
    have hchange := dispatch_change l a r s
    generalize (dispatch l a r s).2 = s', (dispatch l a r s).1.effects = e at hchange ⊢
    cases hchange with
    | operation post authorised body op =>
      cases op with
      | pins path asked =>
        exact ⟨.inr ⟨r, a, _, _, _, _, rfl, authorised, path, body, asked.1, asked.2.1, asked.2.2, rfl⟩,
          .inl rfl⟩
      | light path => exact ⟨.inl rfl, .inr ⟨_, _, _, _, _, _, rfl⟩⟩
      | tunnel => exact ⟨.inl rfl, .inl rfl⟩
      | _ => exact ⟨.inl rfl, .inl rfl⟩
    | _ => exact ⟨.inl rfl, .inl rfl⟩
  | tick locked a =>
    cases locked with
    | false => exact ⟨.inl rfl, .inl rfl⟩
    | true =>
      rw [step, tick_eq]
      split <;> exact ⟨.inl rfl, .inl rfl⟩
  | network reads t => exact ⟨.inl rfl, .inl rfl⟩
  | event o => exact ⟨.inl rfl, .inl rfl⟩

theorem run_board (hboot : s₀.session = []) (hpins : s₀.pins = {}) (hlight : LightInv s₀.light) :
    (run l is s₀).pins.Inv ∧ LightInv (run l is s₀).light ∧
      ∀ c ∈ (run l is s₀).pins.log, Requested l is s₀ "/api/gpio" (AsksFor c) := by
  induction is using List.reverseRecOn with
  | nil =>
    show s₀.pins.Inv ∧ LightInv s₀.light ∧ ∀ c ∈ s₀.pins.log, _
    rw [hpins]
    exact ⟨Pins.init_inv, hlight, nofun⟩
  | append_singleton is i ih =>
    obtain ⟨hinv, hshown, hasked⟩ := ih
    have hrun : run l (is ++ [i]) s₀ = step l i (run l is s₀) := Past.run_concat _ _ _ _
    obtain ⟨hpins, hlights⟩ := step_board l i (run l is s₀)
    rw [hrun]
    have hlight : LightInv (step l i (run l is s₀)).light := by
      rcases hlights with heq | ⟨shown, on, red, green, blue, brightness, heq⟩
      · rw [heq]
        exact hshown
      · rw [heq]
        exact hshown.ledSet shown on red green blue brightness
    rcases hpins with heq | ⟨r, a, j, pin, mode, value, rfl, hauth, hpath, hbody, hpin, hmode, hvalue, heq⟩
    · rw [heq]
      exact ⟨hinv, hlight, fun c hc => (hasked c hc).concat i⟩
    · rw [heq]
      refine ⟨hinv.ioSet, hlight, fun c hc => ?_⟩
      have hnew (h : c = .level pin value ∨ c = .config pin mode) :
          Requested l (is ++ [.request r a]) s₀ "/api/gpio" (AsksFor c) :=
        .last hboot hauth hpath hbody ⟨pin, mode, value, hpin, hmode, hvalue, h⟩
      rcases ioSet_calls hc with hc | hc
      · exact (hasked c hc).concat _
      · exact hnew hc

end

/-- **Pins are switched on request.** After any run from boot, every call of the GPIO driver was asked for
by a request with a live session and is for one of the four pins that are led out; a pin was made an output
only right after its level was set; and the light has values in range. -/
theorem pins_confined (l : Library) (store : Store) (net : Network.State) (made cleared : Bool)
    (is : List Input) :
    let s₀ : State := { store, light := ledInit made cleared {}, net }
    let s := run l is s₀
    (∀ later c before, s.pins.log = later ++ c :: before → PinRule before c ∧
      Requested l is s₀ "/api/gpio" (AsksFor c)) ∧
    s.pins.table.map Gpio.pin = exposed ∧ LightInv s.light := by
  intro s₀ s
  have hinit : LightInv s₀.light := by
    show LightInv (ledInit made cleared {})
    unfold ledInit
    split <;> simp [LightInv]
  have hboot : s₀.session = [] := rfl
  obtain ⟨hinv, hlight, hasked⟩ := run_board (l := l) hboot rfl hinit
  refine ⟨fun later c before hlog => ⟨?_, hasked c ?_⟩, hinv.pins, hlight⟩
  · have hcalls : Lawful PinRule s.pins.log := hinv.calls
    rw [hlog] at hcalls
    exact hcalls.split
  · show c ∈ s.pins.log
    rw [hlog]
    exact List.mem_append_right _ List.mem_cons_self

/-- Pin 4 is made a high output. -/
def sampleOutput : List Input :=
  [sampleLogin "correct horse battery" 0,
    sampleCall "/api/gpio" 10 [numberMember "pin" 4, numberMember "mode" 2, numberMember "value" 1]]

theorem pins_confined_output :
    (run sampleLibrary sampleOutput
      { store := sampleStore, light := ledInit true true {}, net := {} }).pins.log =
        [.config 4 2, .level 4 1] ∧
      PinRule [.level 4 1] (.config 4 2) ∧ Requested sampleLibrary sampleOutput
        { store := sampleStore, light := ledInit true true {}, net := {} } "/api/gpio"
        (AsksFor (.config 4 2)) := by
  have hlog : (run sampleLibrary sampleOutput
      { store := sampleStore, light := ledInit true true {}, net := {} }).pins.log =
        [.config 4 2, .level 4 1] := by decide +kernel
  exact ⟨hlog, (pins_confined sampleLibrary sampleStore {} true true sampleOutput).1 [] _ _ hlog⟩

end EspCfTunnel.Api
