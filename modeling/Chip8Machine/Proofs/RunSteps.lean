import Chip8Machine.Proofs.KeyHistory
import Chip8Machine.Proofs.LoopSteps
import Chip8Machine.Proofs.Turns

/-!
What one step of an attended run can do, and what a run among others has seen of a stop request.

A step is one of the loop, or one of whoever attends it. Past its look for a stop request a turn
comes to its cycle in at most two steps, and others may request a stop behind the loop's back
meanwhile. A wait finds every request: the others have only gestures to reach the keypad, so a wait
that ends without a key has been stopped.
-/

set_option autoImplicit false

namespace Chip8Machine

namespace Keypad

/-- Whoever counts a press also recalls the key. -/
theorem last_ne_none_of_gestures {keypad : Keypad} {seen : UInt64}
    (recalls : keypad.presses ≠ seen → keypad.last ≠ none) (gestures : List Gesture)
    (changed : (gestures.foldl handle keypad).presses ≠ seen) :
    (gestures.foldl handle keypad).last ≠ none := by
  rw [presses_after_gestures] at changed
  rw [last_after_gestures]
  cases latest : (gestures.filterMap Gesture.key?).getLast? with
  | some key => exact Option.some_ne_none key
  | none =>
      rw [List.getLast?_eq_none_iff.mp latest] at changed
      rw [Option.none_or]
      refine recalls (fun same => changed ?_)
      rw [← same]
      exact UInt64.add_zero keypad.presses

theorem stopRequested_of_poll {keypad : Keypad} {seen : UInt64}
    (recalls : keypad.presses ≠ seen → keypad.last ≠ none)
    (stopped : keypad.poll seen = .ended none) : keypad.stopRequested = true := by
  cases stop : keypad.stopRequested with
  | true => rfl
  | false =>
      unfold poll at stopped
      rw [if_neg (by rw [stop]; decide)] at stopped
      split at stopped
      · rename_i changed
        injection stopped with none
        exact absurd none (recalls changed)
      · cases stopped

end Keypad

theorem Phase.ofWait_cases (register : Register) (seen : UInt64) (wait : Wait) :
    ofWait register seen wait = .sleep register seen ∨
      (∃ key, ofWait register seen wait = .receive register key) ∨
      wait = .ended none ∧ ofWait register seen wait = .ended (.halted .requested) := by
  cases wait with
  | pending => exact .inl rfl
  | ended key =>
      cases key with
      | none => exact .inr (.inr ⟨rfl, rfl⟩)
      | some key => exact .inr (.inl ⟨key, rfl⟩)

theorem Phase.halted_of_ofWait {register : Register} {seen : UInt64} {wait : Wait} {halt : Halt}
    (halted : ofWait register seen wait = .ended (.halted halt)) :
    halt = .requested ∧ wait = .ended none := by
  rcases ofWait_cases register seen wait with same | ⟨key, same⟩ | ⟨stopped, same⟩
  · cases same.symm.trans halted
  · cases same.symm.trans halted
  · cases same.symm.trans halted
    exact ⟨rfl, stopped⟩

theorem Phase.ofWait_ne_check (register : Register) (seen : UInt64) (wait : Wait) :
    ofWait register seen wait ≠ .checkCounter ∧ ofWait register seen wait ≠ .cycle := by
  rcases ofWait_cases register seen wait with same | ⟨key, same⟩ | ⟨_, same⟩
  all_goals
    rw [same]
    exact ⟨Phase.noConfusion, Phase.noConfusion⟩

theorem Phase.seen_of_ofWait {register awaited : Register} {seen begun : UInt64} {wait : Wait}
    (sleeps : ofWait awaited begun wait = .sleep register seen) :
    register = awaited ∧ seen = begun := by
  rcases ofWait_cases awaited begun wait with same | ⟨key, same⟩ | ⟨_, same⟩
  · cases same.symm.trans sleeps
    exact ⟨rfl, rfl⟩
  · cases same.symm.trans sleeps
  · cases same.symm.trans sleeps

namespace AttendedRun

variable {surroundings : Surroundings} {others : Nat → Peripherals → Peripherals}

/-! ### One step -/

inductive Moves (surroundings : Surroundings) : AttendedRun → AttendedRun → Prop
  | loop {phase next : Phase} {machine after : Machine} (answers left : List Answer)
      (step : Phase.Step surroundings machine phase next after) :
      Moves surroundings ⟨phase, machine, answers⟩ ⟨next, after, left⟩
  | begin (register : Register) (machine : Machine) (peripherals : Peripherals)
      (answers left : List Answer) :
      Moves surroundings ⟨.enterWait register, machine, answers⟩
        ⟨.ofWait register peripherals.keypad.presses
          (peripherals.keypad.poll peripherals.keypad.presses),
          machine.withPeripherals peripherals, left⟩
  | interrupt (register : Register) (machine : Machine) (peripherals : Peripherals) (text : String)
      (answers left : List Answer) :
      Moves surroundings ⟨.enterWait register, machine, answers⟩
        ⟨.ended (.raised text), machine.withPeripherals peripherals, left⟩
  | answer (register : Register) (seen : UInt64) (machine : Machine) (gesture : Gesture)
      (answers : List Answer) :
      Moves surroundings ⟨.sleep register seen, machine, answers⟩
        ⟨.sleep register seen, machine.handle gesture, answers⟩

theorem leaveWait_eq (run : AttendedRun) :
    ∃ left, run.leaveWait = ⟨run.phase, run.machine, left⟩ := by
  unfold leaveWait
  split
  · exact ⟨run.answers, rfl⟩
  · exact ⟨run.answers.tail, rfl⟩

theorem moves_of_running (surroundings : Surroundings) {run : AttendedRun}
    (running : ∀ ending, run.phase ≠ .ended ending) :
    Moves surroundings run (run.advance surroundings) := by
  obtain ⟨phase, machine, answers⟩ := run
  have step := Phase.step_of_running surroundings machine running
  cases phase with
  | enterWait register =>
      cases reacted : machine.toPeripherals.react surroundings.tone
        (answers.head?.getD {}).before with
      | mk peripherals raised =>
        cases raised with
        | some text =>
            rw [advance_enterWait_raised surroundings register reacted]
            exact .interrupt register machine peripherals text answers answers.tail
        | none =>
            rw [advance_enterWait surroundings register reacted rfl]
            obtain ⟨left, leaves⟩ := leaveWait_eq ⟨_, machine.withPeripherals peripherals, answers⟩
            rw [leaves]
            exact .begin register machine peripherals answers left
  | sleep register seen =>
      simp only [advance]
      split
      · exact .answer register seen machine _ answers
      · obtain ⟨left, leaves⟩ :=
          leaveWait_eq (advanceAlone ⟨.sleep register seen, machine, answers⟩ surroundings)
        rw [leaves]
        exact .loop answers left step
  | _ => exact .loop answers answers step

theorem Moves.of_checkCounter {run after : AttendedRun} (moves : Moves surroundings run after)
    (reached : after.phase = .checkCounter) :
    run.phase = .checkStop ∧ run.machine.keypad.stopRequested = false ∧
      after.machine = run.machine := by
  cases moves with
  | loop answers left step =>
      cases step with
      | proceed noStop => exact ⟨rfl, noStop, rfl⟩
      | begin | look => exact absurd reached (Phase.ofWait_ne_check _ _ _).1
      | _ => cases reached
  | begin => exact absurd reached (Phase.ofWait_ne_check _ _ _).1
  | interrupt | answer => cases reached

theorem Moves.of_cycle {run after : AttendedRun} (moves : Moves surroundings run after)
    (reached : after.phase = .cycle) :
    run.phase = .checkCounter ∧ after.machine.registers.counter + 1 < Layout.memorySize ∧
      after.machine = run.machine := by
  cases moves with
  | loop answers left step =>
      cases step with
      | inside inside => exact ⟨rfl, inside, rfl⟩
      | begin | look => exact absurd reached (Phase.ofWait_ne_check _ _ _).2
      | _ => cases reached
  | begin => exact absurd reached (Phase.ofWait_ne_check _ _ _).2
  | interrupt | answer => cases reached

/-! ### The last look for a stop request -/

/-- The last look for a stop request at the top of a turn, up to the step with the given number. -/
structure LastCheck (found : Nat → AttendedRun) (checked step : Nat) : Prop where
  earlier : checked < step
  looks : (found checked).phase = .checkStop
  unrequested : (found checked).machine.keypad.stopRequested = false
  last : ∀ later, checked < later → later ≤ step → (found later).phase ≠ .checkStop

def NoRequest (others : Nat → Peripherals → Peripherals) (checked step : Nat) : Prop :=
  ∀ later, checked < later → later ≤ step → ∀ peripherals,
    peripherals.keypad.stopRequested = false →
      (others later peripherals).keypad.stopRequested = false

section Amid

variable {run : AttendedRun} {step : Nat}

theorem moves_amid
    (running : ∀ ending, (amid surroundings others run (step + 1)).phase ≠ .ended ending) :
    Moves surroundings (amid surroundings others run step)
      ((amid surroundings others run step).advance surroundings) := by
  refine moves_of_running surroundings (fun ending ended => running ending ?_)
  change ((amid surroundings others run step).advance surroundings).phase = .ended ending
  rw [advance_of_ended surroundings ended]
  exact ended

/-- What others keep, and every step keeps, holds as long as the run is among them. -/
theorem invariant_of_amid (Holds : AttendedRun → Prop)
    (disturbed : ∀ step run, Holds run → Holds (run.disturb (others step)))
    (moved : ∀ run after, Holds run → Moves surroundings run after → Holds after)
    (holds : Holds run) (step : Nat) : Holds (amid surroundings others run step) := by
  induction step with
  | zero => exact disturbed 0 run holds
  | succ step ih =>
      refine disturbed (step + 1) _ ?_
      by_cases finished : ∃ ending, (amid surroundings others run step).phase = .ended ending
      · obtain ⟨ending, ended⟩ := finished
        rw [advance_of_ended surroundings ended]
        exact ih
      · have running := fun ending ended => finished ⟨ending, ended⟩
        exact moved _ _ ih (moves_of_running surroundings running)

theorem amid_of_checkCounter (begins : run.phase = .checkStop)
    (reached : (amid surroundings others run step).phase = .checkCounter) :
    ∃ checked, step = checked + 1 ∧ (amid surroundings others run checked).phase = .checkStop ∧
      (amid surroundings others run checked).machine.keypad.stopRequested = false ∧
      (amid surroundings others run step).machine.toPeripherals =
        others step (amid surroundings others run checked).machine.toPeripherals := by
  cases step with
  | zero => cases begins.symm.trans reached
  | succ checked =>
      have moves : Moves surroundings (amid surroundings others run checked) _ :=
        moves_amid (fun ending ended => by cases reached.symm.trans ended)
      obtain ⟨looks, noStop, same⟩ := moves.of_checkCounter reached
      refine ⟨checked, rfl, looks, noStop, ?_⟩
      rw [← same]
      rfl

theorem amid_of_cycle (begins : run.phase = .checkStop)
    (reached : (amid surroundings others run step).phase = .cycle) :
    ∃ before, step = before + 1 ∧ (amid surroundings others run before).phase = .checkCounter ∧
      (amid surroundings others run step).machine.registers.counter + 1 < Layout.memorySize ∧
      (amid surroundings others run step).machine.toPeripherals =
        others step (amid surroundings others run before).machine.toPeripherals := by
  cases step with
  | zero => cases begins.symm.trans reached
  | succ before =>
      have moves : Moves surroundings (amid surroundings others run before) _ :=
        moves_amid (fun ending ended => by cases reached.symm.trans ended)
      obtain ⟨counts, inside, same⟩ := moves.of_cycle reached
      refine ⟨before, rfl, counts, inside, ?_⟩
      rw [← same]
      rfl

/-- A turn that is past its look for a stop request has found none, and knows of none unless the
others have requested a stop since. -/
theorem exists_lastCheck (begins : run.phase = .checkStop)
    (past : (amid surroundings others run step).phase = .checkCounter ∨
      (amid surroundings others run step).phase = .cycle) :
    ∃ checked, LastCheck (amid surroundings others run) checked step ∧
      (NoRequest others checked step →
        (amid surroundings others run step).machine.keypad.stopRequested = false) := by
  rcases past with counts | cycles
  · obtain ⟨checked, rfl, looks, noStop, same⟩ := amid_of_checkCounter begins counts
    refine ⟨checked, ⟨Nat.lt_succ_self _, looks, noStop, ?_⟩, ?_⟩
    · intro later behind upTo looksAgain
      cases Nat.le_antisymm upTo behind
      cases counts.symm.trans looksAgain
    · intro unrequested
      rw [same]
      exact unrequested _ (Nat.lt_succ_self _) (Nat.le_refl _) _ noStop
  · obtain ⟨before, rfl, counts, _, sameCycle⟩ := amid_of_cycle begins cycles
    obtain ⟨checked, rfl, looks, noStop, same⟩ := amid_of_checkCounter begins counts
    refine ⟨checked, ⟨by omega, looks, noStop, ?_⟩, ?_⟩
    · intro later behind upTo looksAgain
      have either : later = checked + 1 ∨ later = checked + 1 + 1 := by omega
      rcases either with rfl | rfl
      · cases counts.symm.trans looksAgain
      · cases cycles.symm.trans looksAgain
    · intro unrequested
      rw [sameCycle]
      refine unrequested _ (by omega) (Nat.le_refl _) _ ?_
      rw [same]
      exact unrequested _ (Nat.lt_succ_self _) (by omega) _ noStop

/-! ### Waits -/

def ByGestures (others : Nat → Peripherals → Peripherals) : Prop :=
  ∀ step peripherals, ∃ gestures : List Gesture,
    (others step peripherals).keypad = gestures.foldl Keypad.handle peripherals.keypad

def Recalls (run : AttendedRun) : Prop :=
  ∀ register seen, run.phase = .sleep register seen →
    run.machine.keypad.presses ≠ seen → run.machine.keypad.last ≠ none

theorem Moves.recalls {after : AttendedRun} (moves : Moves surroundings run after)
    (recalls : run.Recalls) : after.Recalls := by
  intro register seen sleeps changed
  cases moves with
  | loop answers left step =>
      cases step with
      | begin =>
          obtain ⟨rfl, rfl⟩ := Phase.seen_of_ofWait sleeps
          exact absurd rfl changed
      | look =>
          obtain ⟨rfl, rfl⟩ := Phase.seen_of_ofWait sleeps
          exact recalls _ _ rfl changed
      | _ => cases sleeps
  | begin =>
      obtain ⟨rfl, rfl⟩ := Phase.seen_of_ofWait sleeps
      exact absurd rfl changed
  | interrupt => cases sleeps
  | answer awaited seen machine gesture =>
      cases sleeps
      exact Keypad.last_ne_none_of_gestures (recalls _ _ rfl) [gesture] changed

theorem recalls_amid (byGestures : ByGestures others) (begins : run.phase = .checkStop)
    (step : Nat) :
    (amid surroundings others run step).Recalls := by
  refine invariant_of_amid Recalls ?_ (fun _ _ recalls moves => moves.recalls recalls) ?_ step
  · intro number reached recalls register seen sleeps changed
    obtain ⟨gestures, same⟩ := byGestures number reached.machine.toPeripherals
    change (others number reached.machine.toPeripherals).keypad.presses ≠ seen at changed
    change (others number reached.machine.toPeripherals).keypad.last ≠ none
    rw [same] at changed ⊢
    exact Keypad.last_ne_none_of_gestures (recalls register seen sleeps) gestures changed
  · intro register seen sleeps
    cases begins.symm.trans sleeps

end Amid

end AttendedRun

end Chip8Machine
