import Chip8Machine.Proofs.Footprint
import Chip8Machine.Proofs.LoopSteps
import Chip8Machine.Proofs.Turns

/-!
Programs that run straight on come to the end of memory.

A word that neither jumps nor asks for a key moves the counter on by one word or by two, whoever has
written it and whenever. So the distance to the end of memory bounds the cycles. Others may reach
the peripherals before every step of the loop; the counter and memory are out of their reach.
-/

set_option autoImplicit false

namespace Chip8Machine

def Word.Straight (word : Word) : Prop :=
  ¬ word.Jumps ∧ ¬ (word.lead = 0xF ∧ word.kk.toNat = 0x0A)

inductive Ending.OfStraight (start : Nat) : Ending → Prop
  | outOfBounds (address : Nat) :
      OfStraight start (.halted (.fault (.memory (.outOfBounds address Layout.memorySize))))
  | outOfRange {counter : Nat} (outside : 4095 ≤ counter) (near : counter ≤ 4098)
      (parity : counter % 2 = start % 2) : OfStraight start (.halted (.counterOutOfRange counter))

namespace AttendedRun

/-- The cycles among the first steps, those that fail included. -/
def cyclesAmid (surroundings : Surroundings) (others : Nat → Peripherals → Peripherals)
    (run : AttendedRun) : Nat → Nat
  | 0 => 0
  | step + 1 =>
      cyclesAmid surroundings others run step +
        if (run.amid surroundings others step).phase = .cycle then 1 else 0

def Straight (run : AttendedRun) : Prop :=
  run.phase = .cycle → ∀ word,
    run.machine.memory.fetch run.machine.registers.counter = .ok word → word.Straight

def Unstopped (run : AttendedRun) : Prop :=
  run.phase = .checkStop → run.machine.keypad.stopRequested = false

end AttendedRun

/-! ### One cycle -/

namespace Machine

variable {machine after : Machine} {surroundings : Surroundings}

theorem outOfBounds_of_straight {fault : Fault} (refuses : machine.CycleRefuses fault)
    (inside : machine.registers.counter + 1 < Layout.memorySize)
    (straight : ∀ word, machine.memory.fetch machine.registers.counter = .ok word → word.Straight) :
    ∃ address, fault = .memory (.outOfBounds address Layout.memorySize) := by
  rcases refuses with ⟨outside, _⟩ | ⟨word, fetched, refused⟩
  · omega
  · have noJump := (straight word fetched).1
    cases refused with
    | underflow isRet => exact absurd (Or.inl isRet) noJump
    | overflow isCall => exact absurd (Or.inr (Or.inr (Or.inl isCall))) noJump
    | draw | decimal | through => exact ⟨_, rfl⟩

theorem counter_of_straight {demand : Demand}
    (cycled : machine.next surroundings = (after, .done demand))
    (straight : ∀ word, machine.memory.fetch machine.registers.counter = .ok word → word.Straight) :
    after.registers.counter = machine.registers.counter + 2 ∨
      after.registers.counter = machine.registers.counter + 4 := by
  rcases machine.next_effect surroundings with
    ⟨fault, failed⟩ | ⟨word, executed, fetched, effect, sameCore⟩
  · rw [failed] at cycled
    cases cycled
  · have sameCounter : after.registers.counter = executed.registers.counter := by
      rw [cycled] at sameCore
      exact congrArg (fun core : Core => core.registers.counter) sameCore
    rw [sameCounter]
    rcases effect.moved with onward | ⟨_, skipped⟩ | isJump
    · exact Or.inl onward
    · exact Or.inr skipped
    · have jumps := Instruction.jumps_of_encodes (Instruction.encodes_decode word) isJump
      exact absurd jumps (straight word fetched).1

theorem no_wait_of_straight {register : Register}
    (straight : ∀ word, machine.memory.fetch machine.registers.counter = .ok word → word.Straight) :
    machine.next surroundings ≠ (after, .done (.awaitKey register)) := by
  intro cycled
  obtain ⟨_, word, fetched, isDevice, low, _⟩ := next_awaitKey cycled
  exact (straight word fetched).2 ⟨isDevice, low⟩

structure Onward (start cycles : Nat) (machine : Machine) : Prop where
  parity : machine.registers.counter % 2 = start % 2
  advanced : start + 2 * cycles ≤ machine.registers.counter
  near : machine.registers.counter ≤ Layout.memorySize + 2
  few : cycles ≤ (4094 - start) / 2 + 1

theorem Onward.withPeripherals {start cycles : Nat} (onward : machine.Onward start cycles)
    (peripherals : Peripherals) : (machine.withPeripherals peripherals).Onward start cycles :=
  ⟨onward.parity, onward.advanced, onward.near, onward.few⟩

theorem Onward.next {start cycles : Nat} (onward : machine.Onward start cycles)
    (inside : machine.registers.counter + 1 < Layout.memorySize)
    (moved : after.registers.counter = machine.registers.counter + 2 ∨
      after.registers.counter = machine.registers.counter + 4) :
    after.Onward start (cycles + 1) := by
  have size : Layout.memorySize = 4096 := rfl
  have ⟨parity, advanced, near, few⟩ := onward
  constructor
  · omega
  · omega
  · omega
  · omega

end Machine

/-! ### One step -/

namespace AttendedRun

inductive Along (calm : Prop) (start : Nat) (answers : List Answer) (steps cycles : Nat) :
    AttendedRun → Prop
  | checkStop {machine : Machine} (onward : machine.Onward start cycles)
      (taken : steps = 3 * cycles) :
      Along calm start answers steps cycles ⟨.checkStop, machine, answers⟩
  | checkCounter {machine : Machine} (onward : machine.Onward start cycles)
      (taken : steps = 3 * cycles + 1) :
      Along calm start answers steps cycles ⟨.checkCounter, machine, answers⟩
  | cycle {machine : Machine} (onward : machine.Onward start cycles)
      (inside : machine.registers.counter + 1 < Layout.memorySize)
      (taken : steps = 3 * cycles + 2) :
      Along calm start answers steps cycles ⟨.cycle, machine, answers⟩
  | ended {ending : Ending} {machine : Machine} (few : cycles ≤ (4094 - start) / 2 + 1)
      (ends : calm → ending.OfStraight start) :
      Along calm start answers steps cycles ⟨.ended ending, machine, answers⟩

variable {calm : Prop} {start steps cycles : Nat} {answers : List Answer} {run : AttendedRun}
  {surroundings : Surroundings}

theorem Along.disturb (along : Along calm start answers steps cycles run)
    (others : Peripherals → Peripherals) :
    Along calm start answers steps cycles (run.disturb others) := by
  cases along with
  | checkStop onward taken => exact .checkStop (onward.withPeripherals _) taken
  | checkCounter onward taken => exact .checkCounter (onward.withPeripherals _) taken
  | cycle onward inside taken => exact .cycle (onward.withPeripherals _) inside taken
  | ended few ends => exact .ended few ends

/-- As long as the loop does not wait, it is the only one to do a step. -/
theorem exists_step {phase : Phase}
    (alone : phase = .checkStop ∨ phase = .checkCounter ∨ phase = .cycle)
    (surroundings : Surroundings) (machine : Machine) (answers : List Answer) :
    ∃ next after,
      AttendedRun.advance ⟨phase, machine, answers⟩ surroundings = ⟨next, after, answers⟩ ∧
      Phase.Step surroundings machine phase next after := by
  rcases alone with rfl | rfl | rfl <;>
    exact ⟨_, _, rfl, Phase.step_of_running surroundings machine (fun _ same => by cases same)⟩

theorem Along.advance (along : Along calm start answers steps cycles run) (straight : run.Straight)
    (steady : calm → surroundings.Steady) (unstopped : calm → run.Unstopped) :
    Along calm start answers (steps + 1) (cycles + if run.phase = .cycle then 1 else 0)
      (run.advance surroundings) := by
  have size : Layout.memorySize = 4096 := rfl
  -- The loop is back at its first check three steps later, with one cycle more and the counter
  -- further on, or it has ended on the way.
  cases along with
  | ended few ends => exact .ended few ends
  | @checkStop machine onward taken =>
      obtain ⟨next, after, advanced, step⟩ := exists_step (Or.inl rfl) surroundings machine answers
      rw [advanced]
      cases step with
      | stop stop =>
          refine .ended onward.few ?_
          intro isCalm
          rw [unstopped isCalm rfl] at stop
          cases stop
      | proceed => exact .checkCounter onward (congrArg (· + 1) taken)
  | @checkCounter machine onward taken =>
      obtain ⟨next, after, advanced, step⟩ :=
        exists_step (Or.inr (Or.inl rfl)) surroundings machine answers
      rw [advanced]
      cases step with
      | inside inside => exact .cycle onward inside (congrArg (· + 1) taken)
      | outside outside =>
          have near := onward.near
          exact .ended onward.few (fun _ => .outOfRange (by omega) (by omega) onward.parity)
  | @cycle machine onward inside taken =>
      have wordStraight := straight rfl
      have few : cycles + 1 ≤ (4094 - start) / 2 + 1 := by
        have advanced := onward.advanced
        omega
      obtain ⟨next, after, advanced, step⟩ :=
        exists_step (Or.inr (Or.inr rfl)) surroundings machine answers
      rw [advanced]
      cases step with
      | refused fault refuses =>
          obtain ⟨address, rfl⟩ := Machine.outOfBounds_of_straight refuses inside wordStraight
          exact .ended few (fun _ => .outOfBounds address)
      | raised text after cycled =>
          refine .ended few ?_
          intro isCalm
          exact absurd (steady isCalm) (Machine.not_steady_of_next cycled)
      | again demand after cycled =>
          have moved := Machine.counter_of_straight cycled wordStraight
          exact .checkStop (onward.next inside moved) (congrArg (· + 1) taken)
      | await register after cycled =>
          exact absurd cycled (Machine.no_wait_of_straight wordStraight)

/-! ### The run -/

section Run

variable (surroundings : Surroundings) (others : Nat → Peripherals → Peripherals)

theorem amid_along {machine : Machine} (inside : machine.registers.counter ≤ 4094)
    (answers : List Answer)
    (straight : ∀ step, (amid surroundings others ⟨.checkStop, machine, answers⟩ step).Straight)
    (steady : calm → surroundings.Steady)
    (unstopped : calm → ∀ step,
      (amid surroundings others ⟨.checkStop, machine, answers⟩ step).Unstopped)
    (steps : Nat) :
    Along calm machine.registers.counter answers steps
      (cyclesAmid surroundings others ⟨.checkStop, machine, answers⟩ steps)
      (amid surroundings others ⟨.checkStop, machine, answers⟩ steps) := by
  have size : Layout.memorySize = 4096 := rfl
  induction steps with
  | zero =>
      have onward : machine.Onward machine.registers.counter 0 :=
        ⟨rfl, Nat.le_refl _, by omega, Nat.zero_le _⟩
      exact (Along.checkStop onward rfl).disturb (others 0)
  | succ steps ih =>
      have along := ih.advance (straight steps) steady (fun isCalm => unstopped isCalm steps)
      exact along.disturb (others (steps + 1))

end Run

/-- A bound on the steps of a straight run: three for each word up to the end of memory, and two
more. -/
theorem Along.exists_ending
    (along : Along calm start answers (3 * ((4094 - start) / 2 + 1) + 2) cycles run) :
    ∃ ending last, run = ⟨.ended ending, last, answers⟩ ∧
      cycles ≤ (4094 - start) / 2 + 1 ∧ (calm → ending.OfStraight start) := by
  have size : Layout.memorySize = 4096 := rfl
  cases along with
  | checkStop onward taken => omega
  | checkCounter onward taken => omega
  | cycle onward inside taken =>
      have advanced := onward.advanced
      omega
  | ended few ends => exact ⟨_, _, rfl, few, ends⟩

end AttendedRun

namespace Machine

/-- A run that begins inside of memory and meets no word that jumps or asks for a key comes to an
end, with no more cycles than there are words from the counter on. Unless it is stopped, or the
display raises an exception, it ends with a fault of memory or right behind the end of memory. -/
theorem straight_run_ends (surroundings : Surroundings) (others : Nat → Peripherals → Peripherals)
    (machine : Machine) (answers : List Answer) (inside : machine.registers.counter ≤ 4094)
    (straight : ∀ step,
      (AttendedRun.amid surroundings others ⟨.checkStop, machine, answers⟩ step).Straight) :
    let start := machine.registers.counter
    let limit := (4094 - start) / 2 + 1
    let steps := 3 * limit + 2
    let found := AttendedRun.amid surroundings others ⟨.checkStop, machine, answers⟩
    ∃ ending last, found steps = ⟨.ended ending, last, answers⟩ ∧
      AttendedRun.cyclesAmid surroundings others ⟨.checkStop, machine, answers⟩ steps ≤ limit ∧
      (surroundings.Steady → (∀ step, (found step).Unstopped) → ending.OfStraight start) ∧
      ((∀ step peripherals, others step peripherals = peripherals) →
        machine.run surroundings answers steps = some (ending, last, answers)) := by
  intro start limit steps found
  have along := AttendedRun.amid_along surroundings others inside answers straight
    (fun calm : surroundings.Steady ∧ ∀ step, (found step).Unstopped => calm.1)
    (fun calm => calm.2) steps
  obtain ⟨ending, last, ended, few, ends⟩ := along.exists_ending
  refine ⟨ending, last, ended, few, fun steady unstopped => ends ⟨steady, unstopped⟩, ?_⟩
  intro idle
  rw [AttendedRun.amid_eq_finish surroundings idle] at ended
  exact (run_eq_some_iff _ _ _ _ _ _).mpr ended

/-- Memory is blank, and the counter is odd: the last word does not end with memory. -/
theorem straight_run_ends_before_last_byte :
    let machine : Machine := { registers := { counter := 4093 } }
    let found := AttendedRun.amid .quiet (fun _ peripherals => peripherals)
      ⟨.checkStop, machine, []⟩
    machine.registers.counter ≤ 4094 ∧ (∀ step, (found step).Straight) ∧
      ∃ ending last, machine.run .quiet [] 5 = some (ending, last, []) ∧
        ending.OfStraight 4093 := by
  intro machine found
  let run : AttendedRun := ⟨.checkStop, machine, []⟩
  have idle : ∀ (step : Nat) (peripherals : Peripherals),
      (fun (_ : Nat) (same : Peripherals) => same) step peripherals = peripherals := fun _ _ => rfl
  have ended : (AttendedRun.finish .quiet 5 run).phase =
      .ended (.halted (.counterOutOfRange 4095)) := by
    decide +kernel
  have settled : ∀ step, found step = AttendedRun.finish .quiet (min step 5) run := by
    intro step
    refine (AttendedRun.amid_eq_finish .quiet idle run step).trans ?_
    rcases Nat.le_total step 5 with early | late
    · rw [Nat.min_eq_left early]
    · rw [Nat.min_eq_right late, ← Nat.add_sub_cancel' late, AttendedRun.finish_add,
        AttendedRun.finish_of_ended .quiet ended]
  have course : ∀ count ≤ 5,
      let reached := AttendedRun.finish .quiet count run
      reached.machine.keypad.stopRequested = false ∧
        (reached.phase = .cycle →
          (reached.machine.memory.fetch reached.machine.registers.counter).toOption = some 0) := by
    decide +kernel
  have straight : ∀ step, (found step).Straight := by
    intro step atWord word fetched
    rw [settled] at atWord fetched
    have written := (course _ (Nat.min_le_right _ _)).2 atWord
    simp only [fetched, Except.toOption, Option.some.injEq] at written
    rw [written]
    unfold Word.Straight Word.Jumps
    decide
  obtain ⟨ending, last, _, _, ends, runs⟩ :=
    straight_run_ends .quiet (fun _ peripherals => peripherals) machine [] (by decide) straight
  have bound : 3 * ((4094 - machine.registers.counter) / 2 + 1) + 2 = 5 := by decide
  have finished := runs idle
  rw [bound] at finished
  refine ⟨by decide, straight, ending, last, finished, ends ?_ ?_⟩
  · intro frames text
    exact List.not_mem_nil
  · intro step _
    have unstopped := (course _ (Nat.min_le_right step 5)).1
    rw [← settled] at unstopped
    exact unstopped

end Machine

end Chip8Machine
