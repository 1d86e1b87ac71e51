import Chip8Machine.Loop.Course
import Chip8Machine.Proofs.Cycle

/-!
The loop in small steps and the course in whole turns tell of the same runs.

A turn takes the loop from its first check back to its first check, or to the end, in a few steps.
Since a loop that has ended stays as it is, the bound on the steps decides only whether there is a
result.
-/

set_option autoImplicit false

namespace Chip8Machine

def Turn.loop : Turn → AttendedRun
  | .ended ending machine answers => ⟨.ended ending, machine, answers⟩
  | .again machine answers => ⟨.checkStop, machine, answers⟩

/-! ### The keypad during a wait -/

namespace Keypad

theorem poll_of_stop {keypad : Keypad} (stop : keypad.stopRequested = true) (seen : UInt64) :
    keypad.poll seen = .ended none := by
  unfold poll
  rw [if_pos stop]

/-- A press makes a difference to the count, also when the count wraps around. -/
theorem poll_of_press {keypad : Keypad} (noStop : keypad.stopRequested = false) (key : Key) :
    (keypad.handle (.press key.toByte)).poll keypad.presses = .ended (some key) := by
  have different : keypad.presses + 1 ≠ keypad.presses := by
    intro same
    have equal := congrArg UInt64.toNat same
    have bound := keypad.presses.toNat_lt
    rw [UInt64.toNat_add] at equal
    change (keypad.presses.toNat + 1) % 2 ^ 64 = keypad.presses.toNat at equal
    omega
  simp only [handle, press_eq_ok]
  unfold poll
  rw [if_neg (by rw [noStop]; decide), if_pos different]

end Keypad

/-! ### The bound on the steps -/

namespace AttendedRun

variable (surroundings : Surroundings)

theorem advance_of_ended {run : AttendedRun} {ending : Ending}
    (hasEnded : run.phase = .ended ending) :
    run.advance surroundings = run := by
  obtain ⟨phase, machine, answers⟩ := run
  cases hasEnded
  rfl

theorem finish_of_ended {run : AttendedRun} {ending : Ending} (hasEnded : run.phase = .ended ending)
    (fuel : Nat) : finish surroundings fuel run = run := by
  cases fuel with
  | zero => rfl
  | succ fuel =>
      unfold finish
      rw [hasEnded]

theorem finish_succ (fuel : Nat) (run : AttendedRun) :
    finish surroundings (fuel + 1) run =
      finish surroundings fuel (run.advance surroundings) := by
  cases phase : run.phase with
  | ended ending =>
      rw [advance_of_ended surroundings phase, finish_of_ended surroundings phase,
        finish_of_ended surroundings phase]
  | _ => simp only [finish, phase]

theorem finish_add (first second : Nat) (run : AttendedRun) :
    finish surroundings (first + second) run =
      finish surroundings second (finish surroundings first run) := by
  induction first generalizing run with
  | zero =>
      rw [Nat.zero_add]
      rfl
  | succ first ih => rw [Nat.succ_add, finish_succ, finish_succ, ih]

/-- With others that do nothing, the run is the loop on its own. -/
theorem amid_eq_finish {others : Nat → Peripherals → Peripherals}
    (idle : ∀ step peripherals, others step peripherals = peripherals) (run : AttendedRun)
    (steps : Nat) : amid surroundings others run steps = finish surroundings steps run := by
  have undisturbed : ∀ step (other : AttendedRun), other.disturb (others step) = other := by
    intro step other
    unfold disturb
    rw [idle]
    rfl
  induction steps with
  | zero => exact undisturbed 0 run
  | succ steps ih =>
      rw [finish_add, finish_succ]
      exact (undisturbed _ _).trans
        (congrArg (fun reached : AttendedRun => reached.advance surroundings) ih)

/-! ### A wait -/

section Wait

variable {machine : Machine} {answers : List Answer} (register : Register)

theorem advance_enterWait_raised {peripherals : Peripherals} {text : String}
    (reacted : machine.toPeripherals.react surroundings.tone (answers.head?.getD {}).before =
      (peripherals, some text)) :
    AttendedRun.advance ⟨.enterWait register, machine, answers⟩ surroundings =
      ⟨.ended (.raised text), machine.withPeripherals peripherals, answers.tail⟩ := by
  simp only [advance, answer, reacted, leaveWait]

theorem advance_enterWait {peripherals : Peripherals} {prepared : Machine}
    (reacted : machine.toPeripherals.react surroundings.tone (answers.head?.getD {}).before =
      (peripherals, none))
    (isPrepared : machine.withPeripherals peripherals = prepared) :
    AttendedRun.advance ⟨.enterWait register, machine, answers⟩ surroundings =
      leaveWait ⟨Phase.ofWait register prepared.keypad.presses
        (prepared.keypad.poll prepared.keypad.presses), prepared, answers⟩ := by
  simp only [advance, answer, reacted, isPrepared]
  rfl

theorem advance_sleep_blocked (noStop : machine.keypad.stopRequested = false) :
    AttendedRun.advance ⟨.sleep register machine.keypad.presses, machine, answers⟩ surroundings =
      ⟨.sleep register machine.keypad.presses,
        machine.handle (answers.head?.getD {}).gesture, answers⟩ := by
  have pending := (Keypad.poll_eq_pending_iff machine.keypad _).mpr ⟨noStop, rfl⟩
  simp only [advance, Phase.isBlocked, pending, answer]
  rfl

theorem advance_sleep_ended {seen : UInt64} {key : Option Key}
    (ended : machine.keypad.poll seen = .ended key) :
    AttendedRun.advance ⟨.sleep register seen, machine, answers⟩ surroundings =
      ⟨Phase.ofWait register seen (.ended key), machine, answers.tail⟩ := by
  have awake : Phase.isBlocked (.sleep register seen) machine = false := by
    simp only [Phase.isBlocked, ended]
    rfl
  simp only [advance, awake, advanceAlone, Phase.advance, ended]
  cases key with
  | none => rfl
  | some key => rfl

/-- An answer without a key wakes the loop up for its end. -/
theorem finish_sleep_stop (noStop : machine.keypad.stopRequested = false)
    (noKey : (answers.head?.getD {}).key = none) :
    finish surroundings 2 ⟨.sleep register machine.keypad.presses, machine, answers⟩ =
      ⟨.ended (.halted .requested), machine.handle .requestStop, answers.tail⟩ := by
  have gesture : (answers.head?.getD {}).gesture = .requestStop := by
    unfold Answer.gesture
    rw [noKey]
  have ended : (machine.handle .requestStop).keypad.poll machine.keypad.presses = .ended none :=
    Keypad.poll_of_stop rfl _
  rw [finish_succ, advance_sleep_blocked surroundings register noStop, gesture, finish_succ,
    advance_sleep_ended surroundings register ended]
  rfl

/-- An answer with a key wakes the loop up, and the key goes into the register. -/
theorem finish_sleep_key {key : Key} (noStop : machine.keypad.stopRequested = false)
    (pressed : (answers.head?.getD {}).key = some key) :
    finish surroundings 3 ⟨.sleep register machine.keypad.presses, machine, answers⟩ =
      ⟨.checkStop,
        { machine.handle (.press key.toByte) with
          registers := machine.registers.set register key.toByte }, answers.tail⟩ := by
  have gesture : (answers.head?.getD {}).gesture = .press key.toByte := by
    unfold Answer.gesture
    rw [pressed]
  have ended : (machine.handle (.press key.toByte)).keypad.poll machine.keypad.presses =
      .ended (some key) := Keypad.poll_of_press noStop key
  rw [finish_succ, advance_sleep_blocked surroundings register noStop, gesture, finish_succ,
    advance_sleep_ended surroundings register ended, finish_succ]
  rfl

private theorem handle_requestStop_of_stop {machine : Machine}
    (stop : machine.keypad.stopRequested = true) : machine.handle .requestStop = machine := by
  have same : machine.keypad.requestStop = machine.keypad := by
    unfold Keypad.requestStop
    rw [← stop]
  unfold Machine.handle Machine.withPeripherals Peripherals.handle
  simp only [Keypad.handle, same]

/-- The steps of a wait come to what the wait in one piece comes to. -/
theorem finish_wait (register : Register) (machine : Machine) (answers : List Answer) :
    ∃ count, finish surroundings count ⟨.enterWait register, machine, answers⟩ =
      (machine.turnWait surroundings register answers).loop := by
  cases reacted : machine.toPeripherals.react surroundings.tone (answers.head?.getD {}).before with
  | mk peripherals raised =>
    cases raised with
    | some text =>
        refine ⟨1, ?_⟩
        rw [finish_succ, advance_enterWait_raised surroundings register reacted]
        simp only [finish, Machine.turnWait, Machine.wait, reacted, Turn.loop]
    | none =>
        simp only [Machine.turnWait, Machine.wait, reacted]
        generalize isPrepared : machine.withPeripherals peripherals = prepared
        have begins := advance_enterWait surroundings register reacted isPrepared
        cases stop : prepared.keypad.stopRequested with
        | true =>
            refine ⟨1, ?_⟩
            rw [finish_succ, begins, Keypad.poll_of_stop stop]
            cases key : (answers.head?.getD {}).key with
            | none =>
                simp only [handle_requestStop_of_stop stop]
                rfl
            | some key => rfl
        | false =>
            have pending := (Keypad.poll_eq_pending_iff prepared.keypad _).mpr ⟨stop, rfl⟩
            rw [pending] at begins
            cases key : (answers.head?.getD {}).key with
            | none =>
                refine ⟨3, ?_⟩
                rw [finish_succ, begins]
                exact finish_sleep_stop surroundings register stop key
            | some key =>
                refine ⟨4, ?_⟩
                rw [finish_succ, begins]
                exact finish_sleep_key surroundings register stop key

end Wait

/-! ### A turn -/

theorem advance_checkStop {machine : Machine} (answers : List Answer)
    (noStop : machine.keypad.stopRequested = false) :
    AttendedRun.advance ⟨.checkStop, machine, answers⟩ surroundings =
      ⟨.checkCounter, machine, answers⟩ := by
  simp only [advance, advanceAlone, Phase.advance, noStop]
  rfl

theorem advance_checkCounter {machine : Machine} (answers : List Answer)
    (inside : ¬ Layout.memorySize ≤ machine.registers.counter + 1) :
    AttendedRun.advance ⟨.checkCounter, machine, answers⟩ surroundings =
      ⟨.cycle, machine, answers⟩ := by
  simp only [advance, advanceAlone, Phase.advance, if_neg inside]

/-- The rest of a turn behind its checks: the cycle, and the wait if the cycle asks for a key. -/
private theorem finish_cycle {machine : Machine} (answers : List Answer)
    (noStop : ¬ machine.keypad.stopRequested = true)
    (inside : ¬ Layout.memorySize ≤ machine.registers.counter + 1) :
    ∃ count, finish surroundings (count + 1) ⟨.cycle, machine, answers⟩ =
      (machine.turn surroundings answers).loop := by
  unfold Machine.turn
  rw [if_neg noStop, if_neg inside]
  cases cycle : machine.next surroundings with
  | mk after outcome =>
    cases outcome with
    | fault fault =>
        refine ⟨0, ?_⟩
        rw [finish_succ]
        simp only [finish, advance, advanceAlone, Phase.advance, cycle, Turn.loop,
          Machine.unchanged_of_fault cycle]
    | raised text =>
        refine ⟨0, ?_⟩
        rw [finish_succ]
        simp only [finish, advance, advanceAlone, Phase.advance, cycle, Turn.loop]
    | done demand =>
        cases demand with
        | awaitKey register =>
            obtain ⟨count, waited⟩ := finish_wait surroundings register after answers
            refine ⟨count, ?_⟩
            rw [finish_succ]
            simp only [advance, advanceAlone, Phase.advance, cycle]
            exact waited
        | nothing | draw =>
            refine ⟨0, ?_⟩
            rw [finish_succ]
            simp only [finish, advance, advanceAlone, Phase.advance, cycle, Turn.loop]

/-- The steps of a turn come to what the turn in one piece comes to. -/
theorem finish_turn (machine : Machine) (answers : List Answer) :
    ∃ count, finish surroundings (count + 1) ⟨.checkStop, machine, answers⟩ =
      (machine.turn surroundings answers).loop := by
  cases stop : machine.keypad.stopRequested with
  | true =>
      refine ⟨0, ?_⟩
      rw [finish_succ]
      simp only [finish, advance, advanceAlone, Phase.advance, Machine.turn, stop, if_true,
        Turn.loop]
  | false =>
      have running : ¬ machine.keypad.stopRequested = true := by rw [stop]; decide
      by_cases outside : Layout.memorySize ≤ machine.registers.counter + 1
      · refine ⟨1, ?_⟩
        unfold Machine.turn
        rw [finish_succ, advance_checkStop surroundings answers stop, finish_succ,
          if_neg running, if_pos outside]
        simp only [finish, advance, advanceAlone, Phase.advance, if_pos outside, Turn.loop]
      · obtain ⟨count, cycled⟩ := finish_cycle surroundings answers running outside
        refine ⟨count + 2, ?_⟩
        rw [finish_succ, advance_checkStop surroundings answers stop, finish_succ,
          advance_checkCounter surroundings answers outside]
        exact cycled

end AttendedRun

/-! ### Runs -/

theorem Course.iff_of_again {surroundings : Surroundings} {machine after last : Machine}
    {answers rest left : List Answer} {ending : Ending}
    (turn : machine.turn surroundings answers = .again after rest) :
    Course surroundings machine answers ending last left ↔
      Course surroundings after rest ending last left := by
  constructor
  · intro course
    cases course with
    | ended other =>
        rw [turn] at other
        cases other
    | again other course =>
        rw [turn] at other
        cases other
        exact course
  · exact Course.again turn

theorem Course.iff_of_ended {surroundings : Surroundings} {machine final last : Machine}
    {answers rest left : List Answer} {reason ending : Ending}
    (turn : machine.turn surroundings answers = .ended reason final rest) :
    Course surroundings machine answers ending last left ↔
      ending = reason ∧ last = final ∧ left = rest := by
  constructor
  · intro course
    cases course with
    | ended other =>
        rw [turn] at other
        cases other
        exact ⟨rfl, rfl, rfl⟩
    | again other _ =>
        rw [turn] at other
        cases other
  · rintro ⟨rfl, rfl, rfl⟩
    exact Course.ended turn

namespace Machine

variable {surroundings : Surroundings}

theorem run_eq_some_iff (machine last : Machine) (answers left : List Answer) (ending : Ending)
    (fuel : Nat) :
    machine.run surroundings answers fuel = some (ending, last, left) ↔
      AttendedRun.finish surroundings fuel ⟨.checkStop, machine, answers⟩ =
        ⟨.ended ending, last, left⟩ := by
  unfold run
  cases AttendedRun.finish surroundings fuel ⟨.checkStop, machine, answers⟩ with
  | mk phase reached remaining => cases phase <;> simp

theorem run_of_course {machine last : Machine} {answers left : List Answer} {ending : Ending}
    (course : Course surroundings machine answers ending last left) :
    ∃ fuel, machine.run surroundings answers fuel = some (ending, last, left) := by
  induction course with
  | @ended machine last answers left ending turn =>
      obtain ⟨count, turned⟩ := AttendedRun.finish_turn surroundings machine answers
      rw [turn] at turned
      exact ⟨count + 1, (run_eq_some_iff _ _ _ _ _ _).mpr turned⟩
  | @again machine after last answers rest left ending turn _ ih =>
      obtain ⟨count, turned⟩ := AttendedRun.finish_turn surroundings machine answers
      obtain ⟨fuel, finished⟩ := ih
      rw [run_eq_some_iff] at finished
      rw [turn] at turned
      refine ⟨count + 1 + fuel, (run_eq_some_iff _ _ _ _ _ _).mpr ?_⟩
      rw [AttendedRun.finish_add, turned]
      exact finished

/-- The induction is on the bound: a turn that goes on has used up at least one step of it. -/
theorem course_of_run {fuel : Nat} {machine last : Machine} {answers left : List Answer}
    {ending : Ending}
    (finished : machine.run surroundings answers fuel = some (ending, last, left)) :
    Course surroundings machine answers ending last left := by
  induction fuel using Nat.strongRecOn generalizing machine answers with
  | ind fuel ih =>
    rw [run_eq_some_iff] at finished
    have stays (more : Nat) :
        AttendedRun.finish surroundings (fuel + more) ⟨.checkStop, machine, answers⟩ =
          ⟨.ended ending, last, left⟩ := by
      rw [AttendedRun.finish_add, finished, AttendedRun.finish_of_ended surroundings rfl]
    obtain ⟨count, turned⟩ := AttendedRun.finish_turn surroundings machine answers
    cases turn : machine.turn surroundings answers with
    | ended reason final rest =>
        have both := stays (count + 1)
        rw [Nat.add_comm, AttendedRun.finish_add, turned, turn,
          AttendedRun.finish_of_ended surroundings rfl] at both
        cases both
        exact Course.ended turn
    | again after rest =>
        rw [turn] at turned
        have enough : count + 1 ≤ fuel := by
          apply Nat.le_of_not_lt
          intro short
          have early := stays (count + 1 - fuel)
          rw [Nat.add_sub_of_le (Nat.le_of_lt short), turned] at early
          cases early
        have later : after.run surroundings rest (fuel - (count + 1)) =
            some (ending, last, left) := by
          rw [run_eq_some_iff]
          rw [← Nat.add_sub_of_le enough, AttendedRun.finish_add, turned] at finished
          exact finished
        exact Course.again turn (ih _ (by omega) later)

/-! ### What a turn does -/

private theorem conclude_awaitKey {machine after : Machine} {demand : Demand} {register : Register}
    (concluded : machine.conclude surroundings demand = (after, .done (.awaitKey register))) :
    demand = .awaitKey register ∧ after = machine := by
  rcases machine.conclude_cases surroundings demand with
    ⟨shown, plain, _, isDraw | same⟩ | ⟨shown, text, raised, _⟩
  · rw [concluded, isDraw] at plain
    cases plain
  · rw [concluded, same] at plain
    cases plain
    exact ⟨rfl, rfl⟩
  · rw [concluded] at raised
    cases raised

/-- A cycle that asks for a key has executed `Fx0A`, and it has moved the counter and nothing
else. -/
theorem next_awaitKey {machine after : Machine} {register : Register}
    (cycle : machine.next surroundings = (after, .done (.awaitKey register))) :
    after = machine.advance .next ∧
      ∃ word, machine.memory.fetch machine.registers.counter = .ok word ∧
        word.lead = 0xF ∧ word.kk.toNat = 0x0A ∧ register = word.x := by
  rcases next_cases machine surroundings with
    ⟨fault, failed⟩ | ⟨word, executed, fetched, succeeds, concluded⟩
  · rw [failed] at cycle
    cases cycle
  · rw [concluded] at cycle
    obtain ⟨asks, rfl⟩ := conclude_awaitKey cycle
    have decoded : Instruction.decode word = .awaitKey register := by
      cases instruction : Instruction.decode word with
      | awaitKey awaited =>
          rw [instruction] at asks
          cases asks
          rfl
      | _ =>
          rw [instruction] at asks
          cases asks
    rw [decoded] at succeeds
    cases succeeds
    exact ⟨rfl, word, fetched, (Instruction.decode_eq_iff word (.awaitKey register)).mp decoded⟩

/-- A wait leaves everything alone that belongs to the program, its registers among it. -/
theorem wait_toCore (machine : Machine) (surroundings : Surroundings) (answer : Answer) :
    (machine.wait surroundings answer).1.toCore = machine.toCore := by
  unfold wait
  cases machine.toPeripherals.react surroundings.tone answer.before with
  | mk peripherals raised =>
    cases raised with
    | some text => rfl
    | none =>
        cases answer.key with
        | none => rfl
        | some key =>
            by_cases stop : (machine.withPeripherals peripherals).keypad.stopRequested = true
            · simp only [if_pos stop]
              rfl
            · simp only [if_neg stop]
              rfl

theorem key_of_wait {machine awake : Machine} {answer : Answer} {key : Key}
    (waited : machine.wait surroundings answer = (awake, .key key)) : answer.key = some key := by
  unfold wait at waited
  cases reacted : machine.toPeripherals.react surroundings.tone answer.before with
  | mk peripherals raised =>
    simp only [reacted] at waited
    split at waited
    · cases waited
    · cases waited
    · rename_i pressed
      split at waited
      · cases waited
      · cases waited
        exact pressed

/-- A wait that the turn goes on behind was answered with a key, which is now in the register. -/
theorem registers_of_turnWait {machine after : Machine} {register : Register}
    {answers left : List Answer}
    (again : machine.turnWait surroundings register answers = .again after left) :
    ∃ key, (answers.head?.getD {}).key = some key ∧
      ∀ other, after.registers.get other =
        if other = register then key.toByte else machine.registers.get other := by
  have sameCore := machine.wait_toCore surroundings (answers.head?.getD {})
  unfold turnWait at again
  cases waited : machine.wait surroundings (answers.head?.getD {}) with
  | mk awake outcome =>
    rw [waited] at again sameCore
    cases outcome with
    | key key =>
        cases again
        have sameRegisters : awake.registers = machine.registers :=
          congrArg (fun core : Core => core.registers) sameCore
        refine ⟨key, key_of_wait waited, fun other => ?_⟩
        rw [← sameRegisters]
        exact awake.registers.get_set register other key.toByte
    | stopped | raised text => cases again

theorem turn_of_stop {machine : Machine} (surroundings : Surroundings) (answers : List Answer)
    (stop : machine.keypad.stopRequested = true) :
    machine.turn surroundings answers = .ended (.halted .requested) machine answers := by
  unfold turn
  rw [if_pos stop]

/-- A cycle that leaves a stop request behind it has not asked for a key, so that its turn goes
on. -/
theorem turn_of_stopping {machine after : Machine} {demand : Demand} (answers : List Answer)
    (noStop : machine.keypad.stopRequested = false)
    (inside : machine.registers.counter + 1 < Layout.memorySize)
    (cycle : machine.next surroundings = (after, .done demand))
    (stopping : after.keypad.stopRequested = true) :
    machine.turn surroundings answers = .again after answers := by
  have running : ¬ (machine.keypad.stopRequested = true) := by rw [noStop]; decide
  unfold turn
  rw [if_neg running, if_neg (by omega), cycle]
  cases demand with
  | awaitKey register =>
      obtain ⟨rfl, _⟩ := next_awaitKey cycle
      exact absurd stopping running
  | nothing => rfl
  | draw => rfl

theorem course_iff_of_turns {machine reached last : Machine} {answers between left : List Answer}
    {ending : Ending} (turns : Turns surroundings machine answers reached between) :
    Course surroundings machine answers ending last left ↔
      Course surroundings reached between ending last left := by
  induction turns with
  | none machine answers => exact Iff.rfl
  | again turn _ ih => exact (Course.iff_of_again turn).trans ih

/-- A run ends in a way exactly if the course does. A stop request that is there at the beginning of
some turn ends the run at once, wherever the counter is, and so does a stop request that comes from
within a cycle. A cycle asks for a key only by `Fx0A`. The wait itself does not change the
registers; behind it, the key is in the register that was asked for. -/
theorem run_refines_turns (surroundings : Surroundings) (machine : Machine) (answers : List Answer)
    (ending : Ending) (last : Machine) (left : List Answer) :
    ((∃ fuel, machine.run surroundings answers fuel = some (ending, last, left)) ↔
        Course surroundings machine answers ending last left) ∧
    (∀ fuel reached between, Turns surroundings machine answers reached between →
      machine.run surroundings answers fuel = some (ending, last, left) →
      (reached.keypad.stopRequested = true →
        ending = .halted .requested ∧ last = reached ∧ left = between) ∧
      ∀ after demand, reached.keypad.stopRequested = false →
        reached.registers.counter + 1 < Layout.memorySize →
        reached.next surroundings = (after, .done demand) → after.keypad.stopRequested = true →
        ending = .halted .requested ∧ last = after ∧ left = between) ∧
    (∀ after register, machine.next surroundings = (after, .done (.awaitKey register)) →
      after = machine.advance .next ∧
        ∃ word, machine.memory.fetch machine.registers.counter = .ok word ∧
          word.lead = 0xF ∧ word.kk.toNat = 0x0A ∧ register = word.x) ∧
    (∀ answer, (machine.wait surroundings answer).1.toCore = machine.toCore) ∧
    ∀ register after rest, machine.turnWait surroundings register answers = .again after rest →
      ∃ key, (answers.head?.getD {}).key = some key ∧
        ∀ other, after.registers.get other =
          if other = register then key.toByte else machine.registers.get other := by
  refine ⟨⟨?_, run_of_course⟩, ?_, fun after register => next_awaitKey,
    machine.wait_toCore surroundings, fun register after rest => registers_of_turnWait⟩
  · rintro ⟨fuel, finished⟩
    exact course_of_run finished
  · intro fuel reached between turns finished
    have course := (course_iff_of_turns turns).mp (course_of_run finished)
    constructor
    · intro stop
      exact (Course.iff_of_ended (turn_of_stop surroundings between stop)).mp course
    · intro after demand noStop inside cycle stopping
      have goesOn := turn_of_stopping between noStop inside cycle stopping
      have later := (Course.iff_of_again goesOn).mp course
      exact (Course.iff_of_ended (turn_of_stop surroundings between stopping)).mp later

end Machine

end Chip8Machine
