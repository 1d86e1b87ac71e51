import Chip8Machine.Proofs.ControlBounds
import Chip8Machine.Proofs.RunSteps

/-!
Why runs halt, and that a machine whose run has halted stays where it is.

Every halt is decided before the turn changes anything: by a stop request, by the counter, or by a
word that is refused. Counter, memory and stack are out of reach of the others, so a machine that is
left behind is one at which the loop decides the same again, and neither the display nor the
listener is asked. Only a stop request comes before that. One that others make behind the last look
for it is found by the next run.
-/

set_option autoImplicit false

namespace Chip8Machine

namespace Machine

/-- The loop halts here for the given reason if it finds no stop request. -/
inductive Stuck (machine : Machine) : Halt → Prop
  | outside (outside : Layout.memorySize ≤ machine.registers.counter + 1) :
      Stuck machine (.counterOutOfRange machine.registers.counter)
  | refused {word : Word} {fault : Fault}
      (fetched : machine.memory.fetch machine.registers.counter = .ok word)
      (refuses : machine.Refuses word fault) : Stuck machine (.fault fault)

/-- An index has sixteen bits, which bounds the address that a fault reports. -/
theorem Refuses.fault_cases {machine : Machine} {word : Word} {fault : Fault}
    (refuses : machine.Refuses word fault) :
    fault = .stack (.overflow Layout.stackLimit) ∨ fault = .stack .underflow ∨
      ∃ address, fault = .memory (.outOfBounds address Layout.memorySize) ∧
        Layout.memorySize ≤ address ∧ address ≤ 65535 := by
  have size : Layout.memorySize = 4096 := rfl
  have bound := machine.registers.index.toNat_lt
  cases refuses with
  | underflow => exact Or.inr (Or.inl rfl)
  | overflow => exact Or.inl rfl
  | draw | decimal | through => exact Or.inr (Or.inr ⟨_, rfl, by omega, by omega⟩)

theorem Stuck.fault_cases {machine : Machine} {fault : Fault}
    (stuck : machine.Stuck (.fault fault)) :
    fault = .stack (.overflow Layout.stackLimit) ∨ fault = .stack .underflow ∨
      ∃ address, fault = .memory (.outOfBounds address Layout.memorySize) ∧
        Layout.memorySize ≤ address ∧ address ≤ 65535 := by
  cases stuck with
  | refused _ refuses => exact refuses.fault_cases

theorem Stuck.ne_requested {machine : Machine} {halt : Halt} (stuck : machine.Stuck halt) :
    halt ≠ .requested := by
  intro same
  cases stuck with
  | outside | refused => cases same

/-! ### Running again -/

theorem run_of_stop {machine : Machine} (stop : machine.keypad.stopRequested = true)
    (surroundings : Surroundings) (answers : List Answer) (fuel : Nat) :
    machine.run surroundings answers (fuel + 3) = some (.halted .requested, machine, answers) := by
  rw [run_eq_some_iff, AttendedRun.finish_succ]
  simp only [AttendedRun.advance, AttendedRun.advanceAlone, Phase.advance, stop, if_true]
  exact AttendedRun.finish_of_ended surroundings rfl _

/-- The loop looks for the stop request first, then at the counter, and then does the cycle. -/
theorem run_of_stuck {machine : Machine} {halt : Halt} (stuck : machine.Stuck halt)
    (running : machine.keypad.stopRequested = false) (surroundings : Surroundings)
    (answers : List Answer) (fuel : Nat) :
    machine.run surroundings answers (fuel + 3) = some (.halted halt, machine, answers) := by
  rw [run_eq_some_iff, AttendedRun.finish_succ,
    AttendedRun.advance_checkStop surroundings answers running, AttendedRun.finish_succ]
  cases stuck with
  | outside outside =>
      simp only [AttendedRun.advance, AttendedRun.advanceAlone, Phase.advance, if_pos outside]
      exact AttendedRun.finish_of_ended surroundings rfl _
  | refused fetched refuses =>
      have inside := (machine.memory.exists_fetch_eq_ok_iff _).mp ⟨_, fetched⟩
      have failed := next_of_refused surroundings (Or.inr ⟨_, fetched, refuses⟩)
      rw [AttendedRun.advance_checkCounter surroundings answers (by omega), AttendedRun.finish_succ]
      simp only [AttendedRun.advance, AttendedRun.advanceAlone, Phase.advance, failed]
      exact AttendedRun.finish_of_ended surroundings rfl _

end Machine

/-! ### The step with which a run returns -/

namespace AttendedRun

variable {surroundings : Surroundings} {others : Nat → Peripherals → Peripherals}
  {run : AttendedRun}

structure Returns (run : AttendedRun) (surroundings : Surroundings) (halt : Halt) (last : Machine)
    (left : List Answer) : Prop where
  running : ∀ ending, run.phase ≠ .ended ending
  ended : run.advance surroundings = ⟨.ended (.halted halt), last, left⟩

theorem returns_of_phase {halt : Halt} (running : ∀ ending, run.phase ≠ .ended ending)
    (ended : (run.advance surroundings).phase = .ended (.halted halt)) :
    run.Returns surroundings halt (run.advance surroundings).machine
      (run.advance surroundings).answers :=
  ⟨running, by rw [← ended]⟩

theorem Moves.halted {halt : Halt} {last : Machine} {left : List Answer}
    (moves : Moves surroundings run ⟨.ended (.halted halt), last, left⟩) (recalls : run.Recalls)
    (inside : run.phase = .cycle → run.machine.registers.counter + 1 < Layout.memorySize) :
    halt = .requested ∧ last.keypad.stopRequested = true ∨
      last.Stuck halt ∧ last = run.machine ∧ (run.phase = .checkCounter ∨ run.phase = .cycle) := by
  generalize reached : Phase.ended (.halted halt) = phase at moves
  cases moves with
  | loop answers left step =>
      cases step with
      | stop stop =>
          cases reached
          exact .inl ⟨rfl, stop⟩
      | outside outside =>
          cases reached
          exact .inr ⟨.outside outside, rfl, .inl rfl⟩
      | refused fault refuses =>
          cases reached
          rcases refuses with ⟨beyond, _⟩ | ⟨word, fetched, refused⟩
          · exact absurd beyond (Nat.not_le_of_lt (inside rfl))
          · exact .inr ⟨.refused fetched refused, rfl, .inr rfl⟩
      | begin =>
          obtain ⟨rfl, stopped⟩ := Phase.halted_of_ofWait reached.symm
          exact .inl ⟨rfl, Keypad.stopRequested_of_poll (absurd rfl) stopped⟩
      | look =>
          obtain ⟨rfl, stopped⟩ := Phase.halted_of_ofWait reached.symm
          exact .inl ⟨rfl, Keypad.stopRequested_of_poll (recalls _ _ rfl) stopped⟩
      | _ => cases reached
  | begin =>
      obtain ⟨rfl, stopped⟩ := Phase.halted_of_ofWait reached.symm
      exact .inl ⟨rfl, Keypad.stopRequested_of_poll (absurd rfl) stopped⟩
  | interrupt | answer => cases reached

/-- A run that returns has found a stop request, or it is stuck and past its last look for one. -/
theorem Returns.cases {step : Nat} {halt : Halt} {last : Machine} {left : List Answer}
    (returns : (amid surroundings others run step).Returns surroundings halt last left)
    (byGestures : ByGestures others) (begins : run.phase = .checkStop) :
    halt = .requested ∧ last.keypad.stopRequested = true ∨
      last.Stuck halt ∧ last = (amid surroundings others run step).machine ∧
        ∃ checked, LastCheck (amid surroundings others run) checked step ∧
          (NoRequest others checked step → last.keypad.stopRequested = false) := by
  have moves := moves_of_running surroundings returns.running
  rw [returns.ended] at moves
  have inside (cycles : (amid surroundings others run step).phase = .cycle) :
      (amid surroundings others run step).machine.registers.counter + 1 < Layout.memorySize := by
    obtain ⟨_, _, _, inside, _⟩ := amid_of_cycle begins cycles
    exact inside
  rcases moves.halted (recalls_amid byGestures begins step) inside with
    requested | ⟨stuck, same, past⟩
  · exact .inl requested
  · refine .inr ⟨stuck, same, ?_⟩
    rw [same]
    exact exists_lastCheck begins past

theorem Moves.contained {after : AttendedRun} (moves : Moves surroundings run after)
    (contained : run.machine.toCore.Contained) : after.machine.toCore.Contained := by
  cases moves with
  | @loop phase next machine after answers left step =>
      have cycled : (machine.next surroundings).1.toCore.Contained :=
        Machine.happen_contained surroundings .cycle contained
      cases step with
      | raised text after next | again demand after next | await register after next =>
          rw [next] at cycled
          exact cycled
      | receive register key =>
          exact Machine.happen_contained surroundings (.receive register key) contained
      | _ => exact contained
  | begin | interrupt | answer => exact contained

theorem amid_contained (contained : run.machine.toCore.Contained) (step : Nat) :
    (amid surroundings others run step).machine.toCore.Contained :=
  -- The others do not reach the core.
  invariant_of_amid (fun run => run.machine.toCore.Contained) (fun _ _ holds => holds)
    (fun _ _ holds moves => moves.contained holds) contained step

end AttendedRun

namespace Machine

/-- The machines that come from a fresh one by histories and by runs among others, each in
surroundings of its own. -/
inductive Reachable : Machine → Prop
  | fresh (random : RandomBytes) (listener : Listener) : Reachable (fresh random listener)
  | happen {machine : Machine} (reachable : Reachable machine) (surroundings : Surroundings)
      (happening : Happening) : Reachable (machine.happen surroundings happening)
  | run {machine : Machine} (reachable : Reachable machine) (surroundings : Surroundings)
      (others : Nat → Peripherals → Peripherals) (answers : List Answer) (step : Nat) :
      Reachable (AttendedRun.amid surroundings others ⟨.checkStop, machine, answers⟩ step).machine

theorem Reachable.contained {machine : Machine} (reachable : machine.Reachable) :
    machine.toCore.Contained := by
  induction reachable with
  | fresh random listener => exact fresh_contained random listener
  | happen _ surroundings happening ih => exact happen_contained surroundings happening ih
  | run _ surroundings others answers step ih => exact AttendedRun.amid_contained ih step

/-- A run among others halts for one of five reasons. A fault comes from the stack or from an access
that begins behind memory; a counter out of range is the machine's own. A stop request is still
there behind the run that it has ended; any other run has found none at its last look for one.

Halting is then all that is left to do. In whatever surroundings the machine runs again, it halts as
it is, with no answer used up. It does so for the same reason, unless the others have requested a
stop behind the last look. -/
theorem halt_settled {surroundings : Surroundings} {others : Nat → Peripherals → Peripherals}
    {machine last : Machine} {answers left : List Answer} {halt : Halt} {step : Nat}
    (byGestures : AttendedRun.ByGestures others)
    (returns : (AttendedRun.amid surroundings others ⟨.checkStop, machine, answers⟩ step).Returns
      surroundings halt last left) :
    (∀ fault, halt = .fault fault →
      fault = .stack (.overflow Layout.stackLimit) ∨ fault = .stack .underflow ∨
        ∃ address, fault = .memory (.outOfBounds address Layout.memorySize) ∧
          Layout.memorySize ≤ address ∧ address ≤ 65535) ∧
    (∀ counter, halt = .counterOutOfRange counter →
      counter = last.registers.counter ∧ Layout.memorySize ≤ counter + 1 ∧
        (machine.Reachable → counter ≤ Layout.counterLimit)) ∧
    (halt = .requested → last.keypad.stopRequested = true) ∧
    (halt ≠ .requested → ∃ checked,
      AttendedRun.LastCheck (AttendedRun.amid surroundings others ⟨.checkStop, machine, answers⟩)
        checked step ∧
      (AttendedRun.NoRequest others checked step → last.keypad.stopRequested = false)) ∧
    (∀ (elsewhere : Surroundings) (more : List Answer) (fuel : Nat),
      last.run elsewhere more (fuel + 3) =
        some (.halted (if last.keypad.stopRequested then .requested else halt), last, more)) ∧
    ((∀ step peripherals, others step peripherals = peripherals) →
      machine.run surroundings answers (step + 1) = some (.halted halt, last, left) ∧
        ∀ (elsewhere : Surroundings) (more : List Answer) (fuel : Nat),
          last.run elsewhere more (fuel + 3) = some (.halted halt, last, more)) := by
  have ways := returns.cases byGestures rfl
  have again : ∀ (elsewhere : Surroundings) (more : List Answer) (fuel : Nat),
      last.run elsewhere more (fuel + 3) =
        some (.halted (if last.keypad.stopRequested then .requested else halt), last, more) := by
    intro elsewhere more fuel
    cases stop : last.keypad.stopRequested with
    | true => exact run_of_stop stop elsewhere more fuel
    | false =>
        rcases ways with ⟨_, requested⟩ | ⟨stuck, _⟩
        · cases stop.symm.trans requested
        · exact run_of_stuck stuck stop elsewhere more fuel
  refine ⟨?_, ?_, ?_, ?_, again, ?_⟩
  · rintro fault rfl
    rcases ways with ⟨impossible, _⟩ | ⟨stuck, _⟩
    · cases impossible
    · exact stuck.fault_cases
  · rintro counter rfl
    rcases ways with ⟨impossible, _⟩ | ⟨stuck, same, _⟩
    · cases impossible
    · cases stuck with
      | outside outside =>
          refine ⟨rfl, outside, fun reachable => ?_⟩
          rw [same]
          exact (Reachable.run reachable surroundings others answers step).contained.counterBound
  · rintro rfl
    rcases ways with ⟨_, stop⟩ | ⟨stuck, _⟩
    · exact stop
    · exact absurd rfl stuck.ne_requested
  · intro reason
    rcases ways with ⟨same, _⟩ | ⟨_, _, looked⟩
    · exact absurd same reason
    · exact looked
  · intro idle
    have sameReason : (if last.keypad.stopRequested then .requested else halt) = halt := by
      rcases ways with ⟨rfl, stop⟩ | ⟨_, _, _, _, unrequested⟩
      · rw [stop]
        rfl
      · rw [unrequested fun later _ _ peripherals calm => by rw [idle]; exact calm]
        rfl
    rw [sameReason] at again
    refine ⟨?_, again⟩
    rw [run_eq_some_iff, AttendedRun.finish_add surroundings step 1,
      AttendedRun.finish_succ surroundings 0,
      ← AttendedRun.amid_eq_finish surroundings idle ⟨.checkStop, machine, answers⟩ step,
      returns.ended]
    rfl

/-- The font holds the words `90F0` and `2060` from address 3 on: a skip that is not taken, and a
call. Somebody presses a key before each step, but nobody requests a stop. -/
theorem halt_settled_on_full_stack :
    let machine : Machine :=
      { registers := { counter := 3 }, stack := { addresses := List.replicate 16 0x200 } }
    let others : Nat → Peripherals → Peripherals := fun _ peripherals =>
      peripherals.handle (.press 7)
    let found := AttendedRun.amid .quiet others ⟨.checkStop, machine, []⟩
    let halt := Halt.fault (.stack (.overflow 16))
    AttendedRun.ByGestures others ∧ ∃ last left, (found 5).Returns .quiet halt last left ∧
      last.keypad.presses = 6 ∧ last.keypad.stopRequested = false ∧
      ∀ (elsewhere : Surroundings) (more : List Answer) (fuel : Nat),
        last.run elsewhere more (fuel + 3) = some (.halted halt, last, more) := by
  intro machine others found halt
  have byGestures : AttendedRun.ByGestures others := fun _ _ => ⟨[.press 7], rfl⟩
  have atCycle : (found 5).phase = .cycle := by decide +kernel
  have ended : ((found 5).advance .quiet).phase = .ended (.halted halt) := by decide +kernel
  have facts : ((found 5).advance .quiet).machine.keypad.presses = 6 ∧
      ((found 5).advance .quiet).machine.keypad.stopRequested = false := by decide +kernel
  have returns := AttendedRun.returns_of_phase
    (fun ending same => by cases atCycle.symm.trans same) ended
  have again := (halt_settled byGestures returns).2.2.2.2.1
  rw [facts.2] at again
  exact ⟨byGestures, _, _, returns, facts.1, facts.2, again⟩

/-- A program that returns with nothing on the stack, and somebody who requests a stop right before
the cycle. The run ends with the fault, and the next run for another reason, though nothing has
happened in between. -/
theorem late_stop_request_changes_reason :
    let machine := initial.happen .quiet (.load [0x00, 0xEE])
    let others : Nat → Peripherals → Peripherals := fun step peripherals =>
      if step = 2 then peripherals.handle .requestStop else peripherals
    let found := AttendedRun.amid .quiet others ⟨.checkStop, machine, []⟩
    AttendedRun.ByGestures others ∧ ∃ last left,
      (found 2).Returns .quiet (.fault (.stack .underflow)) last left ∧
      ∀ (elsewhere : Surroundings) (more : List Answer) (fuel : Nat),
        last.run elsewhere more (fuel + 3) = some (.halted .requested, last, more) := by
  intro machine others found
  have byGestures : AttendedRun.ByGestures others := by
    intro step peripherals
    by_cases late : step = 2
    · exact ⟨[.requestStop], by rw [show others step peripherals = _ from if_pos late]; rfl⟩
    · exact ⟨[], by rw [show others step peripherals = _ from if_neg late]; rfl⟩
  have atCycle : (found 2).phase = .cycle := by decide +kernel
  have ended :
      ((found 2).advance .quiet).phase = .ended (.halted (.fault (.stack .underflow))) := by
    decide +kernel
  have stop : ((found 2).advance .quiet).machine.keypad.stopRequested = true := by decide +kernel
  exact ⟨byGestures, _, _,
    AttendedRun.returns_of_phase (fun ending same => by cases atCycle.symm.trans same) ended,
    run_of_stop stop⟩

end Machine

end Chip8Machine
