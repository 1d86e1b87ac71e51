import Chip8Machine.History
import Chip8Machine.Proofs.Refusal

/-!
What one cycle does: it finds no word, or its word is refused, or its instruction is executed and
the display is called if the instruction asks for it.
-/

set_option autoImplicit false

namespace Chip8Machine

theorem Memory.exists_fetch_eq_ok_iff (memory : Memory) (pointer : Nat) :
    (∃ word, memory.fetch pointer = .ok word) ↔ pointer + 1 < Layout.memorySize := by
  cases fetched : memory.fetch pointer with
  | ok word =>
      constructor
      · intro _
        apply Nat.lt_of_not_le
        intro outside
        have failed := (memory.fetch_eq_error_iff pointer _).mpr ⟨outside, rfl⟩
        rw [fetched] at failed
        cases failed
      · intro _
        exact ⟨word, rfl⟩
  | error cause =>
      have outside := ((memory.fetch_eq_error_iff pointer cause).mp fetched).1
      constructor
      · intro ⟨word, impossible⟩
        cases impossible
      · intro inside
        omega

namespace Machine

def conclude (machine : Machine) (surroundings : Surroundings) : Demand → Machine × Outcome
  | .draw =>
      match machine.present surroundings with
      | (shown, none) => (shown, .done .draw)
      | (shown, some text) => (shown, .raised text)
  | demand => (machine, .done demand)

/-- Only a call of the display can change anything, and it is beyond the reach of the core. -/
theorem conclude_cases (machine : Machine) (surroundings : Surroundings) (demand : Demand) :
    (∃ shown, machine.conclude surroundings demand = (shown, .done demand) ∧
        shown.toCore = machine.toCore ∧ (demand = .draw ∨ shown = machine)) ∨
      ∃ shown text, machine.conclude surroundings demand = (shown, .raised text) ∧
        shown.toCore = machine.toCore := by
  cases demand with
  | draw =>
      have same : (machine.present surroundings).1.toCore = machine.toCore := rfl
      unfold conclude
      cases presented : machine.present surroundings with
      | mk shown raised =>
          rw [presented] at same
          cases raised with
          | none => exact Or.inl ⟨shown, rfl, same, Or.inl rfl⟩
          | some text => exact Or.inr ⟨shown, text, rfl, same⟩
  | nothing => exact Or.inl ⟨machine, rfl, rfl, Or.inr rfl⟩
  | awaitKey register => exact Or.inl ⟨machine, rfl, rfl, Or.inr rfl⟩

theorem conclude_toCore (machine : Machine) (surroundings : Surroundings) (demand : Demand) :
    (machine.conclude surroundings demand).1.toCore = machine.toCore := by
  rcases machine.conclude_cases surroundings demand with
    ⟨shown, concluded, same, _⟩ | ⟨shown, text, concluded, same⟩
  · rw [concluded]
    exact same
  · rw [concluded]
    exact same

theorem conclude_ne_fault (machine : Machine) (surroundings : Surroundings) (demand : Demand)
    (fault : Fault) : (machine.conclude surroundings demand).2 ≠ .fault fault := by
  intro failed
  rcases machine.conclude_cases surroundings demand with
    ⟨shown, concluded, _⟩ | ⟨shown, text, concluded, _⟩
  · rw [concluded] at failed
    cases failed
  · rw [concluded] at failed
    cases failed

theorem next_of_outside {machine : Machine} (surroundings : Surroundings)
    (outside : Layout.memorySize ≤ machine.registers.counter + 1) :
    machine.next surroundings =
      (machine, .fault (.word (.truncated machine.registers.counter Layout.memorySize))) := by
  have failed := (machine.memory.fetch_eq_error_iff machine.registers.counter _).mpr ⟨outside, rfl⟩
  simp only [next, failed]

theorem next_of_fault {machine : Machine} {word : Word} {fault : Fault}
    (surroundings : Surroundings)
    (fetched : machine.memory.fetch machine.registers.counter = .ok word)
    (refused : machine.fault? (Instruction.decode word) = some fault) :
    machine.next surroundings = (machine, .fault fault) := by
  simp only [next, fetched, perform, execute_of_fault _ refused]

theorem next_of_success {machine after : Machine} {word : Word} {demand : Demand}
    (surroundings : Surroundings)
    (fetched : machine.memory.fetch machine.registers.counter = .ok word)
    (succeeds : machine.execute surroundings.tone (Instruction.decode word) =
      (after, .ok demand)) :
    machine.next surroundings = after.conclude surroundings demand := by
  simp only [next, fetched, perform, succeeds]
  cases demand with
  | draw => rfl
  | nothing => rfl
  | awaitKey register => rfl

/-- A cycle ends with a fault and has changed nothing, or the instruction at the counter
succeeds. -/
theorem next_cases (machine : Machine) (surroundings : Surroundings) :
    (∃ fault, machine.next surroundings = (machine, .fault fault)) ∨
      ∃ word after, machine.memory.fetch machine.registers.counter = .ok word ∧
        machine.execute surroundings.tone (Instruction.decode word) =
          (after, .ok (Instruction.decode word).demand) ∧
        machine.next surroundings =
          after.conclude surroundings (Instruction.decode word).demand := by
  by_cases inside : machine.registers.counter + 1 < Layout.memorySize
  · obtain ⟨word, fetched⟩ := (machine.memory.exists_fetch_eq_ok_iff _).mpr inside
    rcases execute_cases surroundings.tone machine (Instruction.decode word) with
      ⟨fault, refused, _⟩ | ⟨_, after, succeeds⟩
    · exact Or.inl ⟨fault, next_of_fault surroundings fetched refused⟩
    · exact Or.inr ⟨word, after, fetched, succeeds, next_of_success surroundings fetched succeeds⟩
  · exact Or.inl ⟨_, next_of_outside surroundings (by omega)⟩

theorem executed?_of_fault {machine after : Machine} {surroundings : Surroundings} {fault : Fault}
    (failed : machine.next surroundings = (after, .fault fault)) :
    machine.executed? surroundings = none := by
  unfold executed?
  rw [failed]

theorem executed?_of_success {machine after : Machine} {word : Word} {demand : Demand}
    (surroundings : Surroundings)
    (fetched : machine.memory.fetch machine.registers.counter = .ok word)
    (succeeds : machine.execute surroundings.tone (Instruction.decode word) =
      (after, .ok demand)) :
    machine.executed? surroundings = some (Instruction.decode word) := by
  have noFault := conclude_ne_fault after surroundings demand
  unfold executed? instruction?
  rw [next_of_success surroundings fetched succeeds, fetched]
  split
  · rename_i fault found
    exact absurd found (noFault fault)
  · rfl

/-- A cycle that executes nothing changes nothing. Any other cycle leaves the core that the executed
instruction leaves, whatever the display does. -/
theorem next_toCore_cases (machine : Machine) (surroundings : Surroundings) :
    machine.executed? surroundings = none ∧ (machine.next surroundings).1 = machine ∨
      ∃ instruction after, machine.executed? surroundings = some instruction ∧
        machine.registers.counter + 1 < Layout.memorySize ∧
        machine.execute surroundings.tone instruction = (after, .ok instruction.demand) ∧
        (machine.next surroundings).1.toCore = after.toCore := by
  rcases next_cases machine surroundings with
    ⟨fault, failed⟩ | ⟨word, after, fetched, succeeds, concluded⟩
  · exact Or.inl ⟨executed?_of_fault failed, by rw [failed]⟩
  · have inside := (machine.memory.exists_fetch_eq_ok_iff _).mp ⟨word, fetched⟩
    have executed := executed?_of_success surroundings fetched succeeds
    refine Or.inr ⟨_, after, executed, inside, succeeds, ?_⟩
    rw [concluded, conclude_toCore]

/-! ### Exact faults -/

/-- The fault of a cycle: there is no whole word at the counter, or its word is refused. -/
def CycleRefuses (machine : Machine) (fault : Fault) : Prop :=
  Layout.memorySize ≤ machine.registers.counter + 1 ∧
      fault = .word (.truncated machine.registers.counter Layout.memorySize) ∨
    ∃ word, machine.memory.fetch machine.registers.counter = .ok word ∧
      machine.Refuses word fault

theorem next_of_refused {machine : Machine} (surroundings : Surroundings) {fault : Fault}
    (refused : machine.CycleRefuses fault) :
    machine.next surroundings = (machine, .fault fault) := by
  rcases refused with ⟨outside, same⟩ | ⟨word, fetched, refuses⟩
  · rw [same]
    exact next_of_outside surroundings outside
  · exact next_of_fault surroundings fetched ((refuses_iff machine word fault).mp refuses)

theorem cycleRefuses_of_next {machine : Machine} {surroundings : Surroundings} {fault : Fault}
    (failed : (machine.next surroundings).2 = .fault fault) : machine.CycleRefuses fault := by
  by_cases inside : machine.registers.counter + 1 < Layout.memorySize
  · obtain ⟨word, fetched⟩ := (machine.memory.exists_fetch_eq_ok_iff _).mpr inside
    right
    refine ⟨word, fetched, (refuses_iff machine word fault).mpr ?_⟩
    rcases execute_cases surroundings.tone machine (Instruction.decode word) with
      ⟨found, refused, _⟩ | ⟨_, after, succeeds⟩
    · rw [next_of_fault surroundings fetched refused] at failed
      cases failed
      exact refused
    · rw [next_of_success surroundings fetched succeeds] at failed
      exact absurd failed (conclude_ne_fault after surroundings _ fault)
  · rw [next_of_outside surroundings (by omega)] at failed
    cases failed
    exact Or.inl ⟨by omega, rfl⟩

theorem unchanged_of_fault {machine after : Machine} {surroundings : Surroundings} {fault : Fault}
    (failed : machine.next surroundings = (after, .fault fault)) : after = machine := by
  have refused : machine.CycleRefuses fault := cycleRefuses_of_next (by rw [failed])
  rw [next_of_refused surroundings refused] at failed
  cases failed
  rfl

/-- A word is refused in exactly the cases that `Refuses` lists. A cycle fails for the same
reasons and for one more, a counter without a whole word behind it. Either way the machine stays
as it was. -/
theorem refusal_exact (machine : Machine) (listener : ToneListener) (surroundings : Surroundings)
    (word : Word) (fault : Fault) :
    ((machine.perform listener word).2 = .error fault ↔ machine.Refuses word fault) ∧
    (machine.perform listener word = (machine, .error fault) ↔ machine.Refuses word fault) ∧
    ((machine.next surroundings).2 = .fault fault ↔ machine.CycleRefuses fault) ∧
    (machine.next surroundings = (machine, .fault fault) ↔ machine.CycleRefuses fault) := by
  have exactly : (machine.perform listener word).2 = .error fault ↔ machine.Refuses word fault :=
    (execute_eq_error_iff listener machine _ fault).trans (refuses_iff machine word fault).symm
  refine ⟨exactly, ⟨?_, ?_⟩, ⟨cycleRefuses_of_next, ?_⟩, ⟨?_, next_of_refused surroundings⟩⟩
  · intro failed
    exact exactly.mp (by rw [failed])
  · intro refuses
    exact execute_of_fault listener ((refuses_iff machine word fault).mp refuses)
  · intro refused
    rw [next_of_refused surroundings refused]
  · intro failed
    exact cycleRefuses_of_next (by rw [failed])

end Machine

end Chip8Machine
