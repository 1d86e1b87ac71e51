import Chip8Machine.Proofs.Cycle

/-!
How an instruction moves through the program: what it does to the program counter and to the open
calls.
-/

set_option autoImplicit false

namespace Chip8Machine

def Instruction.isJump : Instruction → Bool
  | .jump _ => true
  | .jumpOffset _ => true
  | .call _ => true
  | .ret => true
  | _ => false

inductive Flow (before after : Core) : Instruction → Prop
  | onward {instruction : Instruction} (straight : instruction.isJump = false)
      (kept : after.stack = before.stack)
      (moved : after.registers.counter = before.registers.counter + 2 ∨
        after.registers.counter = before.registers.counter + 4) : Flow before after instruction
  | jump {target : Address} (kept : after.stack = before.stack)
      (jumped : after.registers.counter = target.toNat) : Flow before after (.jump target)
  | offset {base : Address} (kept : after.stack = before.stack)
      (jumped : after.registers.counter = (before.registers.get 0).toNat + base.toNat) :
      Flow before after (.jumpOffset base)
  | call {target : Address}
      (pushed : after.stack.addresses =
        UInt16.ofNat (before.registers.counter + 2) :: before.stack.addresses)
      (jumped : after.registers.counter = target.toNat) : Flow before after (.call target)
  | ret {address : UInt16} (popped : before.stack.addresses = address :: after.stack.addresses)
      (jumped : after.registers.counter = address.toNat) : Flow before after .ret

namespace Machine

private theorem flow_of_update {machine after : Machine} {registers : Registers}
    {instruction : Instruction} {demand : Demand} (straight : instruction.isJump = false)
    (sameCounter : registers.counter = machine.registers.counter)
    (updates : machine.update registers = (after, .ok demand)) :
    Flow machine.toCore after.toCore instruction := by
  cases updates
  exact .onward straight rfl (Or.inl (congrArg (· + 2) sameCounter))

theorem execute_flow {machine after : Machine} {instruction : Instruction} {demand : Demand}
    {listener : ToneListener}
    (succeeds : machine.execute listener instruction = (after, .ok demand)) :
    Flow machine.toCore after.toCore instruction := by
  cases instruction with
  | jump target =>
      cases succeeds
      exact .jump rfl rfl
  | jumpOffset base =>
      cases succeeds
      exact .offset rfl rfl
  | call target =>
      cases push : machine.stack.push
          (UInt16.ofNat (machine.registers.counter + Layout.wordSize)) with
      | ok stack =>
          simp only [execute, push] at succeeds
          cases succeeds
          exact .call ((CallStack.push_eq_ok_iff _ _ _).mp push) rfl
      | error cause =>
          simp only [execute, push, fail] at succeeds
          cases succeeds
  | ret =>
      cases pop : machine.stack.pop with
      | ok popped =>
          obtain ⟨address, rest⟩ := popped
          simp only [execute, pop] at succeeds
          cases succeeds
          exact .ret ((CallStack.pop_eq_ok_iff _ _ _).mp pop) rfl
      | error cause =>
          simp only [execute, pop, fail] at succeeds
          cases succeeds
  | skip test answer =>
      cases succeeds
      refine .onward rfl rfl ?_
      change Advance.apply _ _ = _ ∨ Advance.apply _ _ = _
      unfold Advance.skipIf
      split
      · exact Or.inr rfl
      · exact Or.inl rfl
  | draw | storeDecimal | storeThrough =>
      simp only [execute] at succeeds
      split at succeeds
      · cases succeeds
        exact .onward rfl rfl (Or.inl rfl)
      · cases succeeds
  | loadThrough last =>
      simp only [execute] at succeeds
      split at succeeds
      · refine flow_of_update rfl ?_ succeeds
        simp only [Registers.counter_fill]
      · cases succeeds
  | arithmetic operation register other =>
      exact flow_of_update rfl (Registers.counter_calculate _ _ _ _) succeeds
  | _ =>
      cases succeeds
      exact .onward rfl rfl (Or.inl rfl)

/-- A cycle either executes nothing and changes nothing, or it starts inside of memory and follows
the flow of the instruction that it executes. -/
theorem next_flow (machine : Machine) (surroundings : Surroundings) :
    machine.executed? surroundings = none ∧ (machine.next surroundings).1 = machine ∨
      ∃ instruction, machine.executed? surroundings = some instruction ∧
        machine.registers.counter + 1 < Layout.memorySize ∧
        Flow machine.toCore (machine.next surroundings).1.toCore instruction := by
  rcases next_toCore_cases machine surroundings with
    idle | ⟨instruction, after, executed, inside, succeeds, sameCore⟩
  · exact Or.inl idle
  · refine Or.inr ⟨instruction, executed, inside, ?_⟩
    rw [sameCore]
    exact execute_flow succeeds

theorem flow_of_executed {machine : Machine} {surroundings : Surroundings}
    {instruction : Instruction} (executed : machine.executed? surroundings = some instruction) :
    Flow machine.toCore (machine.next surroundings).1.toCore instruction := by
  rcases next_flow machine surroundings with ⟨idle, _⟩ | ⟨found, same, _, flow⟩
  · rw [executed] at idle
    cases idle
  · rw [executed] at same
    cases same
    exact flow

/-- Whatever happens outside of the cycles leaves the program counter and the open calls alone. -/
theorem happen_flow (surroundings : Surroundings) (machine : Machine) (happening : Happening) :
    machine.executedBy? surroundings happening = none ∧
        (machine.happen surroundings happening).stack = machine.stack ∧
        (machine.happen surroundings happening).registers.counter = machine.registers.counter ∨
      ∃ instruction, machine.executedBy? surroundings happening = some instruction ∧
        machine.registers.counter + 1 < Layout.memorySize ∧
        Flow machine.toCore (machine.happen surroundings happening).toCore instruction := by
  cases happening with
  | cycle =>
      rcases next_flow machine surroundings with ⟨idle, same⟩ | flow
      · left
        refine ⟨idle, ?_, ?_⟩
        · exact congrArg (fun after : Machine => after.stack) same
        · exact congrArg (fun after : Machine => after.registers.counter) same
      · exact Or.inr flow
  | receive register key => exact Or.inl ⟨rfl, rfl, rfl⟩
  | tick => exact Or.inl ⟨rfl, rfl, rfl⟩
  | gesture gesture => exact Or.inl ⟨rfl, rfl, rfl⟩
  | write start data =>
      left
      refine ⟨rfl, ?_, ?_⟩ <;>
      · simp only [happen, write]
        cases machine.memory.write start data <;> rfl
  | load program =>
      left
      refine ⟨rfl, ?_, ?_⟩ <;>
      · simp only [happen, load]
        cases machine.memory.load program <;> rfl

end Machine

end Chip8Machine
