import Chip8Machine.Cycle
import Chip8Machine.Proofs.Decoding

/-!
When an instruction is refused, and what a refusal leaves behind.

The conditions are told twice. `Machine.fault?` reads them off an instruction; `Machine.Refuses`
reads them off a word and knows nothing about decoding. A refused instruction leaves the machine it
found.
-/

set_option autoImplicit false

namespace Chip8Machine

def Instruction.demand : Instruction → Demand
  | .clearScreen => .draw
  | .draw _ _ _ => .draw
  | .awaitKey register => .awaitKey register
  | _ => .nothing

namespace Machine

/-- The fault of an access to `count` bytes from the index on. -/
def reachFault? (machine : Machine) (count : Nat) : Option Fault :=
  if Memory.Covers machine.registers.index.toNat count then none
  else some (.memory (Memory.outside machine.registers.index.toNat))

def fault? (machine : Machine) : Instruction → Option Fault
  | .ret => if machine.stack.depth = 0 then some (.stack .underflow) else none
  | .call _ =>
      if machine.stack.depth = Layout.stackLimit then
        some (.stack (.overflow Layout.stackLimit))
      else none
  | .draw _ _ rows => machine.reachFault? rows.val
  | .storeDecimal _ => machine.reachFault? 3
  | .storeThrough last => machine.reachFault? (last.val + 1)
  | .loadThrough last => machine.reachFault? (last.val + 1)
  | _ => none

theorem reachFault?_eq_some_iff (machine : Machine) (count : Nat) (fault : Fault) :
    machine.reachFault? count = some fault ↔
      Layout.memorySize < machine.registers.index.toNat + count ∧
        fault = .memory (Memory.outside machine.registers.index.toNat) := by
  have bound : Memory.Covers machine.registers.index.toNat count ↔
      machine.registers.index.toNat + count ≤ Layout.memorySize := Iff.rfl
  unfold reachFault?
  by_cases covers : Memory.Covers machine.registers.index.toNat count
  · rw [if_pos covers]
    constructor
    · intro impossible
      cases impossible
    · intro outside
      have inside := bound.mp covers
      omega
  · rw [if_neg covers]
    have outside := mt bound.mpr covers
    constructor
    · intro failure
      cases failure
      exact ⟨by omega, rfl⟩
    · intro expected
      rw [expected.2]

example : ({ registers := { index := 4096 } } : Machine).reachFault? 0 = none := by decide

example : ({ registers := { index := 4097 } } : Machine).reachFault? 0 =
    some (.memory (.outOfBounds 4097 4096)) := by decide

/-! ### Execution -/

private theorem push_or_full (stack : CallStack) (address : UInt16) :
    (∃ pushed, stack.push address = .ok pushed ∧ stack.depth ≠ Layout.stackLimit) ∨
      stack.push address = .error (.overflow Layout.stackLimit) ∧
        stack.depth = Layout.stackLimit := by
  cases push : stack.push address with
  | ok pushed =>
      have grown := (CallStack.push_eq_ok_iff _ _ _).mp push
      have bound := pushed.depthBound
      rw [grown, List.length_cons] at bound
      have room : stack.depth ≠ Layout.stackLimit := by
        unfold CallStack.depth
        omega
      exact Or.inl ⟨pushed, rfl, room⟩
  | error cause =>
      obtain ⟨full, same⟩ := (CallStack.push_eq_error_iff _ _ _).mp push
      rw [same]
      exact Or.inr ⟨rfl, full⟩

private theorem pop_or_empty (stack : CallStack) :
    (∃ address rest, stack.pop = .ok (address, rest) ∧ stack.depth ≠ 0) ∨
      stack.pop = .error .underflow ∧ stack.depth = 0 := by
  unfold CallStack.depth
  cases pop : stack.pop with
  | ok popped =>
      obtain ⟨address, rest⟩ := popped
      have shape := (CallStack.pop_eq_ok_iff _ _ _).mp pop
      have busy : stack.addresses.length ≠ 0 := by
        rw [shape, List.length_cons]
        omega
      exact Or.inl ⟨address, rest, rfl, busy⟩
  | error cause =>
      obtain ⟨empty, same⟩ := (CallStack.pop_eq_error_iff _ _).mp pop
      rw [same, empty]
      exact Or.inr ⟨rfl, rfl⟩

private theorem read_or_outside (machine : Machine) (count : Nat) :
    (∃ bytes, machine.memory.read machine.registers.index.toNat count = .ok bytes ∧
        machine.reachFault? count = none) ∨
      ∃ cause, machine.memory.read machine.registers.index.toNat count = .error cause ∧
        machine.reachFault? count = some (.memory cause) := by
  unfold reachFault? Memory.read
  by_cases covers : Memory.Covers machine.registers.index.toNat count
  · rw [if_pos covers, if_pos covers]
    exact Or.inl ⟨_, rfl, rfl⟩
  · rw [if_neg covers, if_neg covers]
    exact Or.inr ⟨_, rfl, rfl⟩

private theorem write_or_outside (machine : Machine) (data : List UInt8) (count : Nat)
    (length : data.length = count) :
    (∃ written, machine.memory.write machine.registers.index.toNat data = .ok written ∧
        machine.reachFault? count = none) ∨
      ∃ cause, machine.memory.write machine.registers.index.toNat data = .error cause ∧
        machine.reachFault? count = some (.memory cause) := by
  subst length
  unfold reachFault? Memory.write
  by_cases covers : Memory.Covers machine.registers.index.toNat data.length
  · rw [dif_pos covers, if_pos covers]
    exact Or.inl ⟨_, rfl, rfl⟩
  · rw [dif_neg covers, if_neg covers]
    exact Or.inr ⟨_, rfl, rfl⟩

/-- An instruction is either refused, and then nothing has changed, or it succeeds. -/
theorem execute_cases (listener : ToneListener) (machine : Machine) (instruction : Instruction) :
    (∃ fault, machine.fault? instruction = some fault ∧
        machine.execute listener instruction = (machine, .error fault)) ∨
      machine.fault? instruction = none ∧
        ∃ after, machine.execute listener instruction = (after, .ok instruction.demand) := by
  cases instruction with
  | call target =>
      rcases push_or_full machine.stack
          (UInt16.ofNat (machine.registers.counter + Layout.wordSize)) with
        ⟨stack, push, room⟩ | ⟨push, full⟩
      · right
        refine ⟨if_neg room, ?_⟩
        simp only [execute, push]
        exact ⟨_, rfl⟩
      · left
        refine ⟨_, if_pos full, ?_⟩
        simp only [execute, push, fail]
  | ret =>
      rcases pop_or_empty machine.stack with ⟨address, rest, pop, busy⟩ | ⟨pop, empty⟩
      · right
        refine ⟨if_neg busy, ?_⟩
        simp only [execute, pop]
        exact ⟨_, rfl⟩
      · left
        refine ⟨_, if_pos empty, ?_⟩
        simp only [execute, pop, fail]
  | draw column row rows =>
      rcases read_or_outside machine rows.val with
        ⟨sprite, read, inside⟩ | ⟨cause, read, outside⟩
      · right
        refine ⟨inside, ?_⟩
        simp only [execute, read]
        exact ⟨_, rfl⟩
      · left
        refine ⟨.memory cause, outside, ?_⟩
        simp only [execute, read, fail]
  | storeDecimal register =>
      rcases write_or_outside machine (decimalDigits (machine.registers.get register)) 3 rfl with
        ⟨memory, write, inside⟩ | ⟨cause, write, outside⟩
      · right
        refine ⟨inside, ?_⟩
        simp only [execute, write]
        exact ⟨_, rfl⟩
      · left
        refine ⟨.memory cause, outside, ?_⟩
        simp only [execute, write, fail]
  | storeThrough last =>
      rcases write_or_outside machine (machine.registers.through last) (last.val + 1)
          (machine.registers.length_through last) with
        ⟨memory, write, inside⟩ | ⟨cause, write, outside⟩
      · right
        refine ⟨inside, ?_⟩
        simp only [execute, write]
        exact ⟨_, rfl⟩
      · left
        refine ⟨.memory cause, outside, ?_⟩
        simp only [execute, write, fail]
  | loadThrough last =>
      rcases read_or_outside machine (last.val + 1) with
        ⟨values, read, inside⟩ | ⟨cause, read, outside⟩
      · right
        refine ⟨inside, ?_⟩
        simp only [execute, read]
        exact ⟨_, rfl⟩
      · left
        refine ⟨.memory cause, outside, ?_⟩
        simp only [execute, read, fail]
  | _ => exact Or.inr ⟨rfl, _, rfl⟩

theorem execute_of_fault {machine : Machine} {instruction : Instruction} {fault : Fault}
    (listener : ToneListener) (refused : machine.fault? instruction = some fault) :
    machine.execute listener instruction = (machine, .error fault) := by
  rcases execute_cases listener machine instruction with ⟨found, same, failed⟩ | ⟨none, _⟩
  · rw [refused] at same
    cases same
    exact failed
  · rw [refused] at none
    cases none

theorem execute_of_no_fault {machine : Machine} {instruction : Instruction}
    (listener : ToneListener) (possible : machine.fault? instruction = none) :
    ∃ after, machine.execute listener instruction = (after, .ok instruction.demand) := by
  rcases execute_cases listener machine instruction with ⟨found, same, _⟩ | ⟨_, succeeds⟩
  · rw [possible] at same
    cases same
  · exact succeeds

theorem execute_eq_error_iff (listener : ToneListener) (machine : Machine)
    (instruction : Instruction) (fault : Fault) :
    (machine.execute listener instruction).2 = .error fault ↔
      machine.fault? instruction = some fault := by
  constructor
  · intro failed
    cases refused : machine.fault? instruction with
    | none =>
        obtain ⟨after, succeeds⟩ := execute_of_no_fault listener refused
        rw [succeeds] at failed
        cases failed
    | some found =>
        rw [execute_of_fault listener refused] at failed
        cases failed
        rfl
  · intro refused
    rw [execute_of_fault listener refused]

/-! ### Words -/

theorem perform_of_encodes {word : Word} (machine : Machine) (listener : ToneListener)
    (instruction : Instruction) (encodes : Instruction.Encodes word instruction) :
    machine.perform listener word = machine.execute listener instruction := by
  unfold perform
  rw [(Instruction.decode_eq_iff word instruction).mpr encodes]

theorem perform_of_no_fault {word : Word} {machine : Machine} (listener : ToneListener)
    (instruction : Instruction) (encodes : Instruction.Encodes word instruction)
    (possible : machine.fault? instruction = none) :
    ∃ after, machine.perform listener word = (after, .ok instruction.demand) := by
  rw [machine.perform_of_encodes listener instruction encodes]
  exact execute_of_no_fault listener possible

inductive Refuses (machine : Machine) (word : Word) : Fault → Prop
  | underflow (isRet : word.toNat = 0x00EE) (empty : machine.stack.depth = 0) :
      Refuses machine word (.stack .underflow)
  | overflow (isCall : word.lead = 0x2) (full : machine.stack.depth = Layout.stackLimit) :
      Refuses machine word (.stack (.overflow Layout.stackLimit))
  | draw (isDraw : word.lead = 0xD)
      (outside : Layout.memorySize < machine.registers.index.toNat + word.n.val) :
      Refuses machine word (.memory
        (.outOfBounds (max machine.registers.index.toNat Layout.memorySize) Layout.memorySize))
  | decimal (isDevice : word.lead = 0xF) (low : word.kk.toNat = 0x33)
      (outside : Layout.memorySize < machine.registers.index.toNat + 3) :
      Refuses machine word (.memory
        (.outOfBounds (max machine.registers.index.toNat Layout.memorySize) Layout.memorySize))
  | through (isDevice : word.lead = 0xF) (low : word.kk.toNat = 0x55 ∨ word.kk.toNat = 0x65)
      (outside : Layout.memorySize < machine.registers.index.toNat + word.x.val + 1) :
      Refuses machine word (.memory
        (.outOfBounds (max machine.registers.index.toNat Layout.memorySize) Layout.memorySize))

theorem refuses_iff (machine : Machine) (word : Word) (fault : Fault) :
    machine.Refuses word fault ↔ machine.fault? (Instruction.decode word) = some fault := by
  constructor
  · intro refuses
    cases refuses with
    | underflow isRet empty =>
        rw [(Instruction.decode_eq_iff word .ret).mpr isRet]
        exact if_pos empty
    | overflow isCall full =>
        rw [(Instruction.decode_eq_iff word (.call _)).mpr ⟨isCall, rfl⟩]
        exact if_pos full
    | draw isDraw outside =>
        rw [(Instruction.decode_eq_iff word (.draw _ _ _)).mpr ⟨isDraw, rfl, rfl, rfl⟩]
        exact (reachFault?_eq_some_iff _ _ _).mpr ⟨outside, rfl⟩
    | decimal isDevice low outside =>
        rw [(Instruction.decode_eq_iff word (.storeDecimal _)).mpr ⟨isDevice, low, rfl⟩]
        exact (reachFault?_eq_some_iff _ _ _).mpr ⟨outside, rfl⟩
    | through isDevice low outside =>
        rcases low with store | load
        · rw [(Instruction.decode_eq_iff word (.storeThrough _)).mpr ⟨isDevice, store, rfl⟩]
          exact (reachFault?_eq_some_iff _ _ _).mpr ⟨outside, rfl⟩
        · rw [(Instruction.decode_eq_iff word (.loadThrough _)).mpr ⟨isDevice, load, rfl⟩]
          exact (reachFault?_eq_some_iff _ _ _).mpr ⟨outside, rfl⟩
  · intro refused
    have encodes := Instruction.encodes_decode word
    generalize Instruction.decode word = instruction at refused encodes
    cases instruction with
    | ret =>
        simp only [fault?, Option.ite_none_right_eq_some, Option.some.injEq] at refused
        obtain ⟨empty, rfl⟩ := refused
        exact .underflow encodes empty
    | call target =>
        simp only [fault?, Option.ite_none_right_eq_some, Option.some.injEq] at refused
        obtain ⟨full, rfl⟩ := refused
        exact .overflow encodes.1 full
    | draw column row rows =>
        obtain ⟨outside, rfl⟩ := (reachFault?_eq_some_iff _ _ _).mp refused
        obtain ⟨isDraw, _, _, rfl⟩ := encodes
        exact .draw isDraw outside
    | storeDecimal register =>
        obtain ⟨outside, rfl⟩ := (reachFault?_eq_some_iff _ _ _).mp refused
        obtain ⟨isDevice, low, _⟩ := encodes
        exact .decimal isDevice low outside
    | storeThrough last =>
        obtain ⟨outside, rfl⟩ := (reachFault?_eq_some_iff _ _ _).mp refused
        obtain ⟨isDevice, low, rfl⟩ := encodes
        exact .through isDevice (Or.inl low) outside
    | loadThrough last =>
        obtain ⟨outside, rfl⟩ := (reachFault?_eq_some_iff _ _ _).mp refused
        obtain ⟨isDevice, low, rfl⟩ := encodes
        exact .through isDevice (Or.inr low) outside
    | _ => cases refused

end Machine

end Chip8Machine
