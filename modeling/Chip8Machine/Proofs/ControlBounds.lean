import Chip8Machine.Proofs.ControlFlow

/-!
Bounds on the program counter and on the return addresses, in every state that a history reaches.

Neither bound is inductive alone: a return takes the counter to an address from the stack, and a
call puts the counter on the stack.
-/

set_option autoImplicit false

namespace Chip8Machine

/-- The highest address that a jump reaches: the largest base and the largest offset. -/
abbrev Layout.counterLimit : Nat := 0xFFF + 0xFF

structure Core.Contained (core : Core) : Prop where
  counterBound : core.registers.counter ≤ Layout.counterLimit
  returnBounds : ∀ address ∈ core.stack.addresses,
    2 ≤ address.toNat ∧ address.toNat ≤ Layout.memorySize

theorem toNat_returnAddress {counter : Nat} (bound : counter ≤ Layout.counterLimit) :
    (UInt16.ofNat (counter + 2)).toNat = counter + 2 := by
  have limit : Layout.counterLimit = 4350 := rfl
  rw [UInt16.toNat_ofNat']
  omega

theorem Flow.contained {before after : Core} {instruction : Instruction}
    (flow : Flow before after instruction)
    (inside : before.registers.counter + 1 < Layout.memorySize)
    (contained : before.Contained) : after.Contained := by
  have size : Layout.memorySize = 4096 := rfl
  have limit : Layout.counterLimit = 4350 := rfl
  cases flow with
  | onward straight kept moved =>
      constructor
      · omega
      · rw [kept]
        exact contained.returnBounds
  | @jump target kept jumped =>
      have bound := target.isLt
      constructor
      · omega
      · rw [kept]
        exact contained.returnBounds
  | @offset base kept jumped =>
      have baseBound := base.isLt
      have registerBound := (before.registers.get 0).toNat_lt
      constructor
      · omega
      · rw [kept]
        exact contained.returnBounds
  | @call target pushed jumped =>
      have bound := target.isLt
      constructor
      · omega
      · intro address member
        rw [pushed] at member
        rcases List.mem_cons.mp member with same | below
        · rw [same, toNat_returnAddress contained.counterBound]
          omega
        · exact contained.returnBounds address below
  | @ret address popped jumped =>
      have top := contained.returnBounds address (by rw [popped]; exact List.mem_cons_self)
      constructor
      · omega
      · intro other member
        exact contained.returnBounds other (by rw [popped]; exact List.mem_cons_of_mem _ member)

namespace Machine

theorem happen_contained (surroundings : Surroundings) (happening : Happening) {machine : Machine}
    (contained : machine.toCore.Contained) :
    (machine.happen surroundings happening).toCore.Contained := by
  rcases happen_flow surroundings machine happening with
    ⟨_, sameStack, sameCounter⟩ | ⟨instruction, _, inside, flow⟩
  · constructor
    · rw [sameCounter]
      exact contained.counterBound
    · rw [sameStack]
      exact contained.returnBounds
  · exact flow.contained inside contained

theorem happenAll_contained (surroundings : Surroundings) (happenings : List Happening)
    {machine : Machine} (contained : machine.toCore.Contained) :
    (machine.happenAll surroundings happenings).toCore.Contained := by
  induction happenings generalizing machine with
  | nil => exact contained
  | cons happening rest ih => exact ih (happen_contained surroundings happening contained)

theorem fresh_contained (random : RandomBytes) (listener : Listener) :
    (fresh random listener).toCore.Contained := by
  constructor
  · change Layout.programStart ≤ Layout.counterLimit
    decide
  · intro address member
    cases member

/-- Whatever a program does to itself and whatever happens in between, the counter and the return
addresses keep their bounds. So a call stores the address behind it without losing a bit, and a
return goes to an address of memory or right behind it. -/
theorem control_bounded (surroundings : Surroundings) (random : RandomBytes) (listener : Listener)
    (program : List UInt8) (happenings : List Happening) :
    let reached :=
      (fresh random listener).happenAll surroundings (.load program :: happenings)
    reached.registers.counter ≤ Layout.counterLimit ∧
    reached.stack.depth ≤ Layout.stackLimit ∧
    (∀ address ∈ reached.stack.addresses,
      2 ≤ address.toNat ∧ address.toNat ≤ Layout.memorySize) ∧
    (UInt16.ofNat (reached.registers.counter + 2)).toNat = reached.registers.counter + 2 ∧
    (∀ target, reached.executed? surroundings = some (.call target) →
      ∃ address, (reached.next surroundings).1.stack.addresses =
          address :: reached.stack.addresses ∧
        address.toNat = reached.registers.counter + 2) ∧
    (reached.executed? surroundings = some .ret →
      ∃ address, reached.stack.addresses =
          address :: (reached.next surroundings).1.stack.addresses ∧
        (reached.next surroundings).1.registers.counter = address.toNat ∧
        address.toNat ≤ Layout.memorySize) := by
  intro reached
  have contained : reached.toCore.Contained :=
    happenAll_contained surroundings _ (fresh_contained random listener)
  refine ⟨contained.counterBound, reached.stack.depth_le, contained.returnBounds,
    toNat_returnAddress contained.counterBound, ?_, ?_⟩
  · intro target calls
    cases flow_of_executed calls with
    | onward straight => cases straight
    | call pushed => exact ⟨_, pushed, toNat_returnAddress contained.counterBound⟩
  · intro returns
    cases flow_of_executed returns with
    | onward straight => cases straight
    | @ret address popped jumped =>
        have top := contained.returnBounds address (by rw [popped]; exact List.mem_cons_self)
        exact ⟨address, popped, jumped, top.2⟩

end Machine

end Chip8Machine
