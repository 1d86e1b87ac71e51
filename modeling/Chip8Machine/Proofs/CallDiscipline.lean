import Chip8Machine.Proofs.ControlBounds

/-!
Calls and returns over whole histories.

The return addresses below an open call, with its own on top, form a floor that nothing touches as
long as the call stays open. The event that takes the stack below the floor is a return, and it goes
to the address on top of the floor.
-/

set_option autoImplicit false

namespace Chip8Machine

def Instruction.isCall : Instruction → Bool
  | .call _ => true
  | _ => false

namespace Machine

variable (surroundings : Surroundings)

/-! ### One event -/

/-- An event leaves the stack alone, or it is a call that adds an address, or it is a return that
takes the last address away and goes there. -/
theorem happen_stack (machine : Machine) (happening : Happening) :
    let after := machine.happen surroundings happening
    let executed := (machine.executedBy? surroundings happening).toList
    (executed.countP Instruction.isCall = 0 ∧ executed.count .ret = 0 ∧
        after.stack = machine.stack) ∨
      (executed.countP Instruction.isCall = 1 ∧ executed.count .ret = 0 ∧
        ∃ address, after.stack.addresses = address :: machine.stack.addresses) ∨
      (executed.countP Instruction.isCall = 0 ∧ executed.count .ret = 1 ∧
        ∃ address, machine.stack.addresses = address :: after.stack.addresses ∧
          after.registers.counter = address.toNat) := by
  intro after executed
  rcases happen_flow surroundings machine happening with
    ⟨idle, same, _⟩ | ⟨instruction, found, _, flow⟩
  · have nothing : executed = [] := by
      change (machine.executedBy? surroundings happening).toList = []
      rw [idle]
      rfl
    rw [nothing]
    exact Or.inl ⟨rfl, rfl, same⟩
  · have single : executed = [instruction] := by
      change (machine.executedBy? surroundings happening).toList = [instruction]
      rw [found]
      rfl
    rw [single]
    cases flow with
    | onward straight kept _ =>
        left
        cases instruction <;> first | exact ⟨rfl, rfl, kept⟩ | cases straight
    | jump kept _ => exact Or.inl ⟨rfl, rfl, kept⟩
    | offset kept _ => exact Or.inl ⟨rfl, rfl, kept⟩
    | call pushed _ => exact Or.inr (Or.inl ⟨rfl, rfl, _, pushed⟩)
    | ret popped jumped => exact Or.inr (Or.inr ⟨rfl, rfl, _, popped, jumped⟩)

theorem happen_floor {machine : Machine} {floor : List UInt16} (happening : Happening)
    (deep : floor <:+ machine.stack.addresses)
    (stays : floor.length ≤ (machine.happen surroundings happening).stack.depth) :
    floor <:+ (machine.happen surroundings happening).stack.addresses := by
  unfold CallStack.depth at stays
  rcases happen_stack surroundings machine happening with
    ⟨_, _, same⟩ | ⟨_, _, address, pushed⟩ | ⟨_, _, address, popped, _⟩
  · rw [same]
    exact deep
  · rw [pushed]
    exact deep.trans (List.suffix_cons _ _)
  · rw [popped] at deep
    rcases List.suffix_cons_iff.mp deep with whole | below
    · rw [whole, List.length_cons] at stays
      omega
    · exact below

/-- The event that takes away the top of the floor is a return to the address on top. -/
theorem happen_return {machine : Machine} {address : UInt16} {below : List UInt16}
    (happening : Happening) (deep : (address :: below) <:+ machine.stack.addresses)
    (leaves : (machine.happen surroundings happening).stack.depth = below.length) :
    (machine.happen surroundings happening).stack.addresses = below ∧
      (machine.happen surroundings happening).registers.counter = address.toNat := by
  have high := deep.length_le
  rw [List.length_cons] at high
  unfold CallStack.depth at leaves
  rcases happen_stack surroundings machine happening with
    ⟨_, _, same⟩ | ⟨_, _, other, pushed⟩ | ⟨_, _, other, popped, jumped⟩
  · rw [same] at leaves
    omega
  · rw [pushed, List.length_cons] at leaves
    omega
  · rw [popped] at deep
    have whole := deep.eq_of_length (by rw [List.length_cons, List.length_cons, leaves])
    rw [List.cons.injEq] at whole
    rw [jumped, whole.1]
    exact ⟨whole.2.symm, rfl⟩

/-- Calls add one to the depth and returns take one away. -/
theorem happen_depth (machine : Machine) (happening : Happening) :
    (machine.happen surroundings happening).stack.depth +
        (machine.executedBy? surroundings happening).toList.count .ret =
      machine.stack.depth +
        (machine.executedBy? surroundings happening).toList.countP Instruction.isCall := by
  unfold CallStack.depth
  rcases happen_stack surroundings machine happening with
    ⟨calls, returns, same⟩ | ⟨calls, returns, address, pushed⟩ |
      ⟨calls, returns, address, popped, _⟩
  · rw [calls, returns, same]
  · rw [calls, returns, pushed, List.length_cons]
  · rw [calls, returns, popped, List.length_cons]

/-! ### Histories -/

theorem happenAll_depth (machine : Machine) (happenings : List Happening) :
    (machine.happenAll surroundings happenings).stack.depth +
        (machine.executedAll surroundings happenings).count .ret =
      machine.stack.depth +
        (machine.executedAll surroundings happenings).countP Instruction.isCall := by
  induction happenings generalizing machine with
  | nil => rfl
  | cons happening rest ih =>
      have first := happen_depth surroundings machine happening
      have later := ih (machine.happen surroundings happening)
      simp only [executedAll, List.count_append, List.countP_append]
      change ((machine.happen surroundings happening).happenAll surroundings rest).stack.depth +
        _ = _
      omega

theorem happenAll_floor {machine : Machine} {floor : List UInt16} (happenings : List Happening)
    (deep : floor <:+ machine.stack.addresses)
    (stays : ∀ count ≤ happenings.length,
      floor.length ≤ (machine.happenAll surroundings (happenings.take count)).stack.depth) :
    floor <:+ (machine.happenAll surroundings happenings).stack.addresses := by
  induction happenings generalizing machine with
  | nil => exact deep
  | cons happening rest ih =>
      have first := stays 1 (by rw [List.length_cons]; omega)
      apply ih (happen_floor surroundings happening deep first)
      intro count within
      exact stays (count + 1) (by rw [List.length_cons]; omega)

/-- The first event that takes away the top of the floor is a return to the address on top. -/
theorem happenAll_return {machine : Machine} {address : UInt16} {below : List UInt16}
    (happenings : List Happening) (deep : (address :: below) <:+ machine.stack.addresses)
    (stays : ∀ count < happenings.length,
      below.length < (machine.happenAll surroundings (happenings.take count)).stack.depth)
    (leaves : (machine.happenAll surroundings happenings).stack.depth = below.length) :
    (machine.happenAll surroundings happenings).stack.addresses = below ∧
      (machine.happenAll surroundings happenings).registers.counter = address.toNat := by
  rcases happenings.eq_nil_or_concat with rfl | ⟨earlier, final, rfl⟩
  · have high := deep.length_le
    rw [List.length_cons] at high
    change machine.stack.addresses.length = below.length at leaves
    omega
  · rw [List.concat_eq_append] at stays leaves ⊢
    have floor : (address :: below) <:+
        (machine.happenAll surroundings earlier).stack.addresses := by
      apply happenAll_floor surroundings earlier deep
      intro count within
      have above := stays count (by rw [List.length_append, List.length_singleton]; omega)
      rw [List.take_append_of_le_length within] at above
      exact above
    rw [happenAll_append] at leaves ⊢
    exact happen_return surroundings final floor leaves

/-! ### Open calls -/

theorem next_of_call {machine : Machine} {word : Word} (room : machine.stack.depth ≤ 15)
    (fetched : machine.memory.fetch machine.registers.counter = .ok word)
    (isCall : word.lead = 0x2) :
    ∃ called, machine.next surroundings = (called, .done .nothing) ∧
      called.stack.addresses =
        UInt16.ofNat (machine.registers.counter + 2) :: machine.stack.addresses := by
  have decoded := (Instruction.decode_eq_iff word (.call _)).mpr ⟨isCall, rfl⟩
  have notFull : machine.stack.depth ≠ Layout.stackLimit := by
    intro full
    rw [full] at room
    exact absurd room (by decide)
  have possible : machine.fault? (Instruction.decode word) = none := by
    rw [decoded]
    exact if_neg notFull
  obtain ⟨called, succeeds⟩ := execute_of_no_fault surroundings.tone possible
  refine ⟨called, ?_, ?_⟩
  · rw [next_of_success surroundings fetched succeeds, decoded]
    rfl
  · have flow := execute_flow succeeds
    rw [decoded] at flow
    cases flow with
    | onward straight => cases straight
    | call pushed => exact pushed

private theorem bottomUp_of_floor {stack below : CallStack} {address : UInt16}
    (deep : (address :: below.addresses) <:+ stack.addresses) :
    stack.bottomUp.take below.depth = below.bottomUp ∧
      stack.bottomUp[below.depth]? = some address := by
  obtain ⟨above, whole⟩ := deep
  have shape : stack.bottomUp = below.bottomUp ++ address :: above.reverse := by
    unfold CallStack.bottomUp
    rw [← whole, List.reverse_append, List.reverse_cons, List.append_assoc]
    rfl
  have length := below.length_bottomUp
  rw [shape]
  refine ⟨List.take_left' length, ?_⟩
  rw [List.getElem?_append_right (by omega), length, Nat.sub_self]
  rfl

/-- A call that finds room succeeds, and from then on it holds of every history: while the stack
stays above the caller's depth, the caller's return addresses and the call's own lie untouched at
the bottom; the first event that ends this goes on behind the call with the caller's stack; and the
depth is what the executed calls and returns make it. -/
theorem call_discipline {machine : Machine} {word : Word} (room : machine.stack.depth ≤ 15)
    (fetched : machine.memory.fetch machine.registers.counter = .ok word)
    (isCall : word.lead = 0x2) :
    (machine.next surroundings).2 = .done .nothing ∧
    ∀ happenings : List Happening,
      let history := Happening.cycle :: happenings
      let reached := machine.happenAll surroundings history
      let depthAfter := fun count =>
        (machine.happenAll surroundings (.cycle :: happenings.take count)).stack.depth
      ((∀ count ≤ happenings.length, machine.stack.depth < depthAfter count) →
        reached.stack.bottomUp.take machine.stack.depth = machine.stack.bottomUp ∧
        (reached.stack.bottomUp[machine.stack.depth]?).map UInt16.toNat =
          some (machine.registers.counter + 2)) ∧
      ((∀ count < happenings.length, machine.stack.depth < depthAfter count) →
        reached.stack.depth = machine.stack.depth →
        reached.registers.counter = machine.registers.counter + 2 ∧
        reached.stack = machine.stack) ∧
      reached.stack.depth + (machine.executedAll surroundings history).count .ret =
        machine.stack.depth +
          (machine.executedAll surroundings history).countP Instruction.isCall := by
  obtain ⟨called, succeeds, pushed⟩ := next_of_call surroundings room fetched isCall
  have inside := (machine.memory.exists_fetch_eq_ok_iff _).mp ⟨word, fetched⟩
  have lossless : (UInt16.ofNat (machine.registers.counter + 2)).toNat =
      machine.registers.counter + 2 := by
    apply toNat_returnAddress
    have size : Layout.memorySize = 4096 := rfl
    have limit : Layout.counterLimit = 4350 := rfl
    omega
  have floor : (UInt16.ofNat (machine.registers.counter + 2) :: machine.stack.addresses) <:+
      (machine.happen surroundings .cycle).stack.addresses := by
    have above : (machine.happen surroundings .cycle).stack.addresses =
        UInt16.ofNat (machine.registers.counter + 2) :: machine.stack.addresses := by
      change (machine.next surroundings).1.stack.addresses = _
      rw [succeeds, pushed]
    exact ⟨[], above.symm⟩
  refine ⟨by rw [succeeds], ?_⟩
  intro happenings history reached depthAfter
  refine ⟨?_, ?_, happenAll_depth surroundings machine history⟩
  · intro stays
    have deep := happenAll_floor surroundings happenings floor stays
    obtain ⟨lower, top⟩ := bottomUp_of_floor deep
    refine ⟨lower, ?_⟩
    change ((((machine.happen surroundings .cycle).happenAll surroundings
      happenings).stack.bottomUp)[machine.stack.depth]?).map UInt16.toNat = _
    rw [top, Option.map_some, lossless]
  · intro stays leaves
    obtain ⟨sameStack, sameCounter⟩ :=
      happenAll_return surroundings happenings floor stays leaves
    rw [lossless] at sameCounter
    exact ⟨sameCounter, CallStack.ext sameStack⟩

/-- The font holds the word `2060` at address 5. A return that is written to address 0x60 comes
back. -/
theorem call_discipline_from_font :
    let machine : Machine := { registers := { counter := 5 } }
    let reached := machine.happenAll .quiet [.cycle, .write 0x60 [0x00, 0xEE], .cycle]
    machine.stack.depth ≤ 15 ∧
      machine.memory.fetch machine.registers.counter = .ok 0x2060 ∧
      (0x2060 : Word).lead = 0x2 ∧
      reached.registers.counter = 7 ∧ reached.stack = machine.stack := by
  intro machine reached
  have fetched : machine.memory.fetch machine.registers.counter = .ok 0x2060 := rfl
  have rules := (call_discipline .quiet (by decide) fetched (by decide)).2
    [.write 0x60 [0x00, 0xEE], .cycle]
  refine ⟨by decide, fetched, by decide, rules.2.1 ?_ ?_⟩
  · decide +kernel
  · decide +kernel

end Machine

end Chip8Machine
