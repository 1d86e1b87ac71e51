import Chip8Machine.Proofs.ControlFlow

/-!
The footprint of an instruction: the parts of the machine that it can change.

It is told twice, by `Instruction.Touches` for instructions and by `Word.Touches` for words as they
stand in memory. Everything outside of the footprint is the same behind the instruction as before
it.
-/

set_option autoImplicit false

namespace Chip8Machine

inductive Part where
  | byte (address : Nat)
  | register (register : Register)
  | index
  | stack
  | frame
  | delay
  | sound
  | listener
  | notices
  | keypad
  | random
  | shown
  deriving DecidableEq, Repr

def Machine.Agrees (first second : Machine) : Part → Prop
  | .byte address => first.memory.byte? address = second.memory.byte? address
  | .register register => first.registers.get register = second.registers.get register
  | .index => first.registers.index = second.registers.index
  | .stack => first.stack = second.stack
  | .frame => first.frame = second.frame
  | .delay => first.timers.delay = second.timers.delay
  | .sound => first.timers.sound = second.timers.sound
  | .listener => first.timers.listener = second.timers.listener
  | .notices => first.notices = second.notices
  | .keypad => first.keypad = second.keypad
  | .random => first.random = second.random
  | .shown => first.shown = second.shown

/-! ### Instructions -/

def Arithmetic.reports : Arithmetic → Bool
  | .copy => false
  | .or => false
  | .and => false
  | .xor => false
  | _ => true

theorem Arithmetic.flag?_eq_none {operation : Arithmetic} (silent : operation.reports = false)
    (a b : UInt8) : operation.flag? a b = none := by
  cases operation <;> first | rfl | cases silent

namespace Instruction

def isSkip : Instruction → Bool
  | .skip _ _ => true
  | _ => false

def Touches (index : Nat) (instruction : Instruction) : Part → Prop
  | .byte address =>
      match instruction with
      | .storeDecimal _ => index ≤ address ∧ address ≤ index + 2
      | .storeThrough last => index ≤ address ∧ address ≤ index + last.val
      | _ => False
  | .register register =>
      match instruction with
      | .loadByte target _ => register = target
      | .addByte target _ => register = target
      | .arithmetic operation target _ =>
          register = target ∨ operation.reports = true ∧ register = Register.flag
      | .random target _ => register = target
      | .draw _ _ _ => register = Register.flag
      | .readDelay target => register = target
      | .loadThrough last => register ≤ last
      | _ => False
  | .index =>
      match instruction with
      | .setIndex _ => True
      | .addIndex _ => True
      | .pointGlyph _ => True
      | .storeThrough _ => True
      | .loadThrough _ => True
      | _ => False
  | .stack =>
      match instruction with
      | .call _ => True
      | .ret => True
      | _ => False
  | .frame =>
      match instruction with
      | .clearScreen => True
      | .draw _ _ _ => True
      | _ => False
  | .delay =>
      match instruction with
      | .setDelay _ => True
      | _ => False
  | .sound | .notices | .keypad =>
      match instruction with
      | .setSound _ => True
      | _ => False
  | .random =>
      match instruction with
      | .random _ _ => True
      | _ => False
  | .listener | .shown => False

end Instruction

theorem Registers.get_calculate {registers : Registers} {operation : Arithmetic}
    {target other register : Register} (different : register ≠ target)
    (silent : ¬ (operation.reports = true ∧ register = Register.flag)) :
    (registers.calculate operation target other).get register = registers.get register := by
  unfold calculate
  cases reports : operation.reports with
  | false =>
      simp only [Arithmetic.flag?_eq_none reports]
      rw [get_set, if_neg different]
  | true =>
      have noFlag : register ≠ Register.flag := fun same => silent ⟨reports, same⟩
      simp only
      split
      · rw [get_setFlag, if_neg noFlag, get_set, if_neg different]
      · rw [get_set, if_neg different]

theorem Registers.index_calculate (registers : Registers) (operation : Arithmetic)
    (target other : Register) :
    (registers.calculate operation target other).index = registers.index := by
  simp only [calculate]
  split
  · rfl
  · rfl

theorem Registers.get_fill_behind (registers : Registers) {values : List UInt8}
    {register : Register} (behind : values.length ≤ register.val) :
    (registers.fill values).get register = registers.get register := by
  rw [get_fill, List.getElem?_eq_none behind]
  rfl

theorem Peripherals.timers_settle (peripherals : Peripherals) (listener : ToneListener)
    (change : Timers × Option Notice) : (peripherals.settle listener change).timers = change.1 := by
  obtain ⟨timers, notice⟩ := change
  cases notice with
  | none => rfl
  | some notice => rfl

namespace Machine

structure Effect (machine after : Machine) (instruction : Instruction) : Prop where
  unchanged : ∀ part, ¬ instruction.Touches machine.registers.index.toNat part →
    after.Agrees machine part
  moved : after.registers.counter = machine.registers.counter + 2 ∨
    instruction.isSkip = true ∧ after.registers.counter = machine.registers.counter + 4 ∨
    instruction.isJump = true

variable {machine after : Machine} {instruction : Instruction} {demand : Demand}
  {listener : ToneListener}

private theorem effect_of_advance {move : Advance} (advances : after = machine.advance move)
    (moved : after.registers.counter = machine.registers.counter + 2 ∨
      instruction.isSkip = true ∧ after.registers.counter = machine.registers.counter + 4 ∨
      instruction.isJump = true) : machine.Effect after instruction := by
  cases advances
  refine ⟨?_, moved⟩
  intro part untouched
  cases part <;> rfl

private theorem effect_of_update {registers : Registers}
    (updates : machine.update registers = (after, .ok demand))
    (sameCounter : registers.counter = machine.registers.counter)
    (others : ∀ register,
      ¬ instruction.Touches machine.registers.index.toNat (.register register) →
        registers.get register = machine.registers.get register)
    (sameIndex : ¬ instruction.Touches machine.registers.index.toNat .index →
      registers.index = machine.registers.index) : machine.Effect after instruction := by
  cases updates
  refine ⟨?_, Or.inl (congrArg (· + 2) sameCounter)⟩
  intro part untouched
  cases part with
  | register register => exact others register untouched
  | index => exact sameIndex untouched
  | _ => rfl

theorem execute_effect (succeeds : machine.execute listener instruction = (after, .ok demand)) :
    machine.Effect after instruction := by
  -- What only changes registers goes through `update`. Of the rest each changes parts of its own,
  -- and every other part agrees by `rfl`.
  cases instruction with
  | loadByte target value | addByte target value | readDelay target =>
      exact effect_of_update succeeds rfl
        (fun register different => (Registers.get_set _ _ _ _).trans (if_neg different))
        (fun _ => rfl)
  | setIndex target | addIndex target | pointGlyph target =>
      exact effect_of_update succeeds rfl (fun _ _ => rfl)
        (fun untouched => absurd trivial untouched)
  | arithmetic operation target other =>
      refine effect_of_update succeeds (Registers.counter_calculate _ _ _ _) ?_
        (fun _ => Registers.index_calculate _ _ _ _)
      intro register untouched
      exact Registers.get_calculate (fun same => untouched (Or.inl same))
        (fun flag => untouched (Or.inr flag))
  | loadThrough last =>
      simp only [execute] at succeeds
      split at succeeds
      case h_1 values read =>
        refine effect_of_update succeeds ?_ ?_ (fun untouched => absurd trivial untouched)
        · simp only [Registers.counter_fill]
        · intro register untouched
          have length := Memory.length_of_read read
          have behind : ¬ register.val ≤ last.val := untouched
          have unfilled : values.length ≤ register.val := by omega
          exact machine.registers.get_fill_behind unfilled
      case h_2 => cases succeeds
  | skip test answer =>
      cases succeeds
      refine effect_of_advance rfl ?_
      change Advance.apply _ _ = _ ∨ true = true ∧ Advance.apply _ _ = _ ∨ _
      unfold Advance.skipIf
      split
      · exact Or.inr (Or.inl ⟨rfl, rfl⟩)
      · exact Or.inl rfl
  | jump target | jumpOffset base =>
      cases succeeds
      exact effect_of_advance rfl (Or.inr (Or.inr rfl))
  | awaitKey register | ignored word =>
      cases succeeds
      exact effect_of_advance rfl (Or.inl rfl)
  | clearScreen =>
      cases succeeds
      refine ⟨?_, Or.inl rfl⟩
      intro part untouched
      cases part with
      | frame => exact absurd trivial untouched
      | _ => rfl
  | call target | ret =>
      simp only [execute] at succeeds
      split at succeeds
      case h_1 =>
        cases succeeds
        refine ⟨?_, Or.inr (Or.inr rfl)⟩
        intro part untouched
        cases part with
        | stack => exact absurd trivial untouched
        | _ => rfl
      case h_2 => cases succeeds
  | random target mask =>
      cases succeeds
      refine ⟨?_, Or.inl rfl⟩
      intro part untouched
      cases part with
      | register register => exact (Registers.get_set _ _ _ _).trans (if_neg untouched)
      | random => exact absurd trivial untouched
      | _ => rfl
  | draw column row rows =>
      simp only [execute] at succeeds
      split at succeeds
      case h_1 =>
        cases succeeds
        refine ⟨?_, Or.inl rfl⟩
        intro part untouched
        cases part with
        | register register => exact (Registers.get_setFlag _ _ _).trans (if_neg untouched)
        | frame => exact absurd trivial untouched
        | _ => rfl
      case h_2 => cases succeeds
  | setDelay register =>
      cases succeeds
      refine ⟨?_, Or.inl rfl⟩
      intro part untouched
      cases part with
      | delay => exact absurd trivial untouched
      | _ => rfl
  | setSound register =>
      cases succeeds
      have sameTimers := machine.toPeripherals.timers_settle listener
        (machine.timers.setSound (machine.registers.get register))
      refine ⟨?_, Or.inl rfl⟩
      intro part untouched
      cases part with
      | sound | notices | keypad => exact absurd trivial untouched
      | delay =>
          have sameDelay := congrArg Timers.delay sameTimers
          exact sameDelay
      | listener =>
          have sameListener := congrArg Timers.listener sameTimers
          exact sameListener
      | _ => rfl
  | storeDecimal register =>
      simp only [execute] at succeeds
      split at succeeds
      case h_1 memory write =>
        cases succeeds
        refine ⟨?_, Or.inl rfl⟩
        intro part untouched
        cases part with
        | byte address =>
            have outside : ¬ (machine.registers.index.toNat ≤ address ∧
                address ≤ machine.registers.index.toNat + 2) := untouched
            apply Memory.byte?_outside_write write
            rw [length_decimalDigits]
            omega
        | _ => rfl
      case h_2 => cases succeeds
  | storeThrough last =>
      simp only [execute] at succeeds
      split at succeeds
      case h_1 memory write =>
        cases succeeds
        refine ⟨?_, Or.inl rfl⟩
        intro part untouched
        cases part with
        | byte address =>
            have outside : ¬ (machine.registers.index.toNat ≤ address ∧
                address ≤ machine.registers.index.toNat + last.val) := untouched
            apply Memory.byte?_outside_write write
            rw [Registers.length_through]
            omega
        | index => exact absurd trivial untouched
        | _ => rfl
      case h_2 => cases succeeds

/-- A cycle without a fault has the effect of the word at the counter, and behind it the display is
beyond the reach of the core. -/
theorem next_effect (machine : Machine) (surroundings : Surroundings) :
    (∃ fault, machine.next surroundings = (machine, .fault fault)) ∨
      ∃ word executed, machine.memory.fetch machine.registers.counter = .ok word ∧
        machine.Effect executed (Instruction.decode word) ∧
        (machine.next surroundings).1.toCore = executed.toCore := by
  rcases machine.next_cases surroundings with
    failed | ⟨word, executed, fetched, succeeds, concluded⟩
  · exact Or.inl failed
  · refine Or.inr ⟨word, executed, fetched, execute_effect succeeds, ?_⟩
    rw [concluded, conclude_toCore]

end Machine

/-! ### Words -/

namespace Word

def Computes (word : Word) : Prop :=
  word.lead = 0x6 ∨ word.lead = 0x7 ∨ word.lead = 0x8 ∧ (word.n.val ≤ 0x7 ∨ word.n = 0xE) ∨
    word.lead = 0xC ∨ word.lead = 0xF ∧ word.kk.toNat = 0x07

def Reports (word : Word) : Prop :=
  word.lead = 0x8 ∧ (0x4 ≤ word.n.val ∧ word.n.val ≤ 0x7 ∨ word.n = 0xE) ∨ word.lead = 0xD

def Touches (word : Word) (index : Nat) : Part → Prop
  | .byte address =>
      word.lead = 0xF ∧ index ≤ address ∧
        (word.kk.toNat = 0x33 ∧ address ≤ index + 2 ∨
          word.kk.toNat = 0x55 ∧ address ≤ index + word.x.val)
  | .register register =>
      register = word.x ∧ word.Computes ∨
        register ≤ word.x ∧ word.lead = 0xF ∧ word.kk.toNat = 0x65 ∨
        register = Register.flag ∧ word.Reports
  | .index => word.lead = 0xA ∨ word.lead = 0xF ∧ word.kk.toNat ∈ [0x1E, 0x29, 0x55, 0x65]
  | .stack => word.toNat = 0x00EE ∨ word.lead = 0x2
  | .frame => word.toNat = 0x00E0 ∨ word.lead = 0xD
  | .delay => word.lead = 0xF ∧ word.kk.toNat = 0x15
  | .sound | .notices | .keypad => word.lead = 0xF ∧ word.kk.toNat = 0x18
  | .random => word.lead = 0xC
  | .listener | .shown => False

def Skips (word : Word) : Prop :=
  word.lead = 0x3 ∨ word.lead = 0x4 ∨ (word.lead = 0x5 ∨ word.lead = 0x9) ∧ word.n = 0 ∨
    word.lead = 0xE ∧ (word.kk.toNat = 0x9E ∨ word.kk.toNat = 0xA1)

def Jumps (word : Word) : Prop :=
  word.toNat = 0x00EE ∨ word.lead = 0x1 ∨ word.lead = 0x2 ∨ word.lead = 0xB

end Word

theorem Arithmetic.nibble_of_ofNibble? {choice : Fin 16} {operation : Arithmetic}
    (chosen : ofNibble? choice = some operation) : choice.val ≤ 0x7 ∨ choice = 0xE := by
  by_cases last : choice = 0xE
  · exact Or.inr last
  · left
    apply Nat.le_of_not_lt
    intro high
    have nothing := (ofNibble?_eq_none_iff choice).mpr ⟨high, last⟩
    rw [chosen] at nothing
    cases nothing

theorem Arithmetic.nibble_of_reports {choice : Fin 16} {operation : Arithmetic}
    (chosen : ofNibble? choice = some operation) (reports : operation.reports = true) :
    0x4 ≤ choice.val ∧ choice.val ≤ 0x7 ∨ choice = 0xE := by
  cases operation with
  | copy | or | and | xor => cases reports
  | _ =>
      clear reports
      revert choice
      decide

namespace Instruction

/-- The footprint of a word contains the one of the instruction that it encodes. -/
theorem touches_of_encodes {word : Word} {instruction : Instruction} {index : Nat} {part : Part}
    (encodes : Encodes word instruction) (touches : instruction.Touches index part) :
    word.Touches index part := by
  cases part with
  | byte address =>
      cases instruction with
      | storeDecimal register =>
          exact ⟨encodes.1, touches.1, Or.inl ⟨encodes.2.1, touches.2⟩⟩
      | storeThrough last =>
          obtain ⟨isF, low, rfl⟩ := encodes
          exact ⟨isF, touches.1, Or.inr ⟨low, touches.2⟩⟩
      | _ => cases touches
  | register register =>
      cases instruction with
      | loadByte target value =>
          obtain ⟨group, rfl, _⟩ := encodes
          exact Or.inl ⟨touches, Or.inl group⟩
      | addByte target value =>
          obtain ⟨group, rfl, _⟩ := encodes
          exact Or.inl ⟨touches, Or.inr (Or.inl group)⟩
      | arithmetic operation target other =>
          obtain ⟨group, chosen, rfl, _⟩ := encodes
          rcases touches with same | ⟨reports, isFlag⟩
          · have nibble := Arithmetic.nibble_of_ofNibble? chosen
            exact Or.inl ⟨same, Or.inr (Or.inr (Or.inl ⟨group, nibble⟩))⟩
          · have nibble := Arithmetic.nibble_of_reports chosen reports
            exact Or.inr (Or.inr ⟨isFlag, Or.inl ⟨group, nibble⟩⟩)
      | random target mask =>
          obtain ⟨group, rfl, _⟩ := encodes
          exact Or.inl ⟨touches, Or.inr (Or.inr (Or.inr (Or.inl group)))⟩
      | draw column row rows => exact Or.inr (Or.inr ⟨touches, Or.inr encodes.1⟩)
      | readDelay target =>
          obtain ⟨group, low, rfl⟩ := encodes
          exact Or.inl ⟨touches, Or.inr (Or.inr (Or.inr (Or.inr ⟨group, low⟩)))⟩
      | loadThrough last =>
          obtain ⟨group, low, rfl⟩ := encodes
          exact Or.inr (Or.inl ⟨touches, group, low⟩)
      | _ => cases touches
  | index =>
      cases instruction with
      | setIndex target => exact Or.inl encodes.1
      | addIndex | pointGlyph | storeThrough | loadThrough =>
          obtain ⟨group, low, _⟩ := encodes
          exact Or.inr ⟨group, by rw [low]; decide⟩
      | _ => cases touches
  | stack =>
      cases instruction with
      | ret => exact Or.inl encodes
      | call target => exact Or.inr encodes.1
      | _ => cases touches
  | frame =>
      cases instruction with
      | clearScreen => exact Or.inl encodes
      | draw column row rows => exact Or.inr encodes.1
      | _ => cases touches
  | delay =>
      cases instruction with
      | setDelay register => exact ⟨encodes.1, encodes.2.1⟩
      | _ => cases touches
  | sound | notices | keypad =>
      cases instruction with
      | setSound register => exact ⟨encodes.1, encodes.2.1⟩
      | _ => cases touches
  | random =>
      cases instruction with
      | random register mask => exact encodes.1
      | _ => cases touches
  | listener | shown => cases touches

theorem skips_of_encodes {word : Word} {instruction : Instruction}
    (encodes : Encodes word instruction) (isSkip : instruction.isSkip = true) : word.Skips := by
  cases instruction with
  | skip test answer =>
      cases test with
      | equalsByte register value =>
          cases answer with
          | true => exact Or.inl encodes.1
          | false => exact Or.inr (Or.inl encodes.1)
      | equalsRegister register other =>
          cases answer with
          | true => exact Or.inr (Or.inr (Or.inl ⟨Or.inl encodes.1, encodes.2.1⟩))
          | false => exact Or.inr (Or.inr (Or.inl ⟨Or.inr encodes.1, encodes.2.1⟩))
      | keyDown register =>
          cases answer with
          | true => exact Or.inr (Or.inr (Or.inr ⟨encodes.1, Or.inl encodes.2.1⟩))
          | false => exact Or.inr (Or.inr (Or.inr ⟨encodes.1, Or.inr encodes.2.1⟩))
  | _ => cases isSkip

theorem jumps_of_encodes {word : Word} {instruction : Instruction}
    (encodes : Encodes word instruction) (isJump : instruction.isJump = true) : word.Jumps := by
  cases instruction with
  | ret => exact Or.inl encodes
  | jump target => exact Or.inr (Or.inl encodes.1)
  | call target => exact Or.inr (Or.inr (Or.inl encodes.1))
  | jumpOffset base => exact Or.inr (Or.inr (Or.inr encodes.1))
  | _ => cases isJump

end Instruction

/-- Behind a change of the timers the keypad is as before, or a listener was told and has
answered. -/
theorem Peripherals.keypad_settle (peripherals : Peripherals) (listener : ToneListener)
    (change : Timers × Option Notice) :
    let settled := peripherals.settle listener change
    settled.keypad = peripherals.keypad ∨
      ∃ notice, settled.notices = notice :: peripherals.notices ∧
        settled.keypad = (listener settled.notices).foldl Keypad.handle peripherals.keypad := by
  obtain ⟨timers, notice⟩ := change
  cases notice with
  | none => exact Or.inl rfl
  | some notice =>
      cases listens : notice.listener.isSome with
      | false =>
          left
          simp only [settle, listens]
          rfl
      | true =>
          right
          refine ⟨notice, rfl, ?_⟩
          simp only [settle, listens, if_true]

namespace Machine

variable {machine after : Machine} {demand : Demand} {listener : ToneListener} {word : Word}

theorem demand_of_execute {instruction : Instruction}
    (succeeds : machine.execute listener instruction = (after, .ok demand)) :
    demand = instruction.demand := by
  rcases execute_cases listener machine instruction with ⟨fault, _, failed⟩ | ⟨_, other, succeeded⟩
  · rw [succeeds] at failed
    cases failed
  · rw [succeeds] at succeeded
    cases succeeded
    rfl

theorem perform_draw_iff (succeeds : machine.perform listener word = (after, .ok demand)) :
    demand = .draw ↔ word.toNat = 0x00E0 ∨ word.lead = 0xD := by
  rw [demand_of_execute succeeds]
  constructor
  · intro asks
    have encodes := Instruction.encodes_decode word
    generalize Instruction.decode word = instruction at asks encodes
    cases instruction with
    | clearScreen => exact Or.inl encodes
    | draw column row rows => exact Or.inr encodes.1
    | _ => cases asks
  · rintro (isClear | isDraw)
    · rw [(Instruction.decode_eq_iff word .clearScreen).mpr isClear]
      rfl
    · rw [(Instruction.decode_eq_iff word (.draw _ _ _)).mpr ⟨isDraw, rfl, rfl, rfl⟩]
      rfl

theorem perform_awaitKey_iff (succeeds : machine.perform listener word = (after, .ok demand))
    (register : Register) :
    demand = .awaitKey register ↔
      word.lead = 0xF ∧ word.kk.toNat = 0x0A ∧ register = word.x := by
  rw [demand_of_execute succeeds]
  constructor
  · intro asks
    have encodes := Instruction.encodes_decode word
    generalize Instruction.decode word = instruction at asks encodes
    cases instruction with
    | awaitKey awaited =>
        cases asks
        exact encodes
    | _ => cases asks
  · intro encodes
    rw [(Instruction.decode_eq_iff word (.awaitKey register)).mpr encodes]
    rfl

theorem perform_random (succeeds : machine.perform listener word = (after, .ok demand))
    (isRandom : word.lead = 0xC) :
    after.random = { machine.random with taken := machine.random.taken + 1 } := by
  rw [machine.perform_of_encodes listener (.random _ _) ⟨isRandom, rfl, rfl⟩] at succeeds
  cases succeeds
  rfl

/-- The keys and the stop request are not touched by an instruction, but by the listener that `Fx18`
may call. -/
theorem perform_keypad (succeeds : machine.perform listener word = (after, .ok demand)) :
    after.keypad = machine.keypad ∨
      (word.lead = 0xF ∧ word.kk.toNat = 0x18) ∧
        ∃ notice, after.notices = notice :: machine.notices ∧
          after.keypad = (listener after.notices).foldl Keypad.handle machine.keypad := by
  by_cases isSound : word.lead = 0xF ∧ word.kk.toNat = 0x18
  · rw [machine.perform_of_encodes listener (.setSound _) ⟨isSound.1, isSound.2, rfl⟩] at succeeds
    cases succeeds
    rcases machine.toPeripherals.keypad_settle listener
        (machine.timers.setSound (machine.registers.get word.x)) with same | answered
    · exact Or.inl same
    · exact Or.inr ⟨isSound, answered⟩
  · left
    refine (execute_effect succeeds).unchanged .keypad ?_
    intro touches
    exact isSound (Instruction.touches_of_encodes (Instruction.encodes_decode word) touches)

/-- A successful word leaves everything outside of its footprint as it was. It takes one random byte
if it is `Cxkk`, whatever its mask; the keypad is at most changed by a listener that `Fx18` calls;
the counter moves on by one word, unless the word can skip or jump; and what it asks for can be read
off the word. So a word without a line in the table of instructions only moves the counter on. -/
theorem perform_footprint (machine : Machine) (listener : ToneListener) (word : Word) :
    (∀ after demand, machine.perform listener word = (after, .ok demand) →
      (∀ part, ¬ word.Touches machine.registers.index.toNat part → after.Agrees machine part) ∧
      (word.lead = 0xC →
        after.random = { machine.random with taken := machine.random.taken + 1 }) ∧
      (after.keypad = machine.keypad ∨
        (word.lead = 0xF ∧ word.kk.toNat = 0x18) ∧
          ∃ notice, after.notices = notice :: machine.notices ∧
            after.keypad = (listener after.notices).foldl Keypad.handle machine.keypad) ∧
      (after.registers.counter = machine.registers.counter + 2 ∨
        word.Skips ∧ after.registers.counter = machine.registers.counter + 4 ∨ word.Jumps) ∧
      (demand = .draw ↔ word.toNat = 0x00E0 ∨ word.lead = 0xD) ∧
      (∀ register, demand = .awaitKey register ↔
        word.lead = 0xF ∧ word.kk.toNat = 0x0A ∧ register = word.x)) ∧
    (word.Unlisted → machine.perform listener word = (machine.advance .next, .ok .nothing)) := by
  constructor
  · intro after demand succeeds
    have encodes := Instruction.encodes_decode word
    have effect := execute_effect succeeds
    refine ⟨?_, perform_random succeeds, perform_keypad succeeds, ?_, perform_draw_iff succeeds,
      perform_awaitKey_iff succeeds⟩
    · intro part untouched
      exact effect.unchanged part (fun touches =>
        untouched (Instruction.touches_of_encodes encodes touches))
    · rcases effect.moved with onward | ⟨isSkip, skipped⟩ | isJump
      · exact Or.inl onward
      · exact Or.inr (Or.inl ⟨Instruction.skips_of_encodes encodes isSkip, skipped⟩)
      · exact Or.inr (Or.inr (Instruction.jumps_of_encodes encodes isJump))
  · intro unlisted
    unfold perform
    rw [Instruction.decode_of_unlisted unlisted]
    rfl

end Machine

end Chip8Machine
