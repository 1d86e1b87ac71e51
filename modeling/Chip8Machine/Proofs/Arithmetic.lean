import Chip8Machine.Proofs.Refusal

/-!
What the arithmetic words compute, as plain numbers, and where they put it.

`Word.Calculates` is the table of these words. Both values, for the first register and for the flag
register, are computed from the registers as they were before, whichever of them is the flag
register. The flag is written last, so that it wins where both go to the same place.
-/

set_option autoImplicit false

namespace Chip8Machine

/-- What a word computes from the values `a` of its first and `b` of its second register: the value
for the first register, and the value for the flag register if the word writes one. -/
inductive Word.Calculates (word : Word) (a b : Nat) : Nat → Option Nat → Prop
  | addByte (group : word.lead = 0x7) : Calculates word a b ((a + word.kk.toNat) % 256) none
  | copy (group : word.lead = 0x8) (choice : word.n = 0x0) : Calculates word a b b none
  | or (group : word.lead = 0x8) (choice : word.n = 0x1) : Calculates word a b (a ||| b) none
  | and (group : word.lead = 0x8) (choice : word.n = 0x2) : Calculates word a b (a &&& b) none
  | xor (group : word.lead = 0x8) (choice : word.n = 0x3) : Calculates word a b (a ^^^ b) none
  | add (group : word.lead = 0x8) (choice : word.n = 0x4) :
      Calculates word a b ((a + b) % 256) (some (if a + b > 255 then 1 else 0))
  | subtract (group : word.lead = 0x8) (choice : word.n = 0x5) :
      Calculates word a b (((a : Int) - b) % 256).toNat (some (if a > b then 1 else 0))
  | shiftRight (group : word.lead = 0x8) (choice : word.n = 0x6) :
      Calculates word a b (a / 2) (some (a % 2))
  | subtractFrom (group : word.lead = 0x8) (choice : word.n = 0x7) :
      Calculates word a b (((b : Int) - a) % 256).toNat (some (if b > a then 1 else 0))
  | shiftLeft (group : word.lead = 0x8) (choice : word.n = 0xE) :
      Calculates word a b (2 * a % 256) (some (a / 128))

/-- The word has put a result into its first register and, if there is one, a value into the flag
register, where the latter wins. Nothing else has changed, but that the counter has moved on. -/
structure Machine.Computed (machine after : Machine) (word : Word) (result : Nat)
    (flag? : Option Nat) : Prop where
  flag : ∀ flag, flag? = some flag → after.registers.flag.toNat = flag
  result : flag? = none ∨ word.x ≠ Register.flag → (after.registers.get word.x).toNat = result
  others : ∀ register, register ≠ word.x → flag? = none ∨ register ≠ Register.flag →
    after.registers.get register = machine.registers.get register
  counter : after.registers.counter = machine.registers.counter + 2
  index : after.registers.index = machine.registers.index
  rest : after = machine.withRegisters after.registers

/-! ### The operations as numbers -/

theorem toNat_sub_eq_emod (a b : UInt8) :
    (a - b).toNat = (((a.toNat : Int) - b.toNat) % 256).toNat := by
  have boundA := a.toNat_lt
  have boundB := b.toNat_lt
  rw [UInt8.toNat_sub]
  omega

theorem toNat_shiftRight_one (a : UInt8) : (a >>> 1).toNat = a.toNat / 2 := by
  rw [UInt8.toNat_shiftRight]
  exact Nat.shiftRight_eq_div_pow a.toNat 1

theorem toNat_shiftLeft_one (a : UInt8) : (a <<< 1).toNat = 2 * a.toNat % 256 := by
  rw [UInt8.toNat_shiftLeft, Nat.shiftLeft_eq, Nat.mul_comm]
  rfl

theorem toNat_decide (condition : Prop) [Decidable condition] :
    (decide condition).toNat = if condition then 1 else 0 :=
  apply_ite Bool.toNat condition true false

theorem lowest_bit (a : UInt8) : (decide (a &&& 1 = 1)).toNat = a.toNat % 2 := by
  revert a
  exact forall_byte (by decide +kernel)

theorem highest_bit (a : UInt8) : (decide (a &&& 128 = 128)).toNat = a.toNat / 128 := by
  revert a
  exact forall_byte (by decide +kernel)

/-! ### Words -/

namespace Machine

variable {machine : Machine} {word : Word} {operation : Arithmetic} {result : Nat}
  {flag? : Option Nat}

theorem computed_of_set {value : UInt8} (same : value.toNat = result) :
    machine.Computed (machine.update (machine.registers.set word.x value)).1 word result none where
  flag := fun _ impossible => nomatch impossible
  result := fun _ => (congrArg UInt8.toNat (machine.registers.get_set_same word.x value)).trans same
  others := fun register other _ =>
    (machine.registers.get_set word.x register value).trans (if_neg other)
  counter := rfl
  index := rfl
  rest := rfl

theorem computed_of_setFlag {value : UInt8} {condition : Bool} {flag : Nat}
    (same : value.toNat = result) (sameFlag : condition.toNat = flag) :
    machine.Computed
      (machine.update ((machine.registers.set word.x value).setFlag condition)).1 word result
      (some flag) := by
  have read : ∀ register,
      (machine.update ((machine.registers.set word.x value).setFlag condition)).1.registers.get
        register = _ :=
    (machine.registers.set word.x value).get_setFlag condition
  constructor
  case counter | index | rest => rfl
  case flag =>
    intro found isFlag
    cases isFlag
    unfold Registers.flag
    rw [read, if_pos rfl, ← sameFlag]
    cases condition <;> rfl
  case result =>
    rintro (impossible | other)
    · cases impossible
    · rw [read, if_neg other, Registers.get_set_same]
      exact same
  case others =>
    rintro register other (impossible | plain)
    · cases impossible
    · rw [read, if_neg plain, Registers.get_set, if_neg other]

theorem perform_addByte (group : word.lead = 0x7) (listener : ToneListener) :
    machine.perform listener word =
      machine.update (machine.registers.set word.x (machine.registers.get word.x + word.kk)) := by
  rw [machine.perform_of_encodes listener (.addByte _ _) ⟨group, rfl, rfl⟩]
  rfl

theorem perform_arithmetic (group : word.lead = 0x8)
    (chosen : Arithmetic.ofNibble? word.n = some operation) (listener : ToneListener) :
    machine.perform listener word =
      machine.update (machine.registers.calculate operation word.x word.y) := by
  rw [machine.perform_of_encodes listener (.arithmetic _ _ _) ⟨group, chosen, rfl, rfl⟩]
  rfl

theorem computed_of_arithmetic (group : word.lead = 0x8)
    (chosen : Arithmetic.ofNibble? word.n = some operation)
    (listener : ToneListener)
    (value :
      (operation.result (machine.registers.get word.x) (machine.registers.get word.y)).toNat =
        result)
    (reported :
      (operation.flag? (machine.registers.get word.x) (machine.registers.get word.y)).map
        Bool.toNat = flag?) :
    ∃ after, machine.perform listener word = (after, .ok .nothing) ∧
      machine.Computed after word result flag? := by
  refine ⟨_, perform_arithmetic group chosen listener, ?_⟩
  subst reported
  unfold Registers.calculate
  simp only
  cases operation.flag? (machine.registers.get word.x) (machine.registers.get word.y) with
  | none => exact computed_of_set value
  | some condition => exact computed_of_setFlag value rfl

/-- Arithmetic is exact, whichever registers a word names. -/
theorem arithmetic_exact (machine : Machine) (listener : ToneListener) (word : Word)
    {result : Nat} {flag? : Option Nat}
    (calculates :
      word.Calculates (machine.registers.get word.x).toNat
        (machine.registers.get word.y).toNat result flag?) :
    ∃ after, machine.perform listener word = (after, .ok .nothing) ∧
      machine.Computed after word result flag? := by
  have chosen : ∀ {nibble : Fin 16} {operation : Arithmetic}, word.n = nibble →
      Arithmetic.ofNibble? nibble = some operation →
        Arithmetic.ofNibble? word.n = some operation := by
    rintro _ _ rfl found
    exact found
  cases calculates with
  | addByte group =>
      refine ⟨_, perform_addByte group listener, computed_of_set ?_⟩
      exact UInt8.toNat_add _ _
  | copy group choice => exact computed_of_arithmetic group (chosen choice rfl) listener rfl rfl
  | or group choice =>
      exact computed_of_arithmetic group (chosen choice rfl) listener (UInt8.toNat_or _ _) rfl
  | and group choice =>
      exact computed_of_arithmetic group (chosen choice rfl) listener (UInt8.toNat_and _ _) rfl
  | xor group choice =>
      exact computed_of_arithmetic group (chosen choice rfl) listener (UInt8.toNat_xor _ _) rfl
  | add group choice =>
      exact computed_of_arithmetic group (chosen choice rfl) listener (UInt8.toNat_add _ _)
        (congrArg some (toNat_decide _))
  | subtract group choice =>
      exact computed_of_arithmetic group (chosen choice rfl) listener (toNat_sub_eq_emod _ _)
        (congrArg some (toNat_decide _))
  | shiftRight group choice =>
      exact computed_of_arithmetic group (chosen choice rfl) listener (toNat_shiftRight_one _)
        (congrArg some (lowest_bit _))
  | subtractFrom group choice =>
      exact computed_of_arithmetic group (chosen choice rfl) listener (toNat_sub_eq_emod _ _)
        (congrArg some (toNat_decide _))
  | shiftLeft group choice =>
      exact computed_of_arithmetic group (chosen choice rfl) listener (toNat_shiftLeft_one _)
        (congrArg some (highest_bit _))

/-- `8FF4` doubles the flag register: 200 and 200 make 144 with a carry, and the carry is what
stays. -/
theorem arithmetic_exact_on_flag :
    let machine : Machine := { registers := Registers.initial.set Register.flag 200 }
    Word.Calculates 0x8FF4 (machine.registers.get (Word.x 0x8FF4)).toNat
        (machine.registers.get (Word.y 0x8FF4)).toNat 144 (some 1) ∧
      ∃ after, machine.perform Surroundings.quiet.tone 0x8FF4 = (after, .ok .nothing) ∧
        after.registers.flag = 1 ∧ after.registers.counter = 514 := by
  intro machine
  have group : Word.lead 0x8FF4 = 0x8 := by decide
  have choice : Word.n 0x8FF4 = 0x4 := by decide
  have first : (machine.registers.get (Word.x 0x8FF4)).toNat = 200 := by decide
  have second : (machine.registers.get (Word.y 0x8FF4)).toNat = 200 := by decide
  have calculates : Word.Calculates 0x8FF4 (machine.registers.get (Word.x 0x8FF4)).toNat
      (machine.registers.get (Word.y 0x8FF4)).toNat 144 (some 1) := by
    rw [first, second]
    exact .add group choice
  obtain ⟨after, performs, computed⟩ :=
    arithmetic_exact machine Surroundings.quiet.tone 0x8FF4 calculates
  refine ⟨calculates, after, performs, ?_, ?_⟩
  · exact UInt8.toNat_inj.mp (computed.flag 1 rfl)
  · rw [computed.counter]
    rfl

end Machine

end Chip8Machine
