import Chip8Machine.Proofs.Arithmetic

/-!
What the flag register tells of a sum and of a difference.

A sum and its carry are the whole sum. With a difference the flag would have to be set exactly if
nothing is borrowed: then the minuend, and 256 where that is borrowed, would make up the difference
and the subtrahend. But the flag is set only if the minuend is the larger operand. So the equation
holds for operands that differ, and fails for equal ones: nothing is borrowed, and yet the flag is
not set.
-/

set_option autoImplicit false

namespace Chip8Machine

inductive Word.Subtracts (word : Word) (a b : Nat) : Nat → Nat → Prop
  | subtract (group : word.lead = 0x8) (choice : word.n = 0x5) : Subtracts word a b a b
  | subtractFrom (group : word.lead = 0x8) (choice : word.n = 0x7) : Subtracts word a b b a

theorem Word.Subtracts.bounds {word : Word} {a b : UInt8} {minuend subtrahend : Nat}
    (subtracts : word.Subtracts a.toNat b.toNat minuend subtrahend) :
    minuend < 256 ∧ subtrahend < 256 := by
  cases subtracts with
  | subtract => exact ⟨a.toNat_lt, b.toNat_lt⟩
  | subtractFrom => exact ⟨b.toNat_lt, a.toNat_lt⟩

namespace Registers

/-- The register and the flag as its carry are the whole sum. -/
def HoldsSum (registers : Registers) (register : Register) (first second : Nat) : Prop :=
  first + second = (registers.get register).toNat + 256 * registers.flag.toNat

/-- The register is the difference for which 256 has been borrowed unless the flag is set. -/
def Balances (registers : Registers) (register : Register) (minuend subtrahend : Nat) : Prop :=
  (minuend : Int) + 256 * (1 - (registers.flag.toNat : Int)) =
    ((registers.get register).toNat : Int) + (subtrahend : Int)

structure HoldsDifference (registers : Registers) (register : Register)
    (minuend subtrahend : Nat) : Prop where
  larger : registers.flag = 1 ↔ subtrahend < minuend
  noBorrow : (registers.flag = 1 ↔ subtrahend ≤ minuend) ↔ minuend ≠ subtrahend
  balances : registers.Balances register minuend subtrahend ↔ minuend ≠ subtrahend
  equal : minuend = subtrahend → registers.get register = 0 ∧ registers.flag = 0

theorem holdsDifference_of_values {registers : Registers} {register : Register}
    {minuend subtrahend : Nat} (minuendBound : minuend < 256) (subtrahendBound : subtrahend < 256)
    (value : (registers.get register).toNat = (((minuend : Int) - subtrahend) % 256).toNat)
    (reported : registers.flag.toNat = if minuend > subtrahend then 1 else 0) :
    registers.HoldsDifference register minuend subtrahend := by
  have larger : registers.flag = 1 ↔ subtrahend < minuend := by
    rw [← UInt8.toNat_inj, reported]
    split
    case isTrue greater => exact iff_of_true rfl greater
    case isFalse notGreater => exact iff_of_false Nat.zero_ne_one notGreater
  constructor
  case larger => exact larger
  case noBorrow =>
    rw [larger]
    omega
  case balances =>
    unfold Balances
    rw [value, reported]
    split <;> omega
  case equal =>
    rintro rfl
    rw [← UInt8.toNat_inj, ← UInt8.toNat_inj, value, reported, Int.sub_self]
    exact ⟨rfl, if_neg (Nat.lt_irrefl minuend)⟩

end Registers

namespace Machine

variable {machine after : Machine} {word : Word}

/-- With another register for the result, neither value overwrites the other. -/
theorem Computed.values {result flag : Nat}
    (computed : machine.Computed after word result (some flag)) (apart : word.x ≠ Register.flag) :
    (after.registers.get word.x).toNat = result ∧ after.registers.flag.toNat = flag :=
  ⟨computed.result (Or.inr apart), computed.flag flag rfl⟩

theorem computed_of_choice {nibble : Fin 16} {operation : Arithmetic} {result : Nat}
    {flag? : Option Nat} (group : word.lead = 0x8) (choice : word.n = nibble)
    (named : Arithmetic.ofNibble? nibble = some operation)
    (value :
      (operation.result (machine.registers.get word.x) (machine.registers.get word.y)).toNat =
        result)
    (reported :
      (operation.flag? (machine.registers.get word.x) (machine.registers.get word.y)).map
        Bool.toNat = flag?)
    (listener : ToneListener) :
    ∃ after, machine.perform listener word = (after, .ok .nothing) ∧
      machine.Computed after word result flag? := by
  subst choice
  exact computed_of_arithmetic group named listener value reported

theorem exists_sum (group : word.lead = 0x8) (choice : word.n = 0x4)
    (apart : word.x ≠ Register.flag) (listener : ToneListener) :
    ∃ after, machine.perform listener word = (after, .ok .nothing) ∧
      after.registers.HoldsSum word.x (machine.registers.get word.x).toNat
        (machine.registers.get word.y).toNat := by
  obtain ⟨after, performs, computed⟩ := computed_of_choice group choice rfl
    (UInt8.toNat_add (machine.registers.get word.x) (machine.registers.get word.y))
    (congrArg some (toNat_decide _)) listener
  refine ⟨after, performs, ?_⟩
  obtain ⟨value, reported⟩ := computed.values apart
  have firstBound := (machine.registers.get word.x).toNat_lt
  have secondBound := (machine.registers.get word.y).toNat_lt
  unfold Registers.HoldsSum
  rw [value, reported]
  split <;> omega

/-- Both words compute the difference and the order of the operands that they name. -/
theorem exists_subtracted {minuend subtrahend : Nat}
    (subtracts : word.Subtracts (machine.registers.get word.x).toNat
      (machine.registers.get word.y).toNat minuend subtrahend) (listener : ToneListener) :
    ∃ after, machine.perform listener word = (after, .ok .nothing) ∧
      machine.Computed after word (((minuend : Int) - subtrahend) % 256).toNat
        (some (if minuend > subtrahend then 1 else 0)) := by
  cases subtracts with
  | subtract group choice =>
      exact computed_of_choice group choice rfl (toNat_sub_eq_emod _ _)
        (congrArg some (toNat_decide _)) listener
  | subtractFrom group choice =>
      exact computed_of_choice group choice rfl (toNat_sub_eq_emod _ _)
        (congrArg some (toNat_decide _)) listener

/-- The flag makes up a sum always, and a difference unless its operands are equal.

The carry is set exactly if the sum goes beyond a byte, so that register and carry are the whole
sum. Of a difference the flag tells whether the minuend is the larger operand. That is the same as
that nothing is borrowed, and register and flag balance with the operands, exactly for operands that
differ. For equal operands both the register and the flag are zero. -/
theorem borrow_told_unless_equal (machine : Machine) (listener : ToneListener) {word : Word}
    (apart : word.x ≠ Register.flag) :
    (word.lead = 0x8 → word.n = 0x4 → ∃ after,
      machine.perform listener word = (after, .ok .nothing) ∧
      after.registers.HoldsSum word.x (machine.registers.get word.x).toNat
        (machine.registers.get word.y).toNat) ∧
    ∀ minuend subtrahend,
      word.Subtracts (machine.registers.get word.x).toNat
        (machine.registers.get word.y).toNat minuend subtrahend →
      ∃ after, machine.perform listener word = (after, .ok .nothing) ∧
        after.registers.HoldsDifference word.x minuend subtrahend := by
  constructor
  · intro group choice
    exact exists_sum group choice apart listener
  · intro minuend subtrahend subtracts
    obtain ⟨after, performs, computed⟩ := exists_subtracted subtracts listener
    obtain ⟨value, reported⟩ := computed.values apart
    obtain ⟨minuendBound, subtrahendBound⟩ := Word.Subtracts.bounds subtracts
    exact ⟨after, performs,
      Registers.holdsDifference_of_values minuendBound subtrahendBound value reported⟩

/-- 7 is subtracted from 5: 256 is borrowed, so that 254 is left, and the flag is not set. -/
theorem borrow_told_unless_equal_below_zero :
    let machine : Machine := { registers := (Registers.initial.set 1 5).set 2 7 }
    Word.x 0x8125 ≠ Register.flag ∧
      Word.Subtracts 0x8125 (machine.registers.get 1).toNat (machine.registers.get 2).toNat 5 7 ∧
      ∃ after, machine.perform Surroundings.quiet.tone 0x8125 = (after, .ok .nothing) ∧
        after.registers.Balances 1 5 7 ∧ after.registers.flag ≠ 1 := by
  intro machine
  have apart : Word.x 0x8125 ≠ Register.flag := by decide
  have subtracts :
      Word.Subtracts 0x8125 (machine.registers.get 1).toNat (machine.registers.get 2).toNat 5 7 :=
    .subtract (by decide) (by decide)
  obtain ⟨after, performs, holds⟩ :=
    (borrow_told_unless_equal machine Surroundings.quiet.tone apart).2 5 7 subtracts
  refine ⟨apart, subtracts, after, performs, ?_, ?_⟩
  · exact holds.balances.mpr (by decide)
  · intro isSet
    exact absurd (holds.larger.mp isSet) (by decide)

/-- 7 is subtracted from 7: nothing is borrowed, but the flag is not set, and the equation fails by
256. -/
theorem equal_operands_unbalanced :
    let machine : Machine := { registers := (Registers.initial.set 1 7).set 2 7 }
    ∃ after, machine.perform Surroundings.quiet.tone 0x8125 = (after, .ok .nothing) ∧
      (after.registers.get 1).toNat = 0 ∧ after.registers.flag.toNat = 0 ∧
      ¬ after.registers.Balances 1 7 7 := by
  intro machine
  have subtracts :
      Word.Subtracts 0x8125 (machine.registers.get 1).toNat (machine.registers.get 2).toNat 7 7 :=
    .subtract (by decide) (by decide)
  obtain ⟨after, performs, computed⟩ := exists_subtracted subtracts Surroundings.quiet.tone
  obtain ⟨value, reported⟩ := computed.values (by decide)
  refine ⟨after, performs, value, reported, ?_⟩
  unfold Registers.Balances
  intro balanced
  have register : (after.registers.get 1).toNat = 0 := value
  rw [register, reported] at balanced
  exact absurd balanced (by decide)

end Machine

end Chip8Machine
