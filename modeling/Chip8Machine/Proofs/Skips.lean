import Chip8Machine.Proofs.CheckedExecution

/-!
Words that skip come in pairs.

The two words of a pair ask the same question, and exactly one of them leaves out the following
instruction: `3xkk`, `5xy0` and `Ex9E` if the answer is yes, `4xkk`, `9xy0` and `ExA1` if it is no.
Neither does anything else.
-/

set_option autoImplicit false

namespace Chip8Machine

/-- The two words ask the same question: whether a register holds a byte, whether two registers hold
the same, or whether the key that a register names is down. The first skips on a yes, the second on
a no. -/
inductive Word.Opposes (registers : Registers) (keypad : Keypad) (yes no : Word) : Prop → Prop
  | byte (groups : yes.lead = 0x3 ∧ no.lead = 0x4) (sameRegister : no.x = yes.x)
      (sameByte : no.kk = yes.kk) :
      Opposes registers keypad yes no (registers.get yes.x = yes.kk)
  | registers (groups : yes.lead = 0x5 ∧ no.lead = 0x9) (choices : yes.n = 0 ∧ no.n = 0)
      (sameRegister : no.x = yes.x) (sameOther : no.y = yes.y) :
      Opposes registers keypad yes no (registers.get yes.x = registers.get yes.y)
  | key (groups : yes.lead = 0xE ∧ no.lead = 0xE)
      (choices : yes.kk.toNat = 0x9E ∧ no.kk.toNat = 0xA1)
      (sameRegister : no.x = yes.x) :
      Opposes registers keypad yes no (∃ key ∈ keypad.keysDown, key.toByte = registers.get yes.x)

inductive Word.Splits {Outcome : Type} (answer : Prop) (skipped onward : Outcome) :
    Outcome → Outcome → Prop
  | yes (holds : answer) : Splits answer skipped onward skipped onward
  | no (fails : ¬ answer) : Splits answer skipped onward onward skipped

theorem Word.Splits.map {Outcome Seen : Type} {answer : Prop}
    {skipped onward first second : Outcome} (splits : Splits answer skipped onward first second)
    (see : Outcome → Seen) :
    Splits answer (see skipped) (see onward) (see first) (see second) := by
  cases splits with
  | yes holds => exact .yes holds
  | no fails => exact .no fails

theorem Word.Splits.unique {Outcome : Type} {answer : Prop}
    {skipped onward first second otherFirst otherSecond : Outcome}
    (splits : Splits answer skipped onward first second)
    (others : Splits answer skipped onward otherFirst otherSecond) :
    first = otherFirst ∧ second = otherSecond := by
  cases splits with
  | yes holds =>
      cases others with
      | yes => exact ⟨rfl, rfl⟩
      | no fails => exact absurd holds fails
  | no fails =>
      cases others with
      | yes holds => exact absurd holds fails
      | no => exact ⟨rfl, rfl⟩

namespace Machine

def goneTo (machine : Machine) (counter : Nat) : Machine :=
  machine.withRegisters { machine.registers with counter := counter }

variable {machine : Machine} {word yes no : Word} {answer : Prop}

theorem perform_skip (listener : ToneListener) (test : Test) (wanted : Bool)
    (encodes : Instruction.Encodes word (.skip test wanted)) :
    machine.perform listener word =
      (machine.goneTo
        ((Advance.skipIf (machine.holds test == wanted)).apply machine.registers.counter),
        .ok .nothing) := by
  rw [machine.perform_of_encodes listener _ encodes]
  rfl

/-- One test with both answers gives both words of a pair. -/
theorem exists_test (opposed : yes.Opposes machine.registers machine.keypad no answer) :
    ∃ test, Instruction.Encodes yes (.skip test true) ∧ Instruction.Encodes no (.skip test false) ∧
      (machine.holds test = true ↔ answer) := by
  cases opposed with
  | byte groups sameRegister sameByte =>
      refine ⟨.equalsByte yes.x yes.kk, ⟨groups.1, rfl, rfl⟩,
        ⟨groups.2, sameRegister.symm, sameByte.symm⟩, ?_⟩
      exact beq_iff_eq
  | registers groups choices sameRegister sameOther =>
      refine ⟨.equalsRegister yes.x yes.y, ⟨groups.1, choices.1, rfl, rfl⟩,
        ⟨groups.2, choices.2, sameRegister.symm, sameOther.symm⟩, ?_⟩
      exact beq_iff_eq
  | key groups choices sameRegister =>
      refine ⟨.keyDown yes.x, ⟨groups.1, choices.1, rfl⟩,
        ⟨groups.2, choices.2, sameRegister.symm⟩, ?_⟩
      exact machine.keypad.isDown_iff _

/-- Words of a pair never fail, and change nothing but the counter. -/
theorem exists_skips (opposed : yes.Opposes machine.registers machine.keypad no answer)
    (listener : ToneListener) :
    ∃ first second,
      Word.Splits answer (machine.registers.counter + 4) (machine.registers.counter + 2)
        first second ∧
      machine.perform listener yes = (machine.goneTo first, .ok .nothing) ∧
      machine.perform listener no = (machine.goneTo second, .ok .nothing) := by
  obtain ⟨test, encodesYes, encodesNo, asks⟩ := exists_test opposed
  have performsYes := machine.perform_skip listener test true encodesYes
  have performsNo := machine.perform_skip listener test false encodesNo
  cases holds : machine.holds test with
  | true =>
      rw [holds] at performsYes performsNo asks
      exact ⟨_, _, .yes (asks.mp rfl), performsYes, performsNo⟩
  | false =>
      rw [holds] at performsYes performsNo asks
      exact ⟨_, _, .no (fun agreed => Bool.false_ne_true (asks.mpr agreed)),
        performsYes, performsNo⟩

theorem no_answer_of_no_key (opposed : yes.Opposes machine.registers machine.keypad no answer)
    (group : yes.lead = 0xE) (unknown : Layout.keyCount ≤ (machine.registers.get yes.x).toNat) :
    ¬ answer := by
  cases opposed with
  | byte groups | registers groups =>
      have other := groups.1
      rw [group] at other
      cases other
  | key groups choices sameRegister =>
      rintro ⟨key, _, named⟩
      have bound := key.isLt
      rw [← named, Key.toNat_toByte] at unknown
      omega

theorem next_of_nothing {surroundings : Surroundings} {after : Machine}
    (fetched : machine.memory.fetch machine.registers.counter = .ok word)
    (performs : machine.perform surroundings.tone word = (after, .ok .nothing)) :
    machine.next surroundings = (after, .done .nothing) :=
  next_of_success surroundings fetched performs

/-- Of two words that ask the same question with opposite answers, exactly one skips, and nothing
else comes of them.

So with one of them at the counter the next word to be fetched is the following one, and with the
other in its place it is the one after that. As long as the counters fit into sixty-four bits, the
sums that are computed with as many come to the same. -/
theorem skips_complementary (machine : Machine) {yes no : Word} {answer : Prop}
    (opposed : yes.Opposes machine.registers machine.keypad no answer) :
    (∀ listener, ∃ first second,
      Word.Splits answer (machine.registers.counter + 4) (machine.registers.counter + 2)
        first second ∧
      machine.perform listener yes = (machine.goneTo first, .ok .nothing) ∧
      machine.perform listener no = (machine.goneTo second, .ok .nothing) ∧
      (machine.registers.counter + 4 < UInt64.size →
        machine.performChecked listener yes = .ok (machine.goneTo first, .ok .nothing) ∧
        machine.performChecked listener no = .ok (machine.goneTo second, .ok .nothing))) ∧
    (yes.lead = 0xE → Layout.keyCount ≤ (machine.registers.get yes.x).toNat → ¬ answer) ∧
    ∀ (surroundings : Surroundings) (variant : Memory),
      machine.memory.fetch machine.registers.counter = .ok yes →
      variant.fetch machine.registers.counter = .ok no →
      (∀ address, address ≠ machine.registers.counter → address ≠ machine.registers.counter + 1 →
        variant.byte? address = machine.memory.byte? address) →
      ∃ first second,
        machine.next surroundings = (first, .done .nothing) ∧
        ({ machine with memory := variant } : Machine).next surroundings =
          (second, .done .nothing) ∧
        Word.Splits answer (machine.memory.fetch (machine.registers.counter + 4))
          (machine.memory.fetch (machine.registers.counter + 2))
          (first.memory.fetch first.registers.counter)
          (second.memory.fetch second.registers.counter) := by
  refine ⟨?_, no_answer_of_no_key opposed, ?_⟩
  · intro listener
    obtain ⟨first, second, splits, performsYes, performsNo⟩ := exists_skips opposed listener
    refine ⟨first, second, splits, performsYes, performsNo, ?_⟩
    intro room
    rw [performChecked_eq room, performChecked_eq room, performsYes, performsNo]
    exact ⟨rfl, rfl⟩
  · intro surroundings variant atYes atNo apart
    -- The other machine answers alike: the question is not about memory.
    let other : Machine := { machine with memory := variant }
    have opposedOther : yes.Opposes other.registers other.keypad no answer := opposed
    obtain ⟨first, second, splits, performsYes, _⟩ := exists_skips opposed surroundings.tone
    obtain ⟨_, otherSecond, splitsOther, _, performsNo⟩ :=
      exists_skips opposedOther surroundings.tone
    obtain ⟨_, rfl⟩ := splits.unique splitsOther
    have behind : machine.registers.counter + 2 ≤ second := by
      cases splits <;> omega
    have sameFetch : variant.fetch second = machine.memory.fetch second :=
      Memory.fetch_eq_of_bytes (apart _ (by omega) (by omega)) (apart _ (by omega) (by omega))
    refine ⟨_, _, next_of_nothing atYes performsYes, next_of_nothing atNo performsNo, ?_⟩
    change Word.Splits answer _ _ (machine.memory.fetch first) (variant.fetch second)
    rw [sameFetch]
    exact splits.map machine.memory.fetch

/-- Register 1 holds 5, and key 5 is down: at address 512 `E19E` leaves out the word behind it, and
in its place `E1A1` does not. -/
theorem skips_complementary_of_pressed_key :
    let keypad := Keypad.initial.handle (.press 5)
    let machine : Machine := { keypad := keypad, registers := Registers.initial.set 1 5 }
    Word.Opposes machine.registers machine.keypad 0xE19E 0xE1A1
        (∃ key ∈ machine.keypad.keysDown, key.toByte = machine.registers.get (Word.x 0xE19E)) ∧
      machine.perform Surroundings.quiet.tone 0xE19E = (machine.goneTo 516, .ok .nothing) ∧
      machine.perform Surroundings.quiet.tone 0xE1A1 = (machine.goneTo 514, .ok .nothing) := by
  intro keypad machine
  have opposed : Word.Opposes machine.registers machine.keypad 0xE19E 0xE1A1
      (∃ key ∈ machine.keypad.keysDown, key.toByte = machine.registers.get (Word.x 0xE19E)) :=
    .key (by decide) (by decide) (by decide)
  have down : ∃ key ∈ machine.keypad.keysDown,
      key.toByte = machine.registers.get (Word.x 0xE19E) := by decide
  obtain ⟨first, second, splits, performsYes, performsNo, _⟩ :=
    (skips_complementary machine opposed).1 Surroundings.quiet.tone
  obtain ⟨rfl, rfl⟩ := splits.unique (.yes down)
  exact ⟨opposed, performsYes, performsNo⟩

end Machine

end Chip8Machine
