import Chip8Machine.Proofs.MemoryAccess
import Chip8Machine.Proofs.RegisterTransfer

/-!
Decimal digits, written to memory and read back.

`Fx33` writes the hundreds first, and `F265` reads in the same order. So the first three registers
spell the value that the register had, which may be one of them. Near the end of memory the digits
are written together or not at all.
-/

set_option autoImplicit false

namespace Chip8Machine

def Word.StoresDecimal (word : Word) : Prop := word.lead = 0xF ∧ word.kk.toNat = 0x33

structure Registers.Spells (registers : Registers) (value : UInt8) : Prop where
  hundreds : (registers.get 0).toNat ≤ 9
  tens : (registers.get 1).toNat ≤ 9
  ones : (registers.get 2).toNat ≤ 9
  total : 100 * (registers.get 0).toNat + 10 * (registers.get 1).toNat + (registers.get 2).toNat =
    value.toNat

theorem Registers.spells_of_digits {registers : Registers} {value : UInt8}
    (digits : ∀ register : Register, register ≤ 2 →
      (decimalDigits value)[register.val]? = some (registers.get register)) :
    registers.Spells value := by
  have hundreds : (registers.get 0).toNat = value.toNat / 100 := by
    rw [← Option.some.inj (digits 0 (by decide))]
    exact UInt8.toNat_div value 100
  have tens : (registers.get 1).toNat = value.toNat / 10 % 10 := by
    rw [← Option.some.inj (digits 1 (by decide)), UInt8.toNat_mod, UInt8.toNat_div]
    rfl
  have ones : (registers.get 2).toNat = value.toNat % 10 := by
    rw [← Option.some.inj (digits 2 (by decide))]
    exact UInt8.toNat_mod value 10
  have bound := value.toNat_lt
  constructor
  · omega
  · omega
  · omega
  · omega

namespace Machine

/-- The digits of a value have been written to memory from the index on. Nothing else has changed,
but that the counter has moved on. -/
structure Noted (machine stored : Machine) (value : UInt8) : Prop where
  written : ∀ offset, offset < 3 →
    stored.memory.byte? (machine.registers.index.toNat + offset) = (decimalDigits value)[offset]?
  outside : ∀ address,
    address < machine.registers.index.toNat ∨ machine.registers.index.toNat + 3 ≤ address →
      stored.memory.byte? address = machine.memory.byte? address
  rest : stored = { machine.advance .next with memory := stored.memory }

variable {machine stored between loaded : Machine} {word : Word} {value : UInt8}

theorem exists_noted (isStore : word.StoresDecimal)
    (inside : machine.registers.index.toNat + 3 ≤ Layout.memorySize) (listener : ToneListener) :
    ∃ stored, machine.perform listener word = (stored, .ok .nothing) ∧
      machine.Noted stored (machine.registers.get word.x) := by
  rw [machine.perform_of_encodes listener (.storeDecimal _) ⟨isStore.1, isStore.2, rfl⟩]
  have covers : Memory.Covers machine.registers.index.toNat
      (decimalDigits (machine.registers.get word.x)).length := inside
  have writes := machine.memory.write_of_covers covers
  simp only [execute, writes]
  refine ⟨_, rfl, ?_, ?_, rfl⟩
  · intro offset within
    exact Memory.byte?_inside_write writes within
  · intro address apart
    exact Memory.byte?_outside_write writes apart

/-- A load from the digits gives them to `V0` to `V2`. -/
theorem Noted.spells (noted : machine.Noted stored value) (filled : between.Filled loaded 2)
    (sameMemory : between.memory = stored.memory)
    (sameIndex : between.registers.index = machine.registers.index) :
    loaded.registers.Spells value := by
  apply Registers.spells_of_digits
  intro register within
  have found := filled.found register within
  rw [sameMemory, sameIndex, noted.written register.val (Nat.lt_succ_of_le within)] at found
  exact found

theorem perform_decimal_of_no_room (isStore : word.StoresDecimal)
    (outside : Layout.memorySize < machine.registers.index.toNat + 3) (listener : ToneListener) :
    machine.perform listener word =
      (machine, .error (.memory (.outOfBounds (max machine.registers.index.toNat Layout.memorySize)
        Layout.memorySize))) := by
  rw [machine.perform_of_encodes listener (.storeDecimal _) ⟨isStore.1, isStore.2, rfl⟩]
  exact execute_of_fault listener ((machine.reachFault?_eq_some_iff 3 _).mpr ⟨outside, rfl⟩)

/-- What `Fx33` has written, `F265` reads back.

If three bytes fit from the index on, `Fx33` writes there and changes nothing else but that the
counter moves on. From then on a load from the same index spells the value that the register had,
whichever register it was and whatever has become of the registers. The load moves the index behind
the digits, leaves the other registers as they are then, and leaves memory alone. If the three bytes
do not fit, none is written. -/
theorem decimal_read_back (machine : Machine) {store : Word} (isStore : store.StoresDecimal)
    (listener : ToneListener) :
    (machine.registers.index.toNat + 3 ≤ Layout.memorySize →
      ∃ stored, machine.perform listener store = (stored, .ok .nothing) ∧
        machine.Noted stored (machine.registers.get store.x) ∧
        ∀ between : Machine, between.memory = stored.memory →
          between.registers.index = machine.registers.index →
          ∃ loaded, between.perform listener 0xF265 = (loaded, .ok .nothing) ∧
            loaded.registers.Spells (machine.registers.get store.x) ∧
            (∀ register, 2 < register →
              loaded.registers.get register = between.registers.get register) ∧
            loaded.registers.index.toNat = machine.registers.index.toNat + 3 ∧
            loaded.memory = stored.memory) ∧
    (Layout.memorySize < machine.registers.index.toNat + 3 →
      machine.perform listener store =
        (machine, .error (.memory (.outOfBounds
          (max machine.registers.index.toNat Layout.memorySize) Layout.memorySize)))) := by
  refine ⟨?_, fun outside => perform_decimal_of_no_room isStore outside listener⟩
  intro inside
  obtain ⟨stored, stores, noted⟩ := exists_noted isStore inside listener
  refine ⟨stored, stores, noted, ?_⟩
  intro between sameMemory sameIndex
  have isLoad : Word.Loads 0xF265 := ⟨by decide, by decide⟩
  have lastLoaded : Word.x 0xF265 = 2 := by decide
  have insideLoad :
      between.registers.index.toNat + (Word.x 0xF265).val + 1 ≤ Layout.memorySize := by
    rw [sameIndex, lastLoaded]
    exact inside
  obtain ⟨loaded, loads⟩ := exists_load isLoad insideLoad listener
  have filled := (filled_of_perform isLoad loads).2
  rw [lastLoaded] at filled
  refine ⟨loaded, loads, noted.spells filled sameMemory sameIndex, filled.outside, ?_, ?_⟩
  · rw [filled.index, sameIndex]
    rfl
  · rw [filled.memory, sameMemory]

/-- `V1` holds 254: its digits fill the last three bytes of memory, and a load puts the second of
them in its place. -/
theorem decimal_read_back_at_end_of_memory :
    let machine : Machine := { registers := { Registers.initial.set 1 254 with index := 4093 } }
    Word.StoresDecimal 0xF133 ∧ machine.registers.index.toNat + 3 ≤ Layout.memorySize ∧
      ∃ stored loaded, machine.perform Surroundings.quiet.tone 0xF133 = (stored, .ok .nothing) ∧
        stored.perform Surroundings.quiet.tone 0xF265 = (loaded, .ok .nothing) ∧
        loaded.registers.Spells 254 ∧ loaded.registers.index.toNat = 4096 := by
  intro machine
  have isStore : Word.StoresDecimal 0xF133 := ⟨by decide, by decide⟩
  have inside : machine.registers.index.toNat + 3 ≤ Layout.memorySize := by decide
  obtain ⟨stored, stores, noted, readsBack⟩ :=
    (decimal_read_back machine isStore Surroundings.quiet.tone).1 inside
  have sameIndex : stored.registers.index = machine.registers.index := by
    rw [noted.rest]
    rfl
  obtain ⟨loaded, loads, spells, _, behind, _⟩ := readsBack stored rfl sameIndex
  exact ⟨isStore, inside, stored, loaded, stores, loads, spells, behind⟩

end Machine

end Chip8Machine
