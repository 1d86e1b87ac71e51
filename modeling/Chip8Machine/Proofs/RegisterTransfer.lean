import Chip8Machine.Proofs.Refusal

/-!
Moving registers to memory and back.

`Fx55` and `Fx65` agree on which byte belongs to which register, and both leave the index behind the
last of the bytes. So each of them undoes the other once the index is set back, and a dump that
follows another one writes right behind it.
-/

set_option autoImplicit false

namespace Chip8Machine

namespace Word

def Stores (word : Word) : Prop := word.lead = 0xF ∧ word.kk.toNat = 0x55

def Loads (word : Word) : Prop := word.lead = 0xF ∧ word.kk.toNat = 0x65

end Word

theorem toNat_indexBehind {index : UInt16} {last : Register}
    (inside : index.toNat + last.val + 1 ≤ Layout.memorySize) :
    (indexBehind index last).toNat = index.toNat + last.val + 1 := by
  have room : index.toNat + last.val + 1 ≤ 4096 := inside
  unfold indexBehind
  rw [UInt16.toNat_add, UInt16.toNat_ofNat']
  omega

namespace Machine

structure Dumped (machine stored : Machine) (last : Register) : Prop where
  written : ∀ register, register ≤ last →
    stored.memory.byte? (machine.registers.index.toNat + register.val) =
      some (machine.registers.get register)
  outside : ∀ address,
    address < machine.registers.index.toNat ∨ machine.registers.index.toNat + last.val < address →
      stored.memory.byte? address = machine.memory.byte? address
  registers : ∀ register, stored.registers.get register = machine.registers.get register
  index : stored.registers.index.toNat = machine.registers.index.toNat + last.val + 1

structure Filled (machine loaded : Machine) (last : Register) : Prop where
  found : ∀ register, register ≤ last →
    machine.memory.byte? (machine.registers.index.toNat + register.val) =
      some (loaded.registers.get register)
  outside : ∀ register, last < register →
    loaded.registers.get register = machine.registers.get register
  memory : loaded.memory = machine.memory
  index : loaded.registers.index.toNat = machine.registers.index.toNat + last.val + 1

variable {machine stored loaded : Machine} {word : Word} {listener : ToneListener} {demand : Demand}

/-! ### The two words -/

theorem exists_store (isStore : word.Stores)
    (inside : machine.registers.index.toNat + word.x.val + 1 ≤ Layout.memorySize)
    (listener : ToneListener) :
    ∃ stored, machine.perform listener word = (stored, .ok .nothing) :=
  perform_of_no_fault listener (.storeThrough _) ⟨isStore.1, isStore.2, rfl⟩ (if_pos inside)

theorem exists_load (isLoad : word.Loads)
    (inside : machine.registers.index.toNat + word.x.val + 1 ≤ Layout.memorySize)
    (listener : ToneListener) :
    ∃ loaded, machine.perform listener word = (loaded, .ok .nothing) :=
  perform_of_no_fault listener (.loadThrough _) ⟨isLoad.1, isLoad.2, rfl⟩ (if_pos inside)

theorem dumped_of_perform (isStore : word.Stores)
    (succeeds : machine.perform listener word = (stored, .ok demand)) :
    machine.registers.index.toNat + word.x.val + 1 ≤ Layout.memorySize ∧
      machine.Dumped stored word.x := by
  rw [machine.perform_of_encodes listener (.storeThrough _) ⟨isStore.1, isStore.2, rfl⟩] at succeeds
  simp only [execute] at succeeds
  split at succeeds
  case h_2 => cases succeeds
  case h_1 memory write =>
    have length := machine.registers.length_through word.x
    have inside : machine.registers.index.toNat + word.x.val + 1 ≤ Layout.memorySize := by
      have covers := Memory.covers_of_write write
      rw [length] at covers
      exact covers
    have behind := toNat_indexBehind inside
    generalize indexBehind machine.registers.index word.x = index at succeeds behind
    cases succeeds
    refine ⟨inside, ?_, ?_, fun _ => rfl, behind⟩
    · intro register within
      have below : register.val ≤ word.x.val := within
      exact (Memory.byte?_inside_write write (by omega)).trans
        (machine.registers.getElem?_through within)
    · intro address outside
      exact Memory.byte?_outside_write write (by omega)

theorem filled_of_perform (isLoad : word.Loads)
    (succeeds : machine.perform listener word = (loaded, .ok demand)) :
    machine.registers.index.toNat + word.x.val + 1 ≤ Layout.memorySize ∧
      machine.Filled loaded word.x := by
  rw [machine.perform_of_encodes listener (.loadThrough _) ⟨isLoad.1, isLoad.2, rfl⟩] at succeeds
  simp only [execute] at succeeds
  split at succeeds
  case h_2 => cases succeeds
  case h_1 values read =>
    have inside : machine.registers.index.toNat + word.x.val + 1 ≤ Layout.memorySize :=
      ((Memory.read_eq_ok_iff _ _ _ _).mp read).1
    have behind := toNat_indexBehind inside
    have values? := Memory.getElem?_of_read read
    have filled := machine.registers.get_fill values
    generalize machine.registers.fill values = registers at succeeds filled
    generalize indexBehind machine.registers.index word.x = index at succeeds behind
    cases succeeds
    refine ⟨inside, ?_, ?_, rfl, behind⟩
    · intro register within
      have below : register.val < word.x.val + 1 := Nat.lt_succ_of_le within
      have value : values[register.val]? = some (registers.get register) := by
        have present : register.val < values.length := by
          rw [Memory.length_of_read read]
          exact below
        rw [filled, List.getElem?_eq_getElem present]
        rfl
      change _ = some (registers.get register)
      rw [← value, values?, if_pos below]
    · intro register beyond
      have above : ¬ register.val < word.x.val + 1 := Nat.not_lt_of_le beyond
      change registers.get register = _
      rw [filled, values?, if_neg above]
      rfl

/-! ### One after the other -/

section

variable {last : Register} {changed restored reset kept between second : Machine} {later : Register}

theorem Dumped.restore (dumped : machine.Dumped stored last) (filled : changed.Filled restored last)
    (sameMemory : changed.memory = stored.memory)
    (sameIndex : changed.registers.index = machine.registers.index) {register : Register}
    (within : register ≤ last) :
    restored.registers.get register = machine.registers.get register := by
  have found := filled.found register within
  rw [sameMemory, sameIndex, dumped.written register within] at found
  exact (Option.some.inj found).symm

theorem Filled.keep (filled : machine.Filled loaded last) (dumped : reset.Dumped kept last)
    (sameMemory : reset.memory = loaded.memory)
    (sameIndex : reset.registers.index = machine.registers.index)
    (sameRegisters : ∀ register, register ≤ last →
      reset.registers.get register = loaded.registers.get register) :
    kept.memory = machine.memory := by
  apply Memory.ext
  intro address
  by_cases outside :
    address < machine.registers.index.toNat ∨ machine.registers.index.toNat + last.val < address
  · rw [dumped.outside address (sameIndex ▸ outside), sameMemory, filled.memory]
  · have bound := last.isLt
    let register : Register := ⟨address - machine.registers.index.toNat, by omega⟩
    have within : register ≤ last := by
      change address - machine.registers.index.toNat ≤ last.val
      omega
    have here : address = machine.registers.index.toNat + register.val := by
      change address = machine.registers.index.toNat + (address - machine.registers.index.toNat)
      omega
    have written := dumped.written register within
    rw [sameIndex, sameRegisters register within, ← filled.found register within, ← here] at written
    exact written

/-- The second of two dumps writes right behind the first. -/
theorem Dumped.continue (first : machine.Dumped stored last) (next : between.Dumped second later)
    (sameMemory : between.memory = stored.memory)
    (sameIndex : between.registers.index = stored.registers.index) :
    (∀ register, register ≤ last →
      second.memory.byte? (machine.registers.index.toNat + register.val) =
        some (machine.registers.get register)) ∧
    (∀ register, register ≤ later →
      second.memory.byte? (machine.registers.index.toNat + last.val + 1 + register.val) =
        some (between.registers.get register)) ∧
    (∀ address, address < machine.registers.index.toNat ∨
        machine.registers.index.toNat + last.val + 1 + later.val < address →
      second.memory.byte? address = machine.memory.byte? address) := by
  have start : between.registers.index.toNat = machine.registers.index.toNat + last.val + 1 := by
    rw [sameIndex, first.index]
  have outside := next.outside
  have written := next.written
  rw [start] at outside written
  refine ⟨?_, written, ?_⟩
  · intro register within
    have below : register.val ≤ last.val := within
    rw [outside _ (by omega), sameMemory, first.written register within]
  · intro address apart
    rw [outside address (by omega), sameMemory, first.outside address (by omega)]

end

/-- A dump of registers to memory and a load from there undo each other.

The bytes of the dump are those of the registers, and nothing else is written. Whatever becomes of
the registers, a load from the same index gives them their values back, and leaves the registers
behind the last as they are then. A load changes nothing in memory, nor does a dump to the same
index behind it. A second dump that goes on at the index which the first has left leaves the bytes
of the first alone, and its own begin right behind them. -/
theorem dump_and_load (machine : Machine) (listener : ToneListener) {store load : Word}
    (isStore : store.Stores) (isLoad : load.Loads) (sameLast : load.x = store.x)
    (inside : machine.registers.index.toNat + store.x.val + 1 ≤ Layout.memorySize) :
    ∃ stored loaded,
      machine.perform listener store = (stored, .ok .nothing) ∧ machine.Dumped stored store.x ∧
      machine.perform listener load = (loaded, .ok .nothing) ∧ machine.Filled loaded store.x ∧
      (∀ changed : Machine, changed.memory = stored.memory →
        changed.registers.index = machine.registers.index →
        ∃ restored, changed.perform listener load = (restored, .ok .nothing) ∧
          changed.Filled restored store.x ∧
          ∀ register, register ≤ store.x →
            restored.registers.get register = machine.registers.get register) ∧
      (∀ reset : Machine, reset.memory = loaded.memory →
        reset.registers.index = machine.registers.index →
        (∀ register, register ≤ store.x →
          reset.registers.get register = loaded.registers.get register) →
        ∃ kept, reset.perform listener store = (kept, .ok .nothing) ∧
          kept.memory = machine.memory) ∧
      (∀ (between second : Machine) (again : Word) (demand : Demand), again.Stores →
        between.memory = stored.memory → between.registers.index = stored.registers.index →
        between.perform listener again = (second, .ok demand) →
        machine.registers.index.toNat + store.x.val + 1 + again.x.val + 1 ≤ Layout.memorySize ∧
        (∀ register, register ≤ store.x →
          second.memory.byte? (machine.registers.index.toNat + register.val) =
            some (machine.registers.get register)) ∧
        (∀ register, register ≤ again.x →
          second.memory.byte? (machine.registers.index.toNat + store.x.val + 1 + register.val) =
            some (between.registers.get register)) ∧
        (∀ address, address < machine.registers.index.toNat ∨
            machine.registers.index.toNat + store.x.val + 1 + again.x.val < address →
          second.memory.byte? address = machine.memory.byte? address)) := by
  -- The load is told with the last register of the store.
  have insideLoad : machine.registers.index.toNat + load.x.val + 1 ≤ Layout.memorySize :=
    sameLast ▸ inside
  obtain ⟨stored, stores⟩ := exists_store isStore inside listener
  obtain ⟨loaded, loads⟩ := exists_load isLoad insideLoad listener
  have dumped := (dumped_of_perform isStore stores).2
  have filled := sameLast ▸ (filled_of_perform isLoad loads).2
  refine ⟨stored, loaded, stores, dumped, loads, filled, ?_, ?_, ?_⟩
  · intro changed sameMemory sameIndex
    obtain ⟨restored, restores⟩ := exists_load isLoad (sameIndex ▸ insideLoad) listener
    have refilled := sameLast ▸ (filled_of_perform isLoad restores).2
    exact ⟨restored, restores, refilled, fun register within =>
      dumped.restore refilled sameMemory sameIndex within⟩
  · intro reset sameMemory sameIndex sameRegisters
    obtain ⟨kept, keeps⟩ := exists_store isStore (sameIndex ▸ inside) listener
    have redumped := (dumped_of_perform isStore keeps).2
    exact ⟨kept, keeps, filled.keep redumped sameMemory sameIndex sameRegisters⟩
  · intro between second again demand isAgain sameMemory sameIndex succeeds
    obtain ⟨room, next⟩ := dumped_of_perform isAgain succeeds
    rw [sameIndex, dumped.index] at room
    exact ⟨room, dumped.continue next sameMemory sameIndex⟩

/-- `V0` to `V2` fill the last three bytes of memory, and come back into registers that have been
cleared. -/
theorem dump_and_load_at_end_of_memory :
    let machine : Machine := { registers := { Registers.initial.set 2 7 with index := 4093 } }
    Word.Stores 0xF255 ∧ Word.Loads 0xF265 ∧ Word.x 0xF265 = Word.x 0xF255 ∧
      machine.registers.index.toNat + (Word.x 0xF255).val + 1 ≤ Layout.memorySize ∧
      ∃ stored restored, machine.perform Surroundings.quiet.tone 0xF255 = (stored, .ok .nothing) ∧
        stored.memory.byte? 4095 = some 7 ∧ stored.registers.index.toNat = 4096 ∧
        (stored.withRegisters { index := 4093 }).perform Surroundings.quiet.tone 0xF265 =
          (restored, .ok .nothing) ∧
        restored.registers.get 2 = 7 := by
  intro machine
  have isStore : Word.Stores 0xF255 := ⟨by decide, by decide⟩
  have isLoad : Word.Loads 0xF265 := ⟨by decide, by decide⟩
  have sameLast : Word.x 0xF265 = Word.x 0xF255 := by decide
  have inside : machine.registers.index.toNat + (Word.x 0xF255).val + 1 ≤ Layout.memorySize := by
    decide
  have within : (2 : Register) ≤ Word.x 0xF255 := by decide
  obtain ⟨stored, loaded, stores, dumped, _, _, restores, _⟩ :=
    dump_and_load machine Surroundings.quiet.tone isStore isLoad sameLast inside
  obtain ⟨restored, loads, _, same⟩ := restores (stored.withRegisters { index := 4093 }) rfl rfl
  refine ⟨isStore, isLoad, sameLast, inside, stored, restored, stores, ?_, dumped.index, loads, ?_⟩
  · exact dumped.written 2 within
  · exact same 2 within

end Machine

end Chip8Machine
