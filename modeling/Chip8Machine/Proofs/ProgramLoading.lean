import Chip8Machine.Proofs.MemoryAccess

/-!
What loading programs leaves in memory.

A program overwrites the bytes that it is long from the program start on, and a program that is too
long overwrites nothing. So behind several loads every byte is that of the last program that reaches
it.
-/

set_option autoImplicit false

namespace Chip8Machine

namespace Memory

/-- Loading the program puts one of its bytes at the address. -/
def Overwrites (program : List UInt8) (address : Nat) : Prop :=
  program.length ≤ Layout.programLimit ∧ Layout.programStart ≤ address ∧
    address < Layout.programStart + program.length

theorem overwrites_iff (program : List UInt8) (offset : Nat) :
    Overwrites program (Layout.programStart + offset) ↔
      program.length ≤ Layout.programLimit ∧ offset < program.length := by
  unfold Overwrites
  constructor
  · intro overwrites
    exact ⟨overwrites.1, Nat.lt_of_add_lt_add_left overwrites.2.2⟩
  · intro reached
    exact ⟨reached.1, Nat.le_add_right _ _, Nat.add_lt_add_left reached.2 _⟩

theorem spare_of_shorter {programs : List (List UInt8)} {offset : Nat}
    (shorter : ∀ program ∈ programs, program.length ≤ Layout.programLimit →
      program.length ≤ offset) :
    ∀ program ∈ programs, ¬ Overwrites program (Layout.programStart + offset) := by
  intro program member overwrites
  obtain ⟨fits, reached⟩ := (overwrites_iff program offset).mp overwrites
  exact absurd (shorter program member fits) (Nat.not_le_of_lt reached)

theorem exists_load_iff (memory : Memory) (program : List UInt8) :
    (∃ loaded, memory.load program = .ok loaded) ↔ program.length ≤ Layout.programLimit := by
  cases loads : memory.load program with
  | ok loaded =>
      constructor
      · intro _
        apply Nat.le_of_not_lt
        intro oversized
        rw [(memory.load_eq_error_iff program _).mpr ⟨oversized, rfl⟩] at loads
        cases loads
      · intro _
        exact ⟨loaded, rfl⟩
  | error fault =>
      have oversized := ((memory.load_eq_error_iff program fault).mp loads).1
      constructor
      · rintro ⟨loaded, impossible⟩
        cases impossible
      · intro fits
        exact absurd fits (Nat.not_le_of_lt oversized)

theorem byte?_of_loaded {memory loaded : Memory} {program : List UInt8}
    (succeeds : memory.load program = .ok loaded) {offset : Nat}
    (within : offset < program.length) :
    loaded.byte? (Layout.programStart + offset) = program[offset]? := by
  rw [byte?_of_load succeeds, if_pos (by omega), Nat.add_sub_cancel_left]

end Memory

namespace Machine

/-! ### One load after the other -/

theorem happen_load_of_oversized {machine : Machine} {program : List UInt8}
    (oversized : Layout.programLimit < program.length) (surroundings : Surroundings) :
    machine.happen surroundings (.load program) = machine := by
  have refused := (machine.memory.load_eq_error_iff program _).mpr ⟨oversized, rfl⟩
  simp only [happen, load, refused]

theorem memory_happen_load {machine : Machine} {loaded : Memory} {program : List UInt8}
    (succeeds : machine.memory.load program = .ok loaded) (surroundings : Surroundings) :
    (machine.happen surroundings (.load program)).memory = loaded := by
  simp only [happen, load, succeeds]

section

variable {machine : Machine} {surroundings : Surroundings} {program : List UInt8} {address : Nat}

theorem byte?_happen_load (overwrites : Memory.Overwrites program address) :
    (machine.happen surroundings (.load program)).memory.byte? address =
      program[address - Layout.programStart]? := by
  obtain ⟨loaded, succeeds⟩ := (machine.memory.exists_load_iff program).mpr overwrites.1
  rw [memory_happen_load succeeds, Memory.byte?_of_load succeeds, if_pos overwrites.2]

theorem byte?_happen_load_of_not_overwrites (spares : ¬ Memory.Overwrites program address) :
    (machine.happen surroundings (.load program)).memory.byte? address =
      machine.memory.byte? address := by
  by_cases fits : program.length ≤ Layout.programLimit
  · obtain ⟨loaded, succeeds⟩ := (machine.memory.exists_load_iff program).mpr fits
    have apart := fun within => spares ⟨fits, within⟩
    rw [memory_happen_load succeeds, Memory.byte?_of_load succeeds, if_neg apart]
  · rw [happen_load_of_oversized (Nat.lt_of_not_le fits)]

theorem byte?_of_loads_of_not_overwrites {programs : List (List UInt8)}
    (spare : ∀ program ∈ programs, ¬ Memory.Overwrites program address) :
    (machine.happenAll surroundings (programs.map .load)).memory.byte? address =
      machine.memory.byte? address := by
  induction programs generalizing machine with
  | nil => rfl
  | cons program rest ih =>
      have spareRest := fun other member => spare other (List.mem_cons_of_mem _ member)
      exact (ih spareRest).trans
        (byte?_happen_load_of_not_overwrites (spare program List.mem_cons_self))

/-- The last program that overwrites an address decides. -/
theorem byte?_of_loads {later : List (List UInt8)} (earlier : List (List UInt8))
    (overwrites : Memory.Overwrites program address)
    (spare : ∀ other ∈ later, ¬ Memory.Overwrites other address) :
    (machine.happenAll surroundings ((earlier ++ program :: later).map .load)).memory.byte?
        address =
      program[address - Layout.programStart]? := by
  rw [List.map_append, happenAll_append]
  exact (byte?_of_loads_of_not_overwrites spare).trans (byte?_happen_load overwrites)

end

/-- A program is loaded exactly if there is room for it, and then memory is changed where the
program stands and nowhere else.

A program that is too long is refused with its length and the limit, and the machine stays as it
was. Otherwise the bytes of the program stand from the program start on, so that each two of them
are fetched as a word; the font, what lies between it and the program, and the rest of a longer
program from before are as they were. After any programs, refused ones among them, a byte is that of
the last program that was loaded and is long enough; if there is none, it is the byte that was there
before. -/
theorem loading_exact (machine : Machine) (surroundings : Surroundings) :
    (∀ program, (∃ loaded, machine.memory.load program = .ok loaded) ↔
      program.length ≤ Layout.programLimit) ∧
    (∀ program, Layout.programLimit < program.length →
      machine.memory.load program = .error (.oversizedProgram program.length Layout.programLimit) ∧
        machine.happen surroundings (.load program) = machine) ∧
    (∀ program loaded, machine.memory.load program = .ok loaded →
      (machine.happen surroundings (.load program)).memory = loaded ∧
      (∀ offset, offset < program.length →
        loaded.byte? (Layout.programStart + offset) = program[offset]?) ∧
      (∀ address, address < Layout.programStart ∨ Layout.programStart + program.length ≤ address →
        loaded.byte? address = machine.memory.byte? address) ∧
      ∀ offset high low, program[offset]? = some high → program[offset + 1]? = some low →
        ∃ word, loaded.fetch (Layout.programStart + offset) = .ok word ∧
          word.toNat = 256 * high.toNat + low.toNat) ∧
    (∀ earlier program later offset, program.length ≤ Layout.programLimit →
      offset < program.length →
      (∀ other ∈ later, other.length ≤ Layout.programLimit → other.length ≤ offset) →
      (machine.happenAll surroundings ((earlier ++ program :: later).map .load)).memory.byte?
        (Layout.programStart + offset) = program[offset]?) ∧
    ∀ (programs : List (List UInt8)) (offset : Nat),
      (∀ program ∈ programs, program.length ≤ Layout.programLimit → program.length ≤ offset) →
      (machine.happenAll surroundings (programs.map .load)).memory.byte?
          (Layout.programStart + offset) =
        machine.memory.byte? (Layout.programStart + offset) := by
  refine ⟨machine.memory.exists_load_iff, ?_, ?_, ?_, ?_⟩
  · intro program oversized
    constructor
    · exact (machine.memory.load_eq_error_iff program _).mpr ⟨oversized, rfl⟩
    · exact happen_load_of_oversized oversized surroundings
  · intro program loaded succeeds
    refine ⟨memory_happen_load succeeds surroundings,
      fun offset => Memory.byte?_of_loaded succeeds, ?_, ?_⟩
    · intro address apart
      rw [Memory.byte?_of_load succeeds, if_neg (by omega)]
    · intro offset high low first second
      obtain ⟨within, _⟩ := List.getElem?_eq_some_iff.mp first
      obtain ⟨withinNext, _⟩ := List.getElem?_eq_some_iff.mp second
      have here := (Memory.byte?_of_loaded succeeds within).trans first
      have behind := (Memory.byte?_of_loaded succeeds withinNext).trans second
      exact Memory.fetch_of_bytes here behind
  · intro earlier program later offset fits within shorter
    have overwrites := (Memory.overwrites_iff program offset).mpr ⟨fits, within⟩
    rw [byte?_of_loads earlier overwrites (Memory.spare_of_shorter shorter),
      Nat.add_sub_cancel_left]
  · intro programs offset shorter
    exact byte?_of_loads_of_not_overwrites (Memory.spare_of_shorter shorter)

end Machine

end Chip8Machine
