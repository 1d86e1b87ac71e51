import Chip8Machine.Checked
import Chip8Machine.History
import Chip8Machine.Proofs.Cycle

/-!
Accesses to whole ranges of memory, compared with accesses to single bytes.

A range is checked once, before anything is read or written. Byte by byte the same access would get
as far as the first address that is not in memory. If there is a byte to access, both come to the
same, also to the same fault; but only the access to the range leaves memory alone when it fails.
-/

set_option autoImplicit false

namespace Chip8Machine

namespace Memory

def readEach (memory : Memory) : Nat → Nat → Except MemoryFault (List UInt8)
  | _, 0 => .ok []
  | start, count + 1 =>
      match memory.readByte start with
      | .error fault => .error fault
      | .ok byte =>
          match memory.readEach (start + 1) count with
          | .error fault => .error fault
          | .ok rest => .ok (byte :: rest)

/-- Writes bytes one after the other, up to the first that is refused. Those before it stay
written. -/
def writeEach (memory : Memory) : Nat → List UInt8 → Memory × Except MemoryFault Unit
  | _, [] => (memory, .ok ())
  | start, byte :: rest =>
      match memory.writeByte start byte with
      | .error fault => (memory, .error fault)
      | .ok written => written.writeEach (start + 1) rest

/-! ### Single bytes -/

theorem exists_byte (memory : Memory) {address : Nat} (inside : address < Layout.memorySize) :
    ∃ byte, memory.byte? address = some byte := by
  obtain ⟨byte, found, _⟩ := memory.byteAt_of_lt inside
  exact ⟨byte, found⟩

theorem exists_writeByte (memory : Memory) (value : UInt8) {address : Nat}
    (inside : address < Layout.memorySize) :
    ∃ written, memory.writeByte address value = .ok written :=
  ⟨_, dif_pos inside⟩

theorem readByte_of_outside (memory : Memory) {address : Nat}
    (beyond : Layout.memorySize ≤ address) :
    memory.readByte address = .error (outside address) := by
  have first : max address Layout.memorySize = address := Nat.max_eq_left beyond
  unfold outside
  rw [first, readByte_eq_error_iff]
  exact ⟨beyond, rfl⟩

theorem writeByte_of_outside (memory : Memory) (value : UInt8) {address : Nat}
    (beyond : Layout.memorySize ≤ address) :
    memory.writeByte address value = .error (outside address) := by
  have first : max address Layout.memorySize = address := Nat.max_eq_left beyond
  unfold outside
  rw [first, writeByte_eq_error_iff]
  exact ⟨beyond, rfl⟩

/-- As long as a range begins in memory, the first address that is not there is the one behind
memory. -/
theorem outside_succ {start : Nat} (inside : start < Layout.memorySize) :
    outside (start + 1) = outside start := by
  unfold outside
  rw [Nat.max_eq_right (Nat.succ_le_of_lt inside), Nat.max_eq_right (Nat.le_of_lt inside)]

theorem covers_succ_iff (start count : Nat) :
    Covers start (count + 1) ↔ Covers (start + 1) count := by
  unfold Covers
  rw [Nat.add_right_comm, Nat.add_assoc]

/-! ### Reading -/

theorem drop_of_byte {memory : Memory} {address : Nat} {byte : UInt8}
    (found : memory.byte? address = some byte) :
    memory.toList.drop address = byte :: memory.toList.drop (address + 1) := by
  rw [byte?_eq_toList] at found
  obtain ⟨inside, same⟩ := List.getElem?_eq_some_iff.mp found
  rw [List.drop_eq_getElem_cons inside, same]

theorem readEach_of_covers (memory : Memory) {start count : Nat} (covers : Covers start count) :
    memory.readEach start count = .ok ((memory.toList.drop start).take count) := by
  induction count generalizing start with
  | zero => rw [readEach, List.take_zero]
  | succ count ih =>
      have inside : start < Layout.memorySize := by
        unfold Covers at covers
        omega
      obtain ⟨byte, found⟩ := memory.exists_byte inside
      have read := (memory.readByte_eq_ok_iff start byte).mpr found
      have rest := ih ((covers_succ_iff start count).mp covers)
      simp only [readEach, read, rest]
      rw [drop_of_byte found, List.take_succ_cons]

theorem readEach_of_not_covers (memory : Memory) {start count : Nat} (beyond : ¬ Covers start count)
    (nonempty : 0 < count) : memory.readEach start count = .error (outside start) := by
  induction count generalizing start with
  | zero => exact absurd nonempty (Nat.lt_irrefl 0)
  | succ count ih =>
      by_cases inside : start < Layout.memorySize
      · obtain ⟨byte, found⟩ := memory.exists_byte inside
        have read := (memory.readByte_eq_ok_iff start byte).mpr found
        have restBeyond := mt (covers_succ_iff start count).mpr beyond
        -- The range goes on: with its first byte alone it would be covered.
        have restNonempty : 0 < count := by
          unfold Covers at restBeyond
          omega
        have rest := ih restBeyond restNonempty
        simp only [readEach, read, rest]
        rw [outside_succ inside]
      · have refused := memory.readByte_of_outside (Nat.le_of_not_lt inside)
        simp only [readEach, refused]

theorem read_eq_readEach (memory : Memory) (start : Nat) {count : Nat} (nonempty : 0 < count) :
    memory.read start count = memory.readEach start count := by
  by_cases covers : Covers start count
  · rw [memory.readEach_of_covers covers, read_eq_ok_iff]
    exact ⟨covers, rfl⟩
  · rw [memory.readEach_of_not_covers covers nonempty, read_eq_error_iff]
    exact ⟨covers, rfl⟩

/-! ### Writing -/

theorem overlay_nil (memory : Memory) (start : Nat) (covers : Covers start [].length) :
    memory.overlay start [] covers = memory := by
  apply Memory.ext
  intro address
  rw [byte?_overlay]
  apply if_neg
  rw [List.length_nil]
  omega

theorem overlay_cons {memory written : Memory} {start : Nat} {byte : UInt8} {rest : List UInt8}
    (writes : memory.writeByte start byte = .ok written)
    (covers : Covers start (byte :: rest).length) (restCovers : Covers (start + 1) rest.length) :
    written.overlay (start + 1) rest restCovers = memory.overlay start (byte :: rest) covers := by
  apply Memory.ext
  intro address
  rw [byte?_overlay, byte?_overlay, byte?_of_writeByte writes, List.length_cons]
  by_cases first : address = start
  · subst first
    rw [if_neg (by omega), if_pos rfl, if_pos (by omega), Nat.sub_self]
    rfl
  · by_cases within : start + 1 ≤ address ∧ address < start + 1 + rest.length
    · have offset : address - start = address - (start + 1) + 1 := by omega
      rw [if_pos within, if_pos (by omega), offset, List.getElem?_cons_succ]
    · rw [if_neg within, if_neg first, if_neg (by omega)]

theorem writeEach_of_covers (memory : Memory) {start : Nat} {data : List UInt8}
    (covers : Covers start data.length) :
    memory.writeEach start data = (memory.overlay start data covers, .ok ()) := by
  induction data generalizing memory start with
  | nil => rw [writeEach, overlay_nil]
  | cons byte rest ih =>
      have restCovers := (covers_succ_iff start rest.length).mp covers
      have inside : start < Layout.memorySize := by
        unfold Covers at restCovers
        omega
      obtain ⟨written, writes⟩ := memory.exists_writeByte byte inside
      simp only [writeEach, writes]
      rw [ih written restCovers, overlay_cons writes covers restCovers]

theorem writeEach_of_not_covers (memory : Memory) {start : Nat} {data : List UInt8}
    (beyond : ¬ Covers start data.length) (nonempty : data ≠ []) :
    (memory.writeEach start data).2 = .error (outside start) := by
  induction data generalizing memory start with
  | nil => exact absurd rfl nonempty
  | cons byte rest ih =>
      by_cases inside : start < Layout.memorySize
      · obtain ⟨written, writes⟩ := memory.exists_writeByte byte inside
        have restBeyond := mt (covers_succ_iff start rest.length).mpr beyond
        have restNonempty : rest ≠ [] := by
          rintro rfl
          exact restBeyond (Nat.succ_le_of_lt inside)
        simp only [writeEach, writes]
        rw [ih written restBeyond restNonempty, outside_succ inside]
      · have refused := memory.writeByte_of_outside byte (Nat.le_of_not_lt inside)
        simp only [writeEach, refused]

theorem write_of_covers (memory : Memory) {start : Nat} {data : List UInt8}
    (covers : Covers start data.length) :
    memory.write start data = .ok (memory.overlay start data covers) :=
  dif_pos covers

theorem exists_write_iff_exists_read (memory : Memory) (start : Nat) (data : List UInt8) :
    (∃ written, memory.write start data = .ok written) ↔
      ∃ bytes, memory.read start data.length = .ok bytes := by
  constructor
  · rintro ⟨written, succeeds⟩
    have covers := covers_of_write succeeds
    exact ⟨_, (memory.read_eq_ok_iff start data.length _).mpr ⟨covers, rfl⟩⟩
  · rintro ⟨bytes, succeeds⟩
    have covers := ((memory.read_eq_ok_iff start data.length bytes).mp succeeds).1
    exact ⟨_, memory.write_of_covers covers⟩

theorem write_eq_error_iff_read (memory : Memory) (start : Nat) (data : List UInt8)
    (fault : MemoryFault) :
    memory.write start data = .error fault ↔ memory.read start data.length = .error fault := by
  rw [write_eq_error_iff, read_eq_error_iff]

theorem write_eq_ok_iff_writeEach (memory : Memory) (start : Nat) {data : List UInt8}
    (nonempty : data ≠ []) (written : Memory) :
    memory.write start data = .ok written ↔ memory.writeEach start data = (written, .ok ()) := by
  by_cases covers : Covers start data.length
  · rw [memory.write_of_covers covers, memory.writeEach_of_covers covers, Except.ok.injEq,
      Prod.mk.injEq]
    exact (and_iff_left rfl).symm
  · have refused := memory.writeEach_of_not_covers covers nonempty
    constructor
    · intro succeeds
      exact absurd (covers_of_write succeeds) covers
    · intro succeeds
      rw [succeeds] at refused
      cases refused

theorem write_eq_error_iff_writeEach (memory : Memory) (start : Nat) {data : List UInt8}
    (nonempty : data ≠ []) (fault : MemoryFault) :
    memory.write start data = .error fault ↔ (memory.writeEach start data).2 = .error fault := by
  rw [write_eq_error_iff]
  by_cases covers : Covers start data.length
  · rw [memory.writeEach_of_covers covers]
    constructor
    · intro refused
      exact absurd covers refused.1
    · intro impossible
      cases impossible
  · rw [memory.writeEach_of_not_covers covers nonempty, Except.error.injEq, and_iff_right covers]
    exact eq_comm

/-! ### Empty ranges -/

theorem read_nothing_iff (memory : Memory) (start : Nat) (bytes : List UInt8) :
    memory.read start 0 = .ok bytes ↔ start ≤ Layout.memorySize ∧ bytes = [] := by
  rw [read_eq_ok_iff, List.take_zero]
  exact Iff.rfl

theorem write_nothing_iff (memory : Memory) (start : Nat) (written : Memory) :
    memory.write start [] = .ok written ↔ start ≤ Layout.memorySize ∧ written = memory := by
  by_cases covers : Covers start 0
  · have inside : start ≤ Layout.memorySize := covers
    rw [memory.write_of_covers covers, overlay_nil, Except.ok.injEq, and_iff_right inside]
    exact eq_comm
  · constructor
    · intro succeeds
      exact absurd (covers_of_write succeeds) covers
    · intro inside
      exact absurd inside.1 covers

/-! ### Words -/

theorem fetch_eq_ok_iff_readByte (memory : Memory) (pointer : Nat) (word : Word) :
    memory.fetch pointer = .ok word ↔
      ∃ high low, memory.readByte pointer = .ok high ∧ memory.readByte (pointer + 1) = .ok low ∧
        word.toNat = 256 * high.toNat + low.toNat := by
  simp only [fetch_eq_ok_iff, readByte_eq_ok_iff, ← Word.toNat_ofBytes, UInt16.toNat_inj]

/-- Two bytes that stand one behind the other are fetched as a word. -/
theorem fetch_of_bytes {memory : Memory} {pointer : Nat} {high low : UInt8}
    (first : memory.byte? pointer = some high) (second : memory.byte? (pointer + 1) = some low) :
    ∃ word, memory.fetch pointer = .ok word ∧ word.toNat = 256 * high.toNat + low.toNat := by
  have fetched :=
    (memory.fetch_eq_ok_iff pointer (Word.ofBytes high low)).mpr ⟨high, low, first, second, rfl⟩
  exact ⟨_, fetched, Word.toNat_ofBytes high low⟩

theorem byte?_of_written {memory written : Memory} {start offset : Nat} {data : List UInt8}
    {byte : UInt8} (succeeds : memory.write start data = .ok written)
    (present : data[offset]? = some byte) :
    written.byte? (start + offset) = some byte := by
  obtain ⟨within, _⟩ := List.getElem?_eq_some_iff.mp present
  exact (byte?_inside_write succeeds within).trans present

theorem happen_write_of_error {machine : Machine} {start : Nat} {data : List UInt8}
    {fault : MemoryFault} (refused : machine.memory.write start data = .error fault)
    (surroundings : Surroundings) :
    machine.happen surroundings (.write start data) = machine := by
  simp only [Machine.happen, Machine.write, refused]

/-- Access to a range agrees with access to its bytes, one after the other.

If there is a byte to access, reading a range comes to the bytes that are read one by one, or to the
fault of the first that is not in memory. Writing succeeds and fails in the same cases and with the
same fault. When it succeeds, memory is as if the bytes had been written one by one, and no other
byte has changed; when it fails, a machine stays as it was. Without a byte to access, an access
succeeds up to the address behind memory, and comes to nothing. A word is made of the two bytes at
its address, also right behind a write. Sums of addresses that are computed with sixty-four bits,
and may not fit, come to all the same. -/
theorem ranges_agree_with_bytes (memory : Memory) (start : Nat) :
    (∀ count, 0 < count → memory.read start count = memory.readEach start count) ∧
    (∀ count fault, memory.read start count = .error fault →
      fault = .outOfBounds (max start Layout.memorySize) Layout.memorySize ∧
        memory.readByte (max start Layout.memorySize) = .error fault) ∧
    (∀ data,
      ((∃ written, memory.write start data = .ok written) ↔
        ∃ bytes, memory.read start data.length = .ok bytes) ∧
      ∀ fault, memory.write start data = .error fault ↔
        memory.read start data.length = .error fault) ∧
    (∀ data, data ≠ [] →
      (∀ written, memory.write start data = .ok written ↔
        memory.writeEach start data = (written, .ok ())) ∧
      ∀ fault, memory.write start data = .error fault ↔
        (memory.writeEach start data).2 = .error fault) ∧
    (∀ data written, memory.write start data = .ok written →
      (∀ address, address < start ∨ start + data.length ≤ address →
        written.byte? address = memory.byte? address) ∧
      ∀ offset high low, data[offset]? = some high → data[offset + 1]? = some low →
        ∃ word, written.fetch (start + offset) = .ok word ∧
          word.toNat = 256 * high.toNat + low.toNat) ∧
    (∀ (machine : Machine) surroundings data fault, machine.memory = memory →
      memory.write start data = .error fault →
        machine.happen surroundings (.write start data) = machine) ∧
    (∀ bytes, memory.read start 0 = .ok bytes ↔ start ≤ Layout.memorySize ∧ bytes = []) ∧
    (∀ written, memory.write start [] = .ok written ↔
      start ≤ Layout.memorySize ∧ written = memory) ∧
    (∀ pointer, ((∃ word, memory.fetch pointer = .ok word) ↔ pointer + 1 < Layout.memorySize) ∧
      ∀ word, memory.fetch pointer = .ok word ↔
        ∃ high low, memory.readByte pointer = .ok high ∧ memory.readByte (pointer + 1) = .ok low ∧
          word.toNat = 256 * high.toNat + low.toNat) ∧
    (∀ count, memory.readAt start count = .ok (memory.read start count)) ∧
    (∀ data, memory.writeAt start data = .ok (memory.write start data)) ∧
    ∀ pointer, pointer + 1 < UInt64.size → memory.fetchAt pointer = .ok (memory.fetch pointer) := by
  refine ⟨fun count => memory.read_eq_readEach start, ?_, ?_, ?_, ?_, ?_,
    memory.read_nothing_iff start, memory.write_nothing_iff start, ?_,
    memory.readAt_eq start, memory.writeAt_eq start, fun pointer => memory.fetchAt_eq⟩
  · intro count fault refused
    obtain ⟨_, rfl⟩ := (memory.read_eq_error_iff start count fault).mp refused
    constructor
    · rfl
    · rw [readByte_eq_error_iff]
      exact ⟨Nat.le_max_right _ _, rfl⟩
  · intro data
    exact ⟨memory.exists_write_iff_exists_read start data,
      memory.write_eq_error_iff_read start data⟩
  · intro data nonempty
    exact ⟨memory.write_eq_ok_iff_writeEach start nonempty,
      memory.write_eq_error_iff_writeEach start nonempty⟩
  · intro data written succeeds
    constructor
    · intro address apart
      rw [byte?_of_write succeeds, if_neg (by omega)]
    · intro offset high low first second
      have behind : written.byte? (start + offset + 1) = some low := by
        rw [Nat.add_assoc]
        exact byte?_of_written succeeds second
      exact fetch_of_bytes (byte?_of_written succeeds first) behind
  · rintro machine surroundings data fault rfl refused
    exact happen_write_of_error refused surroundings
  · intro pointer
    exact ⟨memory.exists_fetch_eq_ok_iff pointer, memory.fetch_eq_ok_iff_readByte pointer⟩

end Memory

end Chip8Machine
