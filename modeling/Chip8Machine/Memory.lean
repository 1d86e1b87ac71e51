import Chip8Machine.Word

/-!
Memory: 4096 bytes with the font at its start.

An access names a range of addresses and fails as a whole, before anything is written, if one of
them is not in memory; the fault names the first such address. Addresses are unbounded numbers, so a
range cannot wrap around.
-/

set_option autoImplicit false

namespace Chip8Machine

structure Memory where
  bytes : Vector UInt8 Layout.memorySize
  deriving DecidableEq

namespace Memory

def blank : Memory :=
  ⟨⟨(Layout.font ++ List.replicate (Layout.memorySize - Layout.font.length) 0).toArray,
    by
      rw [List.size_toArray, List.length_append, List.length_replicate]
      rfl⟩⟩

def toList (memory : Memory) : List UInt8 := memory.bytes.toList

def byte? (memory : Memory) (address : Nat) : Option UInt8 := memory.bytes[address]?

def sum (memory : Memory) : Nat :=
  memory.bytes.foldl (fun total byte => total + byte.toNat) 0

/-! ### Ranges of addresses -/

/-- All the addresses of a range are in memory. An empty range needs a start that is at most the
address behind the last. -/
def Covers (start count : Nat) : Prop := start + count ≤ Layout.memorySize

instance (start count : Nat) : Decidable (Covers start count) :=
  inferInstanceAs (Decidable (start + count ≤ Layout.memorySize))

def outside (start : Nat) : MemoryFault :=
  .outOfBounds (max start Layout.memorySize) Layout.memorySize

def overlay (memory : Memory) (start : Nat) (data : List UInt8)
    (covers : Covers start data.length) : Memory :=
  let before := memory.toList.take start
  let after := memory.toList.drop (start + data.length)
  ⟨⟨(before ++ data ++ after).toArray, by
    unfold Covers at covers
    simp [before, after, toList]
    omega⟩⟩

/-! ### Access -/

def readByte (memory : Memory) (address : Nat) : Except MemoryFault UInt8 :=
  match memory.byte? address with
  | some byte => .ok byte
  | none => .error (.outOfBounds address Layout.memorySize)

def writeByte (memory : Memory) (address : Nat) (value : UInt8) : Except MemoryFault Memory :=
  if inside : address < Layout.memorySize then
    .ok ⟨memory.bytes.set address value inside⟩
  else
    .error (.outOfBounds address Layout.memorySize)

def read (memory : Memory) (start count : Nat) : Except MemoryFault (List UInt8) :=
  if Covers start count then
    .ok (memory.bytes.toArray.extract start (start + count)).toList
  else
    .error (outside start)

def write (memory : Memory) (start : Nat) (data : List UInt8) : Except MemoryFault Memory :=
  if covers : Covers start data.length then
    .ok (memory.overlay start data covers)
  else
    .error (outside start)

def fetch (memory : Memory) (pointer : Nat) : Except WordFault Word :=
  Word.read memory.byte? Layout.memorySize pointer

/-- Memory with a program written from the program start on; the rest stays as it was. -/
def load (memory : Memory) (program : List UInt8) : Except MemoryFault Memory :=
  if fits : program.length ≤ Layout.programLimit then
    .ok (memory.overlay Layout.programStart program (by
      unfold Covers
      have room := Layout.programStart_add_programLimit
      omega))
  else
    .error (.oversizedProgram program.length Layout.programLimit)

/-- The addresses at which two memories differ, in ascending order, with the later byte. -/
def changes (earlier later : Memory) : List (Nat × UInt8) :=
  ((earlier.toList.zip later.toList).zipIdx.filter fun (pair, _) => pair.1 != pair.2).map
    fun (pair, address) => (address, pair.2)

def describe (memory : Memory) : String :=
  "Memory \x7b len: " ++ toString memory.bytes.size ++ " \x7d"

/-! ### The bytes behind an access -/

@[ext] theorem ext {first second : Memory}
    (same : ∀ address, first.byte? address = second.byte? address) : first = second := by
  cases first with
  | mk firstBytes =>
    cases second with
    | mk secondBytes =>
      congr 1
      apply Vector.ext
      intro address inside
      have equal := same address
      simpa only [byte?, Vector.getElem?_eq_getElem inside, Option.some.injEq] using equal

theorem byte?_eq_none_iff (memory : Memory) (address : Nat) :
    memory.byte? address = none ↔ Layout.memorySize ≤ address := by
  simp [byte?]

theorem byte?_eq_toList (memory : Memory) (address : Nat) :
    memory.byte? address = memory.toList[address]? := by
  simp [byte?, toList]

theorem length_toList (memory : Memory) : memory.toList.length = Layout.memorySize :=
  memory.bytes.length_toList

theorem extract_eq_toList (memory : Memory) (start count : Nat) :
    (memory.bytes.toArray.extract start (start + count)).toList =
      (memory.toList.drop start).take count := by
  rw [Array.toList_extract, List.extract_eq_take_drop, Nat.add_sub_cancel_left]
  rfl

theorem toList_overlay (memory : Memory) (start : Nat) (data : List UInt8)
    (covers : Covers start data.length) :
    (memory.overlay start data covers).toList =
      memory.toList.take start ++ data ++ memory.toList.drop (start + data.length) := rfl

/-- Behind an overlay the data stands in its range, and everything else is unchanged. -/
theorem byte?_overlay (memory : Memory) (start : Nat) (data : List UInt8)
    (covers : Covers start data.length) (address : Nat) :
    (memory.overlay start data covers).byte? address =
      if start ≤ address ∧ address < start + data.length then data[address - start]?
      else memory.byte? address := by
  have bound : start + data.length ≤ Layout.memorySize := covers
  have size := memory.length_toList
  rw [byte?_eq_toList, byte?_eq_toList, toList_overlay]
  simp only [List.getElem?_append, List.length_append, List.length_take, List.getElem?_take,
    List.getElem?_drop]
  grind

theorem readByte_eq_ok_iff (memory : Memory) (address : Nat) (byte : UInt8) :
    memory.readByte address = .ok byte ↔ memory.byte? address = some byte := by
  unfold readByte
  cases memory.byte? address with
  | none => simp
  | some found => simp

theorem readByte_eq_error_iff (memory : Memory) (address : Nat) (fault : MemoryFault) :
    memory.readByte address = .error fault ↔
      Layout.memorySize ≤ address ∧ fault = .outOfBounds address Layout.memorySize := by
  rw [← byte?_eq_none_iff]
  unfold readByte
  cases memory.byte? address with
  | none => simp [eq_comm]
  | some found => simp

theorem writeByte_eq_error_iff (memory : Memory) (address : Nat) (value : UInt8)
    (fault : MemoryFault) :
    memory.writeByte address value = .error fault ↔
      Layout.memorySize ≤ address ∧ fault = .outOfBounds address Layout.memorySize := by
  unfold writeByte
  split
  · rename_i inside
    constructor
    · intro impossible
      cases impossible
    · intro outside
      omega
  · rename_i outside
    constructor
    · intro failure
      cases failure
      exact ⟨by omega, rfl⟩
    · intro expected
      rw [expected.2]

/-- A byte that was written is the one at its address, and all others are unchanged. -/
theorem byte?_of_writeByte {memory written : Memory} {address : Nat} {value : UInt8}
    (success : memory.writeByte address value = .ok written) (other : Nat) :
    written.byte? other = if other = address then some value else memory.byte? other := by
  unfold writeByte at success
  split at success
  · rename_i inside
    cases success
    unfold byte?
    rw [Vector.getElem?_set]
    by_cases same : address = other
    · subst same
      rw [if_pos rfl]
    · rw [if_neg same, if_neg (fun equal => same equal.symm)]
  · cases success

theorem read_eq_ok_iff (memory : Memory) (start count : Nat) (bytes : List UInt8) :
    memory.read start count = .ok bytes ↔
      Covers start count ∧ bytes = (memory.toList.drop start).take count := by
  unfold read
  rw [extract_eq_toList]
  by_cases covers : Covers start count
  · simp [covers, eq_comm]
  · simp [covers]

/-- The bytes that were read are those of the range, in their order. -/
theorem getElem?_of_read {memory : Memory} {start count : Nat} {bytes : List UInt8}
    (success : memory.read start count = .ok bytes) (offset : Nat) :
    bytes[offset]? = if offset < count then memory.byte? (start + offset) else none := by
  obtain ⟨_, rfl⟩ := (read_eq_ok_iff memory start count bytes).mp success
  rw [List.getElem?_take, List.getElem?_drop, byte?_eq_toList]

theorem length_of_read {memory : Memory} {start count : Nat} {bytes : List UInt8}
    (success : memory.read start count = .ok bytes) : bytes.length = count := by
  obtain ⟨covers, rfl⟩ := (read_eq_ok_iff memory start count bytes).mp success
  have inside : start + count ≤ 4096 := covers
  have size : memory.toList.length = 4096 := memory.length_toList
  rw [List.length_take, List.length_drop]
  omega

theorem read_eq_error_iff (memory : Memory) (start count : Nat) (fault : MemoryFault) :
    memory.read start count = .error fault ↔ ¬ Covers start count ∧ fault = outside start := by
  unfold read
  by_cases covers : Covers start count
  · simp [covers]
  · simp [covers, eq_comm]

theorem write_eq_error_iff (memory : Memory) (start : Nat) (data : List UInt8)
    (fault : MemoryFault) :
    memory.write start data = .error fault ↔
      ¬ Covers start data.length ∧ fault = outside start := by
  unfold write
  by_cases covers : Covers start data.length
  · simp [covers]
  · simp [covers, eq_comm]

theorem covers_of_write {memory written : Memory} {start : Nat} {data : List UInt8}
    (success : memory.write start data = .ok written) : Covers start data.length := by
  apply Classical.byContradiction
  intro outside
  rw [(write_eq_error_iff memory start data _).mpr ⟨outside, rfl⟩] at success
  cases success

/-- Data that was written stands in its range, and all other bytes are unchanged. -/
theorem byte?_of_write {memory written : Memory} {start : Nat} {data : List UInt8}
    (success : memory.write start data = .ok written) (address : Nat) :
    written.byte? address =
      if start ≤ address ∧ address < start + data.length then data[address - start]?
      else memory.byte? address := by
  unfold write at success
  split at success
  · rename_i covers
    cases success
    exact byte?_overlay memory start data covers address
  · cases success

theorem byte?_inside_write {memory written : Memory} {start offset : Nat} {data : List UInt8}
    (success : memory.write start data = .ok written) (inside : offset < data.length) :
    written.byte? (start + offset) = data[offset]? := by
  rw [byte?_of_write success, if_pos (by omega), Nat.add_sub_cancel_left]

theorem byte?_outside_write {memory written : Memory} {start address : Nat} {data : List UInt8}
    (success : memory.write start data = .ok written)
    (outside : address < start ∨ start + data.length ≤ address) :
    written.byte? address = memory.byte? address := by
  rw [byte?_of_write success, if_neg (by omega)]

theorem load_eq_error_iff (memory : Memory) (program : List UInt8) (fault : MemoryFault) :
    memory.load program = .error fault ↔
      Layout.programLimit < program.length ∧
        fault = .oversizedProgram program.length Layout.programLimit := by
  unfold load
  split
  · rename_i fits
    constructor
    · intro impossible
      cases impossible
    · intro oversized
      omega
  · rename_i oversized
    constructor
    · intro failure
      cases failure
      exact ⟨by omega, rfl⟩
    · intro expected
      rw [expected.2]

/-- A program that was loaded stands behind the program start, and all other bytes are unchanged. -/
theorem byte?_of_load {memory loaded : Memory} {program : List UInt8}
    (success : memory.load program = .ok loaded) (address : Nat) :
    loaded.byte? address =
      if Layout.programStart ≤ address ∧ address < Layout.programStart + program.length then
        program[address - Layout.programStart]?
      else memory.byte? address := by
  unfold load at success
  split at success
  · cases success
    exact byte?_overlay memory Layout.programStart program _ address
  · cases success

theorem fetch_eq_ok_iff (memory : Memory) (pointer : Nat) (word : Word) :
    memory.fetch pointer = .ok word ↔
      ∃ high low, memory.byte? pointer = some high ∧ memory.byte? (pointer + 1) = some low ∧
        word = Word.ofBytes high low :=
  Word.read_eq_ok_iff memory.byte? Layout.memorySize pointer word

theorem fetch_eq_of_bytes {first second : Memory} {pointer : Nat}
    (high : first.byte? pointer = second.byte? pointer)
    (low : first.byte? (pointer + 1) = second.byte? (pointer + 1)) :
    first.fetch pointer = second.fetch pointer := by
  unfold fetch Word.read
  rw [high, low]

theorem fetch_eq_error_iff (memory : Memory) (pointer : Nat) (fault : WordFault) :
    memory.fetch pointer = .error fault ↔
      Layout.memorySize ≤ pointer + 1 ∧ fault = .truncated pointer Layout.memorySize := by
  unfold fetch
  rw [Word.read_eq_error_iff, byte?_eq_none_iff, byte?_eq_none_iff]
  constructor
  · intro ⟨outside, same⟩
    exact ⟨by omega, same⟩
  · intro ⟨outside, same⟩
    exact ⟨Or.inr outside, same⟩

end Memory

end Chip8Machine
