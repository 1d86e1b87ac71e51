import Chip8Machine.Machine

/-!
Operations that check what they rely on.

The machine's own operations cannot go wrong: a register is a number below sixteen, and a pixel has
its coordinates on the screen. Here numbers are plain, and every operation on them has a check: that
a register or a pixel exists, that a slice lies within its array and is as long as what is copied to
it, that a sum fits into its type, and that a shift stays below the width of what it shifts. An
operation whose check fails ends in a `Trap`.
-/

set_option autoImplicit false

namespace Chip8Machine

inductive Trap where
  | register (fault : RegisterFault)
  | pixel (fault : PixelFault)
  | index (index size : Nat)
  | slice (start stop size : Nat)
  | copy (target source : Nat)
  | overflow (value bound : Nat)
  | shift (amount width : Nat)
  deriving DecidableEq, Repr

abbrev Checked (Result : Type) := Except Trap Result

namespace Checked

variable {First Second : Type}

@[simp] theorem ok_bind (value : First) (next : First → Checked Second) :
    (Except.ok value >>= next) = next value := rfl

/-! ### Numbers -/

def fit (bound value : Nat) : Checked Nat :=
  if value < bound then .ok value else .error (.overflow value bound)

def addSize (first second : Nat) : Checked Nat := fit UInt64.size (first + second)

def mulSize (first second : Nat) : Checked Nat := fit UInt64.size (first * second)

def addWord (first second : UInt16) : Checked UInt16 :=
  if first.toNat + second.toNat < UInt16.size then .ok (first + second)
  else .error (.overflow (first.toNat + second.toNat) UInt16.size)

def shiftRight (value : UInt8) (amount : Nat) : Checked UInt8 :=
  if amount < 8 then .ok (value >>> UInt8.ofNat amount) else .error (.shift amount 8)

def shiftLeft (value : UInt8) (amount : Nat) : Checked UInt8 :=
  if amount < 8 then .ok (value <<< UInt8.ofNat amount) else .error (.shift amount 8)

theorem fit_of_lt {bound value : Nat} (fits : value < bound) :
    fit bound value = .ok value := if_pos fits

theorem addSize_of_lt {first second : Nat} (fits : first + second < UInt64.size) :
    addSize first second = .ok (first + second) := fit_of_lt fits

theorem mulSize_of_lt {first second : Nat} (fits : first * second < UInt64.size) :
    mulSize first second = .ok (first * second) := fit_of_lt fits

theorem addWord_of_lt {first second : UInt16} (fits : first.toNat + second.toNat < UInt16.size) :
    addWord first second = .ok (first + second) := if_pos fits

theorem shiftRight_of_lt {amount : Nat} (small : amount < 8) (value : UInt8) :
    shiftRight value amount = .ok (value >>> UInt8.ofNat amount) := if_pos small

/-! ### Slices -/

def slice (elements : List UInt8) (start stop : Nat) : Checked (List UInt8) :=
  if start ≤ stop ∧ stop ≤ elements.length then .ok ((elements.drop start).take (stop - start))
  else .error (.slice start stop elements.length)

theorem slice_of_le {elements : List UInt8} {start stop : Nat} (ordered : start ≤ stop)
    (inside : stop ≤ elements.length) :
    slice elements start stop = .ok ((elements.drop start).take (stop - start)) :=
  if_pos ⟨ordered, inside⟩

end Checked

open Checked

/-! ### The program counter -/

def Advance.applyChecked : Advance → Nat → Checked Nat
  | .next, counter => addSize counter Layout.wordSize
  | .skip, counter => do
      let words ← mulSize 2 Layout.wordSize
      addSize counter words
  | .jump target, _ => .ok target

theorem Advance.applyChecked_of_lt {counter : Nat} (room : counter + 4 < UInt64.size)
    (move : Advance) :
    move.applyChecked counter = .ok (move.apply counter) := by
  cases move with
  | next => exact addSize_of_lt (by simp only [Layout.wordSize]; omega)
  | skip => exact addSize_of_lt room
  | jump target => rfl

/-! ### Registers -/

namespace Registers

def getAt (registers : Registers) (number : Nat) : Checked UInt8 :=
  match Register.ofNumber number with
  | .ok register => .ok (registers.get register)
  | .error fault => .error (.register fault)

def setAt (registers : Registers) (number : Nat) (value : UInt8) : Checked Registers :=
  match Register.ofNumber number with
  | .ok register => .ok (registers.set register value)
  | .error fault => .error (.register fault)

def throughAt (registers : Registers) (last : Nat) : Checked (List UInt8) := do
  let stop ← addSize last 1
  slice registers.toList 0 stop

def fillAt (registers : Registers) (last : Nat) (values : List UInt8) : Checked Registers := do
  let stop ← addSize last 1
  let target ← slice registers.toList 0 stop
  if target.length = values.length then .ok (registers.fill values)
  else .error (.copy target.length values.length)

theorem ofNumber_val (register : Register) : Register.ofNumber register.val = .ok register :=
  dif_pos register.isLt

@[simp] theorem getAt_val (registers : Registers) (register : Register) :
    registers.getAt register.val = .ok (registers.get register) := by
  simp only [getAt, ofNumber_val]

@[simp] theorem setAt_val (registers : Registers) (register : Register) (value : UInt8) :
    registers.setAt register.val value = .ok (registers.set register value) := by
  simp only [setAt, ofNumber_val]

theorem addSize_register (register : Register) :
    addSize register.val 1 = .ok (register.val + 1) := by
  have bound : register.val < 16 := register.isLt
  exact addSize_of_lt (Nat.lt_trans (Nat.succ_lt_succ bound) (by decide))

theorem slice_through (registers : Registers) (last : Register) :
    slice registers.toList 0 (last.val + 1) = .ok (registers.through last) := by
  have inside : last.val + 1 ≤ registers.toList.length := by
    rw [toList, Vector.length_toList]
    exact last.isLt
  exact slice_of_le (Nat.zero_le _) inside

@[simp] theorem throughAt_val (registers : Registers) (last : Register) :
    registers.throughAt last.val = .ok (registers.through last) := by
  simp only [throughAt, addSize_register, ok_bind, slice_through]

theorem fillAt_val (registers : Registers) (last : Register) {values : List UInt8}
    (same : values.length = last.val + 1) :
    registers.fillAt last.val values = .ok (registers.fill values) := by
  simp only [fillAt, addSize_register, ok_bind, slice_through]
  exact if_pos ((registers.length_through last).trans same.symm)

end Registers

/-! ### Pixels -/

namespace Frame

def toggle (frame : Frame) (column : Fin Layout.frameWidth)
    (row : Fin Layout.frameHeight) : Frame :=
  ⟨frame.rows.set row.val
    (frame.rows.get row ^^^ BitVec.twoPow Layout.frameWidth (Layout.frameWidth - 1 - column.val))
    row.isLt⟩

/-- The frame with one pixel toggled, and whether the pixel was lit. -/
def toggleAt (frame : Frame) (column row : Nat) : Checked (Bool × Frame) :=
  if inRow : row < Layout.frameHeight then
    if inColumn : column < Layout.frameWidth then
      .ok (frame.pixel ⟨column, inColumn⟩ ⟨row, inRow⟩,
        frame.toggle ⟨column, inColumn⟩ ⟨row, inRow⟩)
    else .error (.pixel ⟨Layout.frameWidth, column⟩)
  else .error (.pixel ⟨Layout.frameHeight, row⟩)

theorem toggleAt_val (frame : Frame) (column : Fin Layout.frameWidth)
    (row : Fin Layout.frameHeight) :
    frame.toggleAt column.val row.val = .ok (frame.pixel column row, frame.toggle column row) := by
  unfold toggleAt
  rw [dif_pos row.isLt, dif_pos column.isLt]

theorem pixel_toggle (frame : Frame) (column target : Fin Layout.frameWidth)
    (row line : Fin Layout.frameHeight) :
    (frame.toggle column row).pixel target line =
      (frame.pixel target line ^^ decide (target = column ∧ line = row)) := by
  have inside : column.val < 64 := column.isLt
  have position : 64 - (64 - 1 - column.val) - 1 = column.val := by omega
  have point :
      (BitVec.twoPow Layout.frameWidth (Layout.frameWidth - 1 - column.val)).getMsbD target.val =
        decide (target = column) := by
    rw [BitVec.getMsbD_twoPow, position, decide_eq_true (by omega : 64 - 1 - column.val < 64),
      Bool.true_and]
    exact decide_eq_decide.mpr Fin.ext_iff.symm
  unfold pixel toggle
  by_cases same : line = row
  · subst same
    rw [Vector.getElem_set_self, BitVec.getMsbD_xor, point]
    congr 1
    exact decide_eq_decide.mpr (and_iff_left rfl).symm
  · have apart : row.val ≠ line.val := fun equal => same (Fin.ext equal.symm)
    rw [Vector.getElem_set_ne _ _ apart, decide_eq_false (fun both => same both.2), Bool.xor_false]

end Frame

/-! ### Memory -/

namespace Memory

/-- The end of a range of addresses, if all of them are in memory. The sum is not trusted. -/
def rangeEnd (start count : Nat) : Except MemoryFault Nat :=
  match addSize start count with
  | .ok stop => if stop ≤ Layout.memorySize then .ok stop else .error (outside start)
  | .error _ => .error (outside start)

def byteAt (memory : Memory) (address : Nat) : Checked UInt8 :=
  match memory.byte? address with
  | some byte => .ok byte
  | none => .error (.index address Layout.memorySize)

def readAt (memory : Memory) (start count : Nat) : Checked (Except MemoryFault (List UInt8)) :=
  match rangeEnd start count with
  | .error fault => .ok (.error fault)
  | .ok stop => do
      let bytes ← slice memory.toList start stop
      .ok (.ok bytes)

def copyTo (memory : Memory) (start stop : Nat) (data : List UInt8) : Checked Memory :=
  if inside : start ≤ stop ∧ stop ≤ Layout.memorySize then
    if same : stop - start = data.length then
      .ok (memory.overlay start data (by unfold Covers; omega))
    else .error (.copy (stop - start) data.length)
  else .error (.slice start stop Layout.memorySize)

def writeAt (memory : Memory) (start : Nat) (data : List UInt8) :
    Checked (Except MemoryFault Memory) :=
  match rangeEnd start data.length with
  | .error fault => .ok (.error fault)
  | .ok stop => do
      let written ← memory.copyTo start stop data
      .ok (.ok written)

/-- The word at the pointer, with an index for each of its two bytes. -/
def fetchAt (memory : Memory) (pointer : Nat) : Checked (Except WordFault Word) := do
  let second ← addSize pointer 1
  if second < Layout.memorySize then
    let high ← memory.byteAt pointer
    let second ← addSize pointer 1
    let low ← memory.byteAt second
    .ok (.ok (Word.ofBytes high low))
  else .ok (.error (.truncated pointer Layout.memorySize))

theorem rangeEnd_of_covers {start count : Nat} (covers : Covers start count) :
    rangeEnd start count = .ok (start + count) := by
  have inside : start + count ≤ 4096 := covers
  have room : start + count < UInt64.size := Nat.lt_of_le_of_lt inside (by decide)
  simp only [rangeEnd, addSize_of_lt room]
  exact if_pos covers

theorem rangeEnd_of_not_covers {start count : Nat} (outside : ¬ Covers start count) :
    rangeEnd start count = .error (Memory.outside start) := by
  unfold rangeEnd addSize fit
  by_cases room : start + count < UInt64.size
  · rw [if_pos room]
    exact if_neg outside
  · rw [if_neg room]

@[simp] theorem readAt_eq (memory : Memory) (start count : Nat) :
    memory.readAt start count = .ok (memory.read start count) := by
  unfold readAt read
  by_cases covers : Covers start count
  · have inside : start + count ≤ memory.toList.length := by
      rw [length_toList]
      exact covers
    simp only [rangeEnd_of_covers covers,
      slice_of_le (Nat.le_add_right start count) inside, ok_bind]
    rw [if_pos covers, extract_eq_toList, Nat.add_sub_cancel_left]
  · simp only [rangeEnd_of_not_covers covers]
    rw [if_neg covers]

@[simp] theorem writeAt_eq (memory : Memory) (start : Nat) (data : List UInt8) :
    memory.writeAt start data = .ok (memory.write start data) := by
  unfold writeAt write
  by_cases covers : Covers start data.length
  · have inside : start ≤ start + data.length ∧ start + data.length ≤ Layout.memorySize :=
      ⟨Nat.le_add_right _ _, covers⟩
    simp only [rangeEnd_of_covers covers, copyTo]
    rw [dif_pos inside, dif_pos (Nat.add_sub_cancel_left start data.length), dif_pos covers]
    rfl
  · simp only [rangeEnd_of_not_covers covers]
    rw [dif_neg covers]

theorem byteAt_of_lt (memory : Memory) {address : Nat} (inside : address < Layout.memorySize) :
    ∃ byte, memory.byte? address = some byte ∧ memory.byteAt address = .ok byte := by
  have present : memory.byte? address ≠ none := by
    intro absent
    exact Nat.not_le_of_lt inside ((memory.byte?_eq_none_iff address).mp absent)
  obtain ⟨byte, found⟩ := Option.ne_none_iff_exists'.mp present
  exact ⟨byte, found, by simp only [byteAt, found]⟩

theorem fetchAt_eq (memory : Memory) {pointer : Nat} (room : pointer + 1 < UInt64.size) :
    memory.fetchAt pointer = .ok (memory.fetch pointer) := by
  simp only [fetchAt, addSize_of_lt room, ok_bind]
  by_cases inside : pointer + 1 < Layout.memorySize
  · obtain ⟨high, atPointer, readHigh⟩ := memory.byteAt_of_lt (Nat.lt_of_succ_lt inside)
    obtain ⟨low, behindPointer, readLow⟩ := memory.byteAt_of_lt inside
    rw [if_pos inside]
    simp only [readHigh, readLow, ok_bind, fetch, Word.read, atPointer, behindPointer]
  · have failed := (memory.fetch_eq_error_iff pointer _).mpr ⟨Nat.le_of_not_lt inside, rfl⟩
    rw [if_neg inside, failed]

end Memory

end Chip8Machine
