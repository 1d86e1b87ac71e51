import Chip8Machine.Fault
import Chip8Machine.Layout

/-!
Instruction words: sixteen bits, stored in memory as two bytes with the high byte first.

The four nibbles of a word are `lead`, `x`, `y` and `n`, from the highest to the lowest; `kk` is its
low byte and `nnn` its low twelve bits.
-/

set_option autoImplicit false

namespace Chip8Machine

abbrev Register := Fin Layout.registerCount

abbrev Address := BitVec 12

abbrev Word := UInt16

/-- What holds of the byte of every number below 256 holds of every byte. -/
theorem forall_byte {property : UInt8 → Prop}
    (all : ∀ number : Fin 256, property (UInt8.ofNat number.val))
    (byte : UInt8) : property byte := by
  have found := all ⟨byte.toNat, byte.toNat_lt⟩
  rw [UInt8.ofNat_toNat] at found
  exact found

namespace Word

/-- The highest nibble, which names the group of the instruction. -/
def lead (word : Word) : Fin 16 := Fin.ofNat 16 (word.toNat / 4096)

def x (word : Word) : Register := Fin.ofNat 16 (word.toNat / 256)

def y (word : Word) : Register := Fin.ofNat 16 (word.toNat / 16)

/-- The lowest nibble: a number of rows, or the choice within a group. -/
def n (word : Word) : Fin 16 := Fin.ofNat 16 word.toNat

/-- The low byte: an operand, or the choice within a group. -/
def kk (word : Word) : UInt8 := UInt8.ofNat word.toNat

def nnn (word : Word) : Address := BitVec.ofNat 12 word.toNat

def ofBytes (high low : UInt8) : Word := UInt16.ofNat (256 * high.toNat + low.toNat)

def toBytes (word : Word) : List UInt8 :=
  [UInt8.ofNat (word.toNat / 256), UInt8.ofNat word.toNat]

/-- The word at `pointer` in a store of `length` bytes, which takes the bytes at `pointer` and
`pointer + 1`. -/
def read (byte? : Nat → Option UInt8) (length pointer : Nat) : Except WordFault Word :=
  match byte? pointer, byte? (pointer + 1) with
  | some high, some low => .ok (ofBytes high low)
  | _, _ => .error (.truncated pointer length)

def readFrom (data : Array UInt8) (pointer : Nat) : Except WordFault Word :=
  read (fun address => data[address]?) data.size pointer

def text (word : Word) : String := Text.Hexadecimal.marked 4 word.toNat

theorem read_eq_ok_iff (byte? : Nat → Option UInt8) (length pointer : Nat) (word : Word) :
    read byte? length pointer = .ok word ↔
      ∃ high low, byte? pointer = some high ∧ byte? (pointer + 1) = some low ∧
        word = ofBytes high low := by
  unfold read
  cases atPointer : byte? pointer with
  | none => simp
  | some high =>
      cases behindPointer : byte? (pointer + 1) with
      | none => simp
      | some low => simp [eq_comm]

theorem read_eq_error_iff (byte? : Nat → Option UInt8) (length pointer : Nat)
    (fault : WordFault) :
    read byte? length pointer = .error fault ↔
      (byte? pointer = none ∨ byte? (pointer + 1) = none) ∧
        fault = .truncated pointer length := by
  unfold read
  cases byte? pointer with
  | none => simp [eq_comm]
  | some high =>
      cases byte? (pointer + 1) with
      | none => simp [eq_comm]
      | some low => simp

/-- There is no word at `pointer` exactly if its second byte is not there. -/
theorem readFrom_eq_error_iff (data : Array UInt8) (pointer : Nat) (fault : WordFault) :
    readFrom data pointer = .error fault ↔
      data.size ≤ pointer + 1 ∧ fault = .truncated pointer data.size := by
  unfold readFrom
  rw [read_eq_error_iff, Array.getElem?_eq_none_iff, Array.getElem?_eq_none_iff]
  constructor
  · intro ⟨outside, same⟩
    exact ⟨by omega, same⟩
  · intro ⟨outside, same⟩
    exact ⟨Or.inr outside, same⟩

/-! ### The fields of a word -/

theorem val_lead (word : Word) : word.lead.val = word.toNat / 4096 % 16 := rfl

theorem val_x (word : Word) : word.x.val = word.toNat / 256 % 16 := rfl

theorem val_y (word : Word) : word.y.val = word.toNat / 16 % 16 := rfl

theorem val_n (word : Word) : word.n.val = word.toNat % 16 := rfl

theorem toNat_kk (word : Word) : word.kk.toNat = word.toNat % 256 := UInt8.toNat_ofNat'

theorem toNat_nnn (word : Word) : word.nnn.toNat = word.toNat % 4096 := BitVec.toNat_ofNat _ _

theorem toNat_ofBytes (high low : UInt8) :
    (ofBytes high low).toNat = 256 * high.toNat + low.toNat := by
  have highBound := high.toNat_lt
  have lowBound := low.toNat_lt
  unfold ofBytes
  rw [UInt16.toNat_ofNat']
  omega

theorem ofBytes_toBytes (word : Word) :
    ofBytes (UInt8.ofNat (word.toNat / 256)) (UInt8.ofNat word.toNat) = word := by
  have bound := word.toNat_lt
  apply UInt16.toNat_inj.mp
  unfold ofBytes
  rw [UInt16.toNat_ofNat', UInt8.toNat_ofNat', UInt8.toNat_ofNat']
  omega

end Word

end Chip8Machine
