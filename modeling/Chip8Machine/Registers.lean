import Chip8Machine.Advance
import Chip8Machine.Word

/-!
The registers: sixteen data registers of a byte each, the index and the program counter.

The last data register doubles as a flag. It tells the carry of a sum, the order of the operands of
a difference, the bit that a shift pushes out, and whether a drawing turned a pixel off.
-/

set_option autoImplicit false

namespace Chip8Machine

def Register.flag : Register := 15

def Register.ofNumber (number : Nat) : Except RegisterFault Register :=
  if known : number < Layout.registerCount then .ok ⟨number, known⟩ else .error ⟨number⟩

structure Registers where
  data : Vector UInt8 Layout.registerCount := Vector.replicate Layout.registerCount 0
  index : UInt16 := 0
  counter : Nat := Layout.programStart
  deriving DecidableEq, Repr

namespace Registers

def initial : Registers := {}

def get (registers : Registers) (register : Register) : UInt8 := registers.data[register.val]

def set (registers : Registers) (register : Register) (value : UInt8) : Registers :=
  { registers with data := registers.data.set register.val value }

def flag (registers : Registers) : UInt8 := registers.get Register.flag

def setFlag (registers : Registers) (condition : Bool) : Registers :=
  registers.set Register.flag (if condition then 1 else 0)

def advance (registers : Registers) (move : Advance) : Registers :=
  { registers with counter := move.apply registers.counter }

def toList (registers : Registers) : List UInt8 := registers.data.toList

def through (registers : Registers) (last : Register) : List UInt8 :=
  registers.toList.take (last.val + 1)

/-- Gives the values to the registers from `V0` on; the registers behind the last value keep
theirs. -/
def fill (registers : Registers) (values : List UInt8) : Registers :=
  { registers with
    data := Vector.ofFn fun register => (values[register.val]?).getD (registers.get register) }

@[simp] theorem get_set_same (registers : Registers) (register : Register) (value : UInt8) :
    (registers.set register value).get register = value := by
  simp [get, set]

theorem get_set (registers : Registers) (target register : Register) (value : UInt8) :
    (registers.set target value).get register =
      if register = target then value else registers.get register := by
  simp only [get, set, Vector.getElem_set, Fin.ext_iff]
  simp only [eq_comm]

@[simp] theorem index_set (registers : Registers) (register : Register) (value : UInt8) :
    (registers.set register value).index = registers.index := rfl

@[simp] theorem counter_set (registers : Registers) (register : Register) (value : UInt8) :
    (registers.set register value).counter = registers.counter := rfl

theorem get_setFlag (registers : Registers) (condition : Bool) (register : Register) :
    (registers.setFlag condition).get register =
      if register = Register.flag then (if condition then 1 else 0)
      else registers.get register :=
  get_set registers Register.flag register _

@[simp] theorem index_setFlag (registers : Registers) (condition : Bool) :
    (registers.setFlag condition).index = registers.index := rfl

@[simp] theorem counter_setFlag (registers : Registers) (condition : Bool) :
    (registers.setFlag condition).counter = registers.counter := rfl

@[simp] theorem get_advance (registers : Registers) (move : Advance) (register : Register) :
    (registers.advance move).get register = registers.get register := rfl

@[simp] theorem index_advance (registers : Registers) (move : Advance) :
    (registers.advance move).index = registers.index := rfl

@[simp] theorem counter_advance (registers : Registers) (move : Advance) :
    (registers.advance move).counter = move.apply registers.counter := rfl

theorem get_fill (registers : Registers) (values : List UInt8) (register : Register) :
    (registers.fill values).get register =
      (values[register.val]?).getD (registers.get register) := by
  simp [get, fill]

@[simp] theorem counter_fill (registers : Registers) (values : List UInt8) :
    (registers.fill values).counter = registers.counter := by
  simp only [fill]

theorem length_through (registers : Registers) (last : Register) :
    (registers.through last).length = last.val + 1 := by
  have bound := last.isLt
  simp only [through, toList, List.length_take, Vector.length_toList]
  omega

theorem getElem?_through (registers : Registers) {register last : Register}
    (within : register ≤ last) :
    (registers.through last)[register.val]? = some (registers.get register) := by
  have below : register.val < last.val + 1 := Nat.lt_succ_of_le within
  rw [through, List.getElem?_take, if_pos below, toList, Vector.getElem?_toList]
  exact Vector.getElem?_eq_getElem register.isLt

end Registers

end Chip8Machine
