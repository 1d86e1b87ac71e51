import Chip8Machine.Instruction
import Chip8Machine.Machine

/-!
What each instruction does.

An instruction either succeeds and moves the program counter, or it fails and reports a fault. In
both cases it leaves a machine behind, and a failed instruction leaves the one that it found: every
check comes before the first change.
-/

set_option autoImplicit false

namespace Chip8Machine

inductive Demand where
  | nothing
  | draw
  | awaitKey (register : Register)
  deriving DecidableEq, Repr

/-- Replaces the first register by the result of an operation. The flag is written last, so that it
wins if the first register is the flag register. -/
def Registers.calculate (registers : Registers) (operation : Arithmetic)
    (register other : Register) : Registers :=
  let a := registers.get register
  let b := registers.get other
  let changed := registers.set register (operation.result a b)
  match operation.flag? a b with
  | some flag => changed.setFlag flag
  | none => changed

@[simp] theorem Registers.counter_calculate (registers : Registers) (operation : Arithmetic)
    (register other : Register) :
    (registers.calculate operation register other).counter = registers.counter := by
  simp only [calculate]
  split
  · rfl
  · rfl

def decimalDigits (value : UInt8) : List UInt8 :=
  [value / 100, value / 10 % 10, value % 10]

theorem length_decimalDigits (value : UInt8) : (decimalDigits value).length = 3 := rfl

/-- The address of the glyph of a value. Only the values `0` to `F` have one. -/
def glyphAddress (value : UInt8) : UInt16 :=
  UInt16.ofNat (Layout.fontStart + Layout.glyphSize * value.toNat)

/-- The address behind the last of the bytes that belong to `V0` up to a register, modulo 2^16. -/
def indexBehind (index : UInt16) (last : Register) : UInt16 :=
  index + UInt16.ofNat (last.val + 1)

namespace Machine

def holds (machine : Machine) : Test → Bool
  | .equalsByte register value => machine.registers.get register == value
  | .equalsRegister register other =>
      machine.registers.get register == machine.registers.get other
  | .keyDown register => machine.keypad.isDown (machine.registers.get register)

def succeed (machine : Machine) (move : Advance) (demand : Demand) :
    Machine × Except Fault Demand :=
  (machine.advance move, .ok demand)

def fail (machine : Machine) (fault : Fault) : Machine × Except Fault Demand :=
  (machine, .error fault)

def update (machine : Machine) (registers : Registers) : Machine × Except Fault Demand :=
  (machine.withRegisters registers).succeed .next .nothing

/-- Executes one instruction. The listener is told if the sound timer starts or ends a tone. -/
def execute (listener : ToneListener) (machine : Machine) :
    Instruction → Machine × Except Fault Demand
  | .clearScreen => { machine with frame := Frame.blank }.succeed .next .draw
  | .jump target => machine.succeed (.jump target.toNat) .nothing
  | .jumpOffset base =>
      machine.succeed (.jump ((machine.registers.get 0).toNat + base.toNat)) .nothing
  | .call target =>
      match machine.stack.push (UInt16.ofNat (machine.registers.counter + Layout.wordSize)) with
      | .ok stack => { machine with stack := stack }.succeed (.jump target.toNat) .nothing
      | .error cause => machine.fail (.stack cause)
  | .ret =>
      match machine.stack.pop with
      | .ok (address, stack) =>
          { machine with stack := stack }.succeed (.jump address.toNat) .nothing
      | .error cause => machine.fail (.stack cause)
  | .skip test answer => machine.succeed (Advance.skipIf (machine.holds test == answer)) .nothing
  | .loadByte register value => machine.update (machine.registers.set register value)
  | .addByte register value =>
      machine.update (machine.registers.set register (machine.registers.get register + value))
  | .arithmetic operation register other =>
      machine.update (machine.registers.calculate operation register other)
  | .setIndex target =>
      machine.update { machine.registers with index := UInt16.ofNat target.toNat }
  | .addIndex register =>
      machine.update { machine.registers with
        index := machine.registers.index + (machine.registers.get register).toUInt16 }
  | .pointGlyph register =>
      machine.update { machine.registers with
        index := glyphAddress (machine.registers.get register) }
  | .random register mask =>
      let (byte, random) := machine.random.next
      { machine with random := random }.update (machine.registers.set register (byte &&& mask))
  | .draw column row rows =>
      match machine.memory.read machine.registers.index.toNat rows.val with
      | .ok sprite =>
          let stamp :=
            Sprite.stamp sprite (machine.registers.get column) (machine.registers.get row)
          { machine with
            frame := machine.frame.overlay stamp
            registers := machine.registers.setFlag (machine.frame.meets stamp)
          }.succeed .next .draw
      | .error cause => machine.fail (.memory cause)
  | .readDelay register => machine.update (machine.registers.set register machine.timers.delay)
  | .setDelay register =>
      (machine.withPeripherals
        (machine.toPeripherals.setDelay (machine.registers.get register))).succeed .next .nothing
  | .setSound register =>
      (machine.withPeripherals
        (machine.toPeripherals.setSound listener (machine.registers.get register))).succeed
          .next .nothing
  | .awaitKey register => machine.succeed .next (.awaitKey register)
  | .storeDecimal register =>
      match machine.memory.write machine.registers.index.toNat
          (decimalDigits (machine.registers.get register)) with
      | .ok memory => { machine with memory := memory }.succeed .next .nothing
      | .error cause => machine.fail (.memory cause)
  | .storeThrough last =>
      match machine.memory.write machine.registers.index.toNat
          (machine.registers.through last) with
      | .ok memory =>
          { machine with memory := memory }.update { machine.registers with
            index := indexBehind machine.registers.index last }
      | .error cause => machine.fail (.memory cause)
  | .loadThrough last =>
      match machine.memory.read machine.registers.index.toNat (last.val + 1) with
      | .ok values =>
          machine.update { machine.registers.fill values with
            index := indexBehind machine.registers.index last }
      | .error cause => machine.fail (.memory cause)
  | .ignored _ => machine.succeed .next .nothing

end Machine

end Chip8Machine
