import Chip8Machine.CallStack
import Chip8Machine.Memory
import Chip8Machine.RandomBytes
import Chip8Machine.Registers
import Chip8Machine.Surroundings

/-!
The state of a machine.

Its `Core` belongs to the program alone. The peripherals are reached from outside as well, random
bytes come from outside, and the frames that the display was given are on record, the latest first.
-/

set_option autoImplicit false

namespace Chip8Machine

structure Core where
  registers : Registers := {}
  memory : Memory := Memory.blank
  stack : CallStack := .empty
  frame : Frame := Frame.blank
  deriving DecidableEq

structure Machine extends Core, Peripherals where
  random : RandomBytes := RandomBytes.zeros
  shown : List Frame := []

namespace Machine

def initial : Machine := {}

def fresh (random : RandomBytes) (listener : Listener) : Machine :=
  { initial with random := random, timers := Timers.initial listener }

def load (machine : Machine) (program : List UInt8) : Except MemoryFault Machine :=
  match machine.memory.load program with
  | .ok memory => .ok { machine with memory := memory }
  | .error fault => .error fault

def withPeripherals (machine : Machine) (peripherals : Peripherals) : Machine :=
  { machine with toPeripherals := peripherals }

def withRegisters (machine : Machine) (registers : Registers) : Machine :=
  { machine with registers := registers }

def handle (machine : Machine) (gesture : Gesture) : Machine :=
  machine.withPeripherals (machine.toPeripherals.handle gesture)

def receive (machine : Machine) (register : Register) (key : Key) : Machine :=
  machine.withRegisters (machine.registers.set register key.toByte)

def tick (machine : Machine) (surroundings : Surroundings) : Machine :=
  machine.withPeripherals (machine.toPeripherals.tick surroundings.tone)

def write (machine : Machine) (start : Nat) (data : List UInt8) : Except MemoryFault Machine :=
  match machine.memory.write start data with
  | .ok memory => .ok { machine with memory := memory }
  | .error fault => .error fault

def advance (machine : Machine) (move : Advance) : Machine :=
  machine.withRegisters (machine.registers.advance move)

/-- Gives the current frame to the display. The text is that of the exception, if one is raised. -/
def present (machine : Machine) (surroundings : Surroundings) : Machine × Option String :=
  let shown := machine.frame :: machine.shown
  let (peripherals, raised) :=
    machine.toPeripherals.react surroundings.tone (surroundings.display shown)
  ({ machine.withPeripherals peripherals with shown := shown }, raised)

end Machine

end Chip8Machine
