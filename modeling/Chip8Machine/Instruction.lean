import Chip8Machine.Word

/-!
The instructions of the machine and how a word encodes one.

Every word is an instruction: a word that no line of the table below describes is `ignored`, which
only moves the program counter on. Decoding therefore never fails.

    00E0  clear the screen            8xy0..8xy7, 8xyE  arithmetic on two registers
    00EE  return                      Annn  set the index
    1nnn  jump                        Bnnn  jump, offset by V0
    2nnn  call                        Cxkk  random byte under a mask
    3xkk  skip if equal to a byte     Dxyn  draw a sprite
    4xkk  skip unless equal           Ex9E, ExA1  skip if a key is down, or is not
    5xy0  skip if registers equal     Fx07, Fx15, Fx18  timers
    9xy0  skip unless equal           Fx0A  await a key
    6xkk  load a byte                 Fx1E, Fx29  index arithmetic
    7xkk  add a byte                  Fx33, Fx55, Fx65  memory
-/

set_option autoImplicit false

namespace Chip8Machine

inductive Arithmetic where
  | copy
  | or
  | and
  | xor
  | add
  | subtract
  | shiftRight
  | subtractFrom
  | shiftLeft
  deriving DecidableEq, Repr

namespace Arithmetic

def result : Arithmetic → UInt8 → UInt8 → UInt8
  | .copy, _, b => b
  | .or, a, b => a ||| b
  | .and, a, b => a &&& b
  | .xor, a, b => a ^^^ b
  | .add, a, b => a + b
  | .subtract, a, b => a - b
  | .shiftRight, a, _ => a >>> 1
  | .subtractFrom, a, b => b - a
  | .shiftLeft, a, _ => a <<< 1

/-- What the operation reports in the flag register, if it reports anything: the carry of a sum, the
bit that a shift pushes out, and for a difference whether the minuend is the larger operand. -/
def flag? : Arithmetic → UInt8 → UInt8 → Option Bool
  | .add, a, b => some (decide (255 < a.toNat + b.toNat))
  | .subtract, a, b => some (decide (b < a))
  | .shiftRight, a, _ => some (decide (a &&& 1 = 1))
  | .subtractFrom, a, b => some (decide (a < b))
  | .shiftLeft, a, _ => some (decide (a &&& 128 = 128))
  | .copy, _, _ => none
  | .or, _, _ => none
  | .and, _, _ => none
  | .xor, _, _ => none

def ofNibble? (choice : Fin 16) : Option Arithmetic :=
  match choice.val with
  | 0x0 => some .copy
  | 0x1 => some .or
  | 0x2 => some .and
  | 0x3 => some .xor
  | 0x4 => some .add
  | 0x5 => some .subtract
  | 0x6 => some .shiftRight
  | 0x7 => some .subtractFrom
  | 0xE => some .shiftLeft
  | _ => none

end Arithmetic

inductive Test where
  | equalsByte (register : Register) (value : UInt8)
  | equalsRegister (register other : Register)
  | keyDown (register : Register)
  deriving DecidableEq, Repr

inductive Instruction where
  | clearScreen
  | jump (target : Address)
  | jumpOffset (base : Address)
  | call (target : Address)
  | ret
  | skip (test : Test) (answer : Bool)
  | loadByte (register : Register) (value : UInt8)
  | addByte (register : Register) (value : UInt8)
  | arithmetic (operation : Arithmetic) (register other : Register)
  | setIndex (target : Address)
  | addIndex (register : Register)
  | pointGlyph (register : Register)
  | random (register : Register) (mask : UInt8)
  | draw (column row : Register) (rows : Fin 16)
  | readDelay (register : Register)
  | setDelay (register : Register)
  | setSound (register : Register)
  | awaitKey (register : Register)
  | storeDecimal (register : Register)
  | storeThrough (last : Register)
  | loadThrough (last : Register)
  | ignored (word : Word)
  deriving DecidableEq, Repr

namespace Instruction

def ofSystemWord (word : Word) : Instruction :=
  match word.toNat with
  | 0x00E0 => .clearScreen
  | 0x00EE => .ret
  | _ => .ignored word

def ofKeyWord (word : Word) : Instruction :=
  match word.kk.toNat with
  | 0x9E => .skip (.keyDown word.x) true
  | 0xA1 => .skip (.keyDown word.x) false
  | _ => .ignored word

def ofDeviceWord (word : Word) : Instruction :=
  match word.kk.toNat with
  | 0x07 => .readDelay word.x
  | 0x0A => .awaitKey word.x
  | 0x15 => .setDelay word.x
  | 0x18 => .setSound word.x
  | 0x1E => .addIndex word.x
  | 0x29 => .pointGlyph word.x
  | 0x33 => .storeDecimal word.x
  | 0x55 => .storeThrough word.x
  | 0x65 => .loadThrough word.x
  | _ => .ignored word

/-- The instruction that a word encodes, by its highest nibble; `F` is the last of the groups. -/
def decode (word : Word) : Instruction :=
  match word.lead.val with
  | 0x0 => ofSystemWord word
  | 0x1 => .jump word.nnn
  | 0x2 => .call word.nnn
  | 0x3 => .skip (.equalsByte word.x word.kk) true
  | 0x4 => .skip (.equalsByte word.x word.kk) false
  | 0x5 => if word.n = 0 then .skip (.equalsRegister word.x word.y) true else .ignored word
  | 0x6 => .loadByte word.x word.kk
  | 0x7 => .addByte word.x word.kk
  | 0x8 =>
      match Arithmetic.ofNibble? word.n with
      | some operation => .arithmetic operation word.x word.y
      | none => .ignored word
  | 0x9 => if word.n = 0 then .skip (.equalsRegister word.x word.y) false else .ignored word
  | 0xA => .setIndex word.nnn
  | 0xB => .jumpOffset word.nnn
  | 0xC => .random word.x word.kk
  | 0xD => .draw word.x word.y word.n
  | 0xE => ofKeyWord word
  | _ => ofDeviceWord word

end Instruction

end Chip8Machine
