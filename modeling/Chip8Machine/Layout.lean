/-!
The fixed sizes, addresses and rates of the machine, and its built-in font.
-/

set_option autoImplicit false

namespace Chip8Machine.Layout

abbrev memorySize : Nat := 4096

abbrev programStart : Nat := 512

abbrev programLimit : Nat := memorySize - programStart

abbrev wordSize : Nat := 2

abbrev registerCount : Nat := 16

/-- Numerals stand for registers, and in the same way for keys and for nibbles. -/
instance : @NeZero Nat Zero.ofOfNat0 registerCount := ⟨Nat.succ_ne_zero 15⟩

abbrev stackLimit : Nat := 16

abbrev keyCount : Nat := 16

abbrev frameWidth : Nat := 64

abbrev frameHeight : Nat := 32

abbrev fontStart : Nat := 0

abbrev glyphSize : Nat := 5

/-- The glyphs of the digits `0` to `F`, each four pixels wide, in the high half of its bytes. -/
def font : List UInt8 :=
  [ 0xF0, 0x90, 0x90, 0x90, 0xF0,
    0x20, 0x60, 0x20, 0x20, 0x70,
    0xF0, 0x10, 0xF0, 0x80, 0xF0,
    0xF0, 0x10, 0xF0, 0x10, 0xF0,
    0x90, 0x90, 0xF0, 0x10, 0x10,
    0xF0, 0x80, 0xF0, 0x10, 0xF0,
    0xF0, 0x80, 0xF0, 0x90, 0xF0,
    0xF0, 0x10, 0x20, 0x40, 0x40,
    0xF0, 0x90, 0xF0, 0x90, 0xF0,
    0xF0, 0x90, 0xF0, 0x10, 0xF0,
    0xF0, 0x90, 0xF0, 0x90, 0x90,
    0xE0, 0x90, 0xE0, 0x90, 0xE0,
    0xF0, 0x80, 0x80, 0x80, 0xF0,
    0xE0, 0x90, 0x90, 0x90, 0xE0,
    0xF0, 0x80, 0xF0, 0x80, 0xF0,
    0xF0, 0x80, 0xF0, 0x80, 0x80 ]

abbrev instructionRate : Nat := 500

/-- Milliseconds between two instructions. -/
abbrev instructionInterval : Nat := 1000 / instructionRate

abbrev timerRate : Nat := 60

/-- Nanoseconds between two timer ticks. -/
abbrev timerInterval : Nat := 1000000000 / timerRate

/-- The room for programs reaches exactly to the end of memory. -/
theorem programStart_add_programLimit : programStart + programLimit = memorySize := rfl

theorem font_length : font.length = keyCount * glyphSize := rfl

end Chip8Machine.Layout
