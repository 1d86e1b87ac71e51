import Chip8Machine.Checked

/-!
Drawing pixel by pixel.

A sprite is drawn byte after byte, and each byte bit after bit from the highest down. A bit that is
set toggles the pixel at its place, and the drawing has a collision once a toggled pixel was lit.
-/

set_option autoImplicit false

namespace Chip8Machine

open Checked

structure Drawing where
  frame : Frame
  collision : Bool := false
  deriving DecidableEq

namespace Drawing

def begin (frame : Frame) : Drawing := { frame := frame }

def toggleAt (drawing : Drawing) (column row : Nat) : Checked Drawing := do
  let (lit, frame) ← drawing.frame.toggleAt column row
  .ok { frame := frame, collision := drawing.collision || lit }

/-- Draws the bit with the given number, counted from the highest one, of a byte that begins in a
column. -/
def bit (column row : Nat) (byte : UInt8) (drawing : Drawing) (number : Nat) : Checked Drawing := do
  let mask ← shiftRight 0x80 number
  if byte &&& mask = 0 then .ok drawing
  else
    let place ← addSize column number
    drawing.toggleAt (place % Layout.frameWidth) row

def byte (column row : Nat) (drawing : Drawing) (byte : UInt8) : Checked Drawing :=
  (List.range 8).foldlM (bit column (row % Layout.frameHeight) byte) drawing

/-- Draws the bytes one below the other, the first of them `offset` rows below the given row. -/
def bytes (column row : Nat) (drawing : Drawing) (offset : Nat) : List UInt8 → Checked Drawing
  | [] => .ok drawing
  | first :: rest => do
      let line ← addSize row offset
      let drawn ← drawing.byte column line first
      drawn.bytes column row (offset + 1) rest

end Drawing

end Chip8Machine
