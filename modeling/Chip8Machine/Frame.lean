import Chip8Machine.Fault
import Chip8Machine.Layout

/-!
The screen, and sprites.

A frame is 32 rows of 64 pixels; the highest bit of a row is its pixel in column `0`. Drawing is an
exclusive or: a sprite placed on the screen is a frame of its own, its `stamp`, which does not
depend on what the screen shows. The drawing has a collision if some pixel is lit in both.
-/

set_option autoImplicit false

namespace Chip8Machine

structure Frame where
  rows : Vector (BitVec Layout.frameWidth) Layout.frameHeight
  deriving DecidableEq

namespace Frame

def blank : Frame := ⟨Vector.replicate Layout.frameHeight 0⟩

def pixel (frame : Frame) (column : Fin Layout.frameWidth) (row : Fin Layout.frameHeight) : Bool :=
  frame.rows[row.val].getMsbD column.val

/-- The pixel at coordinates that need not be on the screen; the row is looked at first. -/
def lookUp (frame : Frame) (column row : Nat) : Except PixelFault Bool :=
  if inRow : row < Layout.frameHeight then
    if inColumn : column < Layout.frameWidth then
      .ok (frame.pixel ⟨column, inColumn⟩ ⟨row, inRow⟩)
    else
      .error ⟨Layout.frameWidth, column⟩
  else
    .error ⟨Layout.frameHeight, row⟩

def isBlank (frame : Frame) : Bool := frame.rows.all (· == 0)

/-- The pixels that are lit in exactly one of two frames. -/
def overlay (frame stamp : Frame) : Frame :=
  ⟨Vector.zipWith (· ^^^ ·) frame.rows stamp.rows⟩

def meets (frame stamp : Frame) : Bool :=
  (Vector.zipWith (· &&& ·) frame.rows stamp.rows).any (· != 0)

def litRows (frame : Frame) : List (Nat × BitVec Layout.frameWidth) :=
  (frame.rows.toList.zipIdx.filter fun (row, _) => row != 0).map fun (row, number) => (number, row)

/-- A row as a line of text, with `#` for a lit pixel. -/
def rowText (row : BitVec Layout.frameWidth) : String :=
  String.ofList ((List.range Layout.frameWidth).map fun column =>
    if row.getMsbD column then '#' else '.')

def describe (frame : Frame) : String :=
  "FrameBuffer \x7b\n" ++
    String.join (frame.rows.toList.map fun row => "\t" ++ rowText row ++ "\n") ++ "\x7d"

@[ext] theorem ext {first second : Frame}
    (same : ∀ column row, first.pixel column row = second.pixel column row) : first = second := by
  cases first with
  | mk firstRows =>
    cases second with
    | mk secondRows =>
      congr 1
      apply Vector.ext
      intro row inRow
      apply BitVec.eq_of_getMsbD_eq
      intro column inColumn
      exact same ⟨column, inColumn⟩ ⟨row, inRow⟩

theorem dark_row (column : Nat) : (0 : BitVec Layout.frameWidth).getMsbD column = false :=
  BitVec.getMsbD_zero

@[simp] theorem pixel_blank (column : Fin Layout.frameWidth) (row : Fin Layout.frameHeight) :
    blank.pixel column row = false := by
  simp [pixel, blank]

@[simp] theorem pixel_overlay (frame stamp : Frame) (column : Fin Layout.frameWidth)
    (row : Fin Layout.frameHeight) :
    (frame.overlay stamp).pixel column row =
      (frame.pixel column row ^^ stamp.pixel column row) := by
  simp [pixel, overlay]

theorem isBlank_iff (frame : Frame) : frame.isBlank = true ↔ frame = blank := by
  cases frame with
  | mk rows =>
    simp only [isBlank, blank, Frame.mk.injEq, Vector.all_eq_true, beq_iff_eq]
    constructor
    · intro allDark
      apply Vector.ext
      intro row inRow
      rw [Vector.getElem_replicate]
      exact allDark row inRow
    · intro same row inRow
      rw [same, Vector.getElem_replicate]

/-- A collision is a pixel that both frames light. -/
theorem meets_iff (frame stamp : Frame) :
    frame.meets stamp = true ↔
      ∃ column row, frame.pixel column row = true ∧ stamp.pixel column row = true := by
  simp only [meets, Vector.any_eq_true, bne_iff_ne, ne_eq]
  constructor
  · intro ⟨row, inRow, nonzero⟩
    rw [Vector.getElem_zipWith] at nonzero
    have witness : ∃ column, column < Layout.frameWidth ∧
        (frame.rows[row] &&& stamp.rows[row]).getMsbD column = true := by
      apply Classical.byContradiction
      intro absent
      apply nonzero
      apply BitVec.eq_of_getMsbD_eq
      intro column inColumn
      rw [dark_row]
      apply Bool.eq_false_iff.mpr
      intro lit
      exact absent ⟨column, inColumn, lit⟩
    obtain ⟨column, inColumn, lit⟩ := witness
    rw [BitVec.getMsbD_and, Bool.and_eq_true] at lit
    exact ⟨⟨column, inColumn⟩, ⟨row, inRow⟩, lit⟩
  · intro ⟨column, row, litFrame, litStamp⟩
    refine ⟨row.val, row.isLt, ?_⟩
    rw [Vector.getElem_zipWith]
    intro zero
    have dark := congrArg (fun bits => BitVec.getMsbD bits column.val) zero
    simp only [BitVec.getMsbD_and, dark_row] at dark
    simp only [pixel] at litFrame litStamp
    rw [litFrame, litStamp] at dark
    cases dark

end Frame

/-! ### Sprites -/

namespace Sprite

/-- The row of the screen on which only the bits of `byte` are lit, the highest one in the given
column. Columns wrap around. -/
def row (byte column : UInt8) : BitVec Layout.frameWidth :=
  (byte.toBitVec.setWidth Layout.frameWidth <<< (Layout.frameWidth - 8)).rotateRight column.toNat

/-- The frame on which only the sprite is lit, its first byte in the given row and the others in the
rows below. Rows wrap around; a sprite has fewer rows than the screen. -/
def stamp (sprite : List UInt8) (column row : UInt8) : Frame :=
  ⟨Vector.ofFn fun line =>
    let offset :=
      (line.val + Layout.frameHeight - row.toNat % Layout.frameHeight) % Layout.frameHeight
    match sprite[offset]? with
    | some byte => Sprite.row byte column
    | none => 0⟩

/-- The pixel in column `target` of a sprite's row is a bit of its byte, counted from the given
column on and around the edge of the screen. -/
theorem getMsbD_row (byte column : UInt8) (target : Fin Layout.frameWidth) :
    (row byte column).getMsbD target.val =
      byte.toBitVec.getMsbD
        ((target.val + Layout.frameWidth - column.toNat % Layout.frameWidth) %
          Layout.frameWidth) := by
  have inside : target.val < 64 := target.isLt
  have wide : ∀ position, position < 64 →
      (byte.toBitVec.setWidth 64 <<< (64 - 8)).getMsbD position =
        byte.toBitVec.getMsbD position := by
    intro position small
    rw [BitVec.getMsbD_shiftLeft, BitVec.getMsbD_setWidth]
    simp
  have start := Nat.mod_lt column.toNat (show 0 < 64 by decide)
  unfold row
  rw [BitVec.getMsbD_rotateRight]
  simp only [Layout.frameWidth, inside, decide_true, Bool.true_and]
  split
  · rename_i wrapped
    rw [wide _ (by omega)]
    congr 1
    omega
  · rename_i straight
    rw [wide _ (by omega)]
    congr 1
    omega

/-- A stamp lights a pixel exactly if the sprite has a byte for its row, and the byte a bit for its
column. -/
theorem pixel_stamp (sprite : List UInt8) (column row : UInt8) (target : Fin Layout.frameWidth)
    (line : Fin Layout.frameHeight) :
    (stamp sprite column row).pixel target line =
      match sprite[(line.val + Layout.frameHeight - row.toNat % Layout.frameHeight) %
          Layout.frameHeight]? with
      | some byte =>
          byte.toBitVec.getMsbD
            ((target.val + Layout.frameWidth - column.toNat % Layout.frameWidth) %
              Layout.frameWidth)
      | none => false := by
  unfold Frame.pixel stamp
  simp only [Vector.getElem_ofFn]
  split
  · rename_i byte present
    exact getMsbD_row byte column target
  · exact Frame.dark_row target.val

end Sprite

end Chip8Machine
