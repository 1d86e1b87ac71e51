import Chip8Machine.Proofs.CheckedDrawing
import Chip8Machine.Proofs.DisplayRecord

/-!
What a drawing does to each pixel.

The distance of a pixel from the corner of the sprite, around the edges of the screen, names the
only bit of the sprite that can fall on it. The pixel is toggled exactly if there is such a bit and
it is set.
-/

set_option autoImplicit false

namespace Chip8Machine

theorem getMsbD_eq_testBit (byte : UInt8) (number : Nat) :
    byte.toBitVec.getMsbD number = (decide (number < 8) && byte.toNat.testBit (7 - number)) := by
  rw [BitVec.getMsbD_eq_getLsbD, BitVec.getLsbD, UInt8.toNat_toBitVec]

namespace Sprite

theorem below_eq_emod (row : UInt8) (line : Fin Layout.frameHeight) :
    ((line.val : Int) - row.toNat) % Layout.frameHeight = below row line := by
  have bound : line.val < 32 := line.isLt
  simp only [below, Layout.frameHeight]
  omega

theorem behind_eq_emod (column : UInt8) (target : Fin Layout.frameWidth) :
    ((target.val : Int) - column.toNat) % Layout.frameWidth = behind column target := by
  have bound : target.val < 64 := target.isLt
  simp only [behind, Layout.frameWidth]
  omega

end Sprite

namespace Machine

/-- The bit that falls on a pixel when the word draws the bytes at the index, with their first bit
at the column and row that its registers hold. -/
def spriteBit (machine : Machine) (word : Word) (column : Fin Layout.frameWidth)
    (row : Fin Layout.frameHeight) : Bool :=
  let across :=
    (((column.val : Int) - (machine.registers.get word.x).toNat) % Layout.frameWidth).toNat
  let down := (((row.val : Int) - (machine.registers.get word.y).toNat) % Layout.frameHeight).toNat
  decide (across < 8 ∧ down < word.n.val) &&
    (machine.memory.byte? (machine.registers.index.toNat + down)).any fun byte =>
      byte.toNat.testBit (7 - across)

variable {machine : Machine} {word : Word} {sprite : List UInt8}

theorem pixel_stamp_eq_spriteBit
    (read : machine.memory.read machine.registers.index.toNat word.n.val = .ok sprite)
    (column : Fin Layout.frameWidth) (row : Fin Layout.frameHeight) :
    (Sprite.stamp sprite (machine.registers.get word.x) (machine.registers.get word.y)).pixel
        column row =
      machine.spriteBit word column row := by
  rw [Sprite.pixel_stamp_eq_lit]
  simp only [spriteBit, Sprite.behind_eq_emod, Sprite.below_eq_emod, Int.toNat_natCast]
  generalize Sprite.below (machine.registers.get word.y) row = down
  generalize Sprite.behind (machine.registers.get word.x) column = across
  unfold Sprite.lit
  rw [Memory.getElem?_of_read read]
  by_cases low : down < word.n.val
  · rw [if_pos low]
    cases machine.memory.byte? (machine.registers.index.toNat + down) with
    | none => simp
    | some byte => simp [getMsbD_eq_testBit, low]
  · simp [low]

/-- The loops over the bytes and the bits come to the same frame, and to the same collision. -/
theorem bytes_eq_of_sprite (left top : UInt8)
    (read : machine.memory.read machine.registers.index.toNat word.n.val = .ok sprite) :
    (Drawing.begin machine.frame).bytes left.toNat top.toNat 0 sprite =
      .ok {
        frame := machine.frame.overlay (Sprite.stamp sprite left top)
        collision := machine.frame.meets (Sprite.stamp sprite left top) } := by
  have bound : word.n.val < 16 := word.n.isLt
  have low : sprite.length ≤ 32 := by
    rw [Memory.length_of_read read]
    omega
  exact Drawing.bytes_eq machine.frame sprite left top low

/-- A drawing is exact, whatever its registers are.

The sprite is read from memory, and drawing it bit by bit comes to the frame and to the flag that
the word leaves. Each pixel is toggled by the bit that falls on it. The flag tells whether a lit
pixel was turned off; all other registers, the index, the memory, the stack and everything outside
of the core are as they were. -/
theorem drawing_exact (machine : Machine) (listener : ToneListener) (word : Word)
    (isDraw : word.lead = 0xD)
    (inside : machine.registers.index.toNat + word.n.val ≤ Layout.memorySize) :
    ∃ drawn, machine.perform listener word = (drawn, .ok .draw) ∧
      (∀ column row, drawn.frame.pixel column row =
        (machine.frame.pixel column row ^^ machine.spriteBit word column row)) ∧
      (machine.frame.Loses drawn.frame ∧ drawn.registers.flag = 1 ∨
        ¬ machine.frame.Loses drawn.frame ∧ drawn.registers.flag = 0) ∧
      drawn.registers.counter = machine.registers.counter + 2 ∧
      drawn.registers.index = machine.registers.index ∧
      (∀ register, register ≠ Register.flag →
        drawn.registers.get register = machine.registers.get register) ∧
      drawn.memory = machine.memory ∧ drawn.stack = machine.stack ∧
      drawn.toPeripherals = machine.toPeripherals ∧
      drawn.random = machine.random ∧ drawn.shown = machine.shown ∧
      ∃ sprite drawing, machine.memory.read machine.registers.index.toNat word.n.val = .ok sprite ∧
        (Drawing.begin machine.frame).bytes (machine.registers.get word.x).toNat
          (machine.registers.get word.y).toNat 0 sprite = .ok drawing ∧
        drawn.frame = drawing.frame ∧
        drawn.registers.flag = if drawing.collision then 1 else 0 := by
  have read := (Memory.read_eq_ok_iff machine.memory machine.registers.index.toNat word.n.val _).mpr
    ⟨inside, rfl⟩
  generalize (machine.memory.toList.drop machine.registers.index.toNat).take word.n.val =
    sprite at read
  have performs := perform_of_sprite isDraw listener read
  have loops :=
    bytes_eq_of_sprite (machine.registers.get word.x) (machine.registers.get word.y) read
  have bits := pixel_stamp_eq_spriteBit read
  generalize
    Sprite.stamp sprite (machine.registers.get word.x) (machine.registers.get word.y) = stamp
    at performs loops bits
  refine ⟨machine.stamped stamp, performs, ?_, flag_of_draw isDraw performs, rfl, rfl, ?_, rfl, rfl,
    rfl, rfl, rfl, sprite, _, read, loops, rfl, machine.flag_stamped stamp⟩
  · intro column row
    rw [← bits column row]
    exact machine.pixel_stamped stamp column row
  · intro register other
    exact machine.get_stamped stamp other

/-- The font's `0` in the lower right corner, placed by the flag register. Nothing is turned off. -/
theorem drawing_exact_around_corner :
    let machine : Machine := { registers := Registers.initial.set Register.flag 63 }
    Word.lead 0xDFF5 = 0xD ∧
      machine.registers.index.toNat + (Word.n 0xDFF5).val ≤ Layout.memorySize ∧
      ∃ drawn, machine.perform Surroundings.quiet.tone 0xDFF5 = (drawn, .ok .draw) ∧
        drawn.frame.pixel 63 31 = true ∧ drawn.frame.pixel 0 0 = false ∧
        drawn.frame.pixel 2 0 = true ∧ drawn.frame.pixel 3 31 = false ∧
        drawn.registers.flag = 0 := by
  intro machine
  have isDraw : Word.lead 0xDFF5 = 0xD := by decide
  have inside : machine.registers.index.toNat + (Word.n 0xDFF5).val ≤ Layout.memorySize := by decide
  obtain ⟨drawn, performs, pixels, told, _⟩ :=
    drawing_exact machine Surroundings.quiet.tone 0xDFF5 isDraw inside
  have dark : ¬ machine.frame.Loses drawn.frame := by
    rintro ⟨column, row, lit, _⟩
    cases (Frame.pixel_blank column row).symm.trans lit
  refine ⟨isDraw, inside, drawn, performs, ?_, ?_, ?_, ?_, ?_⟩
  · rw [pixels]
    decide +kernel
  · rw [pixels]
    decide +kernel
  · rw [pixels]
    decide +kernel
  · rw [pixels]
    decide +kernel
  · exact (told.resolve_left (fun loses => dark loses.1)).2

end Machine

end Chip8Machine
