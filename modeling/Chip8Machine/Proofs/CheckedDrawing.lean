import Chip8Machine.Checked.Drawing

/-!
Drawing a sprite pixel by pixel puts its stamp on the frame.

The places of a sprite's bits are all different, because a sprite is lower and narrower than the
screen. So every bit that is set toggles a pixel that was not toggled before, and whatever has been
drawn at some point is the frame with the pixels of the bits so far toggled.
-/

set_option autoImplicit false

namespace Chip8Machine

open Checked

namespace Sprite

/-- How many lines a row of the screen is below the given one, around the edge. -/
def below (row : UInt8) (line : Fin Layout.frameHeight) : Nat :=
  (line.val + Layout.frameHeight - row.toNat % Layout.frameHeight) % Layout.frameHeight

def behind (column : UInt8) (target : Fin Layout.frameWidth) : Nat :=
  (target.val + Layout.frameWidth - column.toNat % Layout.frameWidth) % Layout.frameWidth

theorem below_eq_iff (row : UInt8) (line : Fin Layout.frameHeight) {offset : Nat}
    (small : offset < 32) :
    below row line = offset ↔ line.val = (row.toNat + offset) % 32 := by
  have bound : line.val < 32 := line.isLt
  simp only [below, Layout.frameHeight]
  omega

theorem behind_eq_iff (column : UInt8) (target : Fin Layout.frameWidth) {number : Nat}
    (small : number < 64) :
    behind column target = number ↔ target.val = (column.toNat + number) % 64 := by
  have bound : target.val < 64 := target.isLt
  simp only [behind, Layout.frameWidth]
  omega

def lit (sprite : List UInt8) (offset number : Nat) : Bool :=
  match sprite[offset]? with
  | some byte => byte.toBitVec.getMsbD number
  | none => false

theorem pixel_stamp_eq_lit (sprite : List UInt8) (column row : UInt8)
    (target : Fin Layout.frameWidth) (line : Fin Layout.frameHeight) :
    (stamp sprite column row).pixel target line =
      lit sprite (below row line) (behind column target) :=
  pixel_stamp sprite column row target line

theorem lit_of_byte {sprite : List UInt8} {byte : UInt8} {offset : Nat}
    (present : sprite[offset]? = some byte) (number : Nat) :
    lit sprite offset number = byte.toBitVec.getMsbD number := by
  simp only [lit, present]

theorem lit_of_wide (sprite : List UInt8) (offset : Nat) {number : Nat} (wide : 8 ≤ number) :
    lit sprite offset number = false := by
  unfold lit
  cases sprite[offset]? with
  | none => rfl
  | some byte => exact BitVec.getMsbD_of_ge _ _ wide

/-- The pixels of the bits before a bit: those of the bytes above its byte, and those before it in
its byte. -/
def before (sprite : List UInt8) (column row : UInt8) (offset number : Nat)
    (target : Fin Layout.frameWidth) (line : Fin Layout.frameHeight) : Bool :=
  lit sprite (below row line) (behind column target) &&
    decide (below row line < offset ∨ below row line = offset ∧ behind column target < number)

variable (sprite : List UInt8) (column row : UInt8)

theorem before_start (target : Fin Layout.frameWidth) (line : Fin Layout.frameHeight) :
    before sprite column row 0 0 target line = false := by
  unfold before
  rw [decide_eq_false (by omega), Bool.and_false]

theorem before_next_bit (offset number : Nat) (target : Fin Layout.frameWidth)
    (line : Fin Layout.frameHeight) :
    before sprite column row offset (number + 1) target line =
      (before sprite column row offset number target line ||
        (lit sprite offset number &&
          decide (behind column target = number ∧ below row line = offset))) := by
  unfold before
  by_cases here : behind column target = number ∧ below row line = offset
  · rw [here.1, here.2, decide_eq_true (by omega), decide_eq_false (by omega),
      decide_eq_true (by omega)]
    simp only [Bool.and_true, Bool.and_false, Bool.false_or]
  · have same :
        (below row line < offset ∨ below row line = offset ∧ behind column target < number + 1) ↔
          (below row line < offset ∨ below row line = offset ∧ behind column target < number) := by
      omega
    rw [decide_eq_false here, Bool.and_false, Bool.or_false, decide_eq_decide.mpr same]

theorem before_next_byte (offset : Nat) (target : Fin Layout.frameWidth)
    (line : Fin Layout.frameHeight) :
    before sprite column row offset 8 target line =
      before sprite column row (offset + 1) 0 target line := by
  unfold before
  by_cases narrow : behind column target < 8
  · congr 1
    apply decide_eq_decide.mpr
    omega
  · rw [lit_of_wide _ _ (Nat.le_of_not_lt narrow), Bool.false_and, Bool.false_and]

theorem before_end {offset : Nat} (beyond : sprite.length ≤ offset) (target : Fin Layout.frameWidth)
    (line : Fin Layout.frameHeight) :
    before sprite column row offset 0 target line =
      (stamp sprite column row).pixel target line := by
  rw [pixel_stamp_eq_lit]
  unfold before
  by_cases above : below row line < offset
  · rw [decide_eq_true (Or.inl above), Bool.and_true]
  · have absent : sprite[below row line]? = none := List.getElem?_eq_none (by omega)
    simp only [lit, absent, Bool.false_and]

end Sprite

/-- The bit of a byte that a mask cuts out. -/
theorem masked_eq_zero_iff (byte : UInt8) {number : Nat} (small : number < 8) :
    byte &&& (0x80 >>> UInt8.ofNat number) = 0 ↔ byte.toBitVec.getMsbD number = false := by
  have points : ∀ position : Fin 8, ((0x80 : UInt8) >>> UInt8.ofNat position.val).toBitVec =
      BitVec.twoPow 8 (8 - 1 - position.val) := by decide
  have nonzero : ∀ position : Fin 8, BitVec.twoPow 8 (8 - 1 - position.val) ≠ 0 := by decide
  rw [← UInt8.toBitVec_inj, UInt8.toBitVec_and, points ⟨number, small⟩, BitVec.and_twoPow,
    BitVec.getMsbD_eq_getLsbD, decide_eq_true small, Bool.true_and]
  cases byte.toBitVec.getLsbD (8 - 1 - number) with
  | false => exact iff_of_true rfl rfl
  | true => exact iff_of_false (nonzero ⟨number, small⟩) Bool.noConfusion

namespace Drawing

/-- The pixels of the mask have been toggled on the frame, each of them once. -/
structure Toggled (frame : Frame) (mask : Fin Layout.frameWidth → Fin Layout.frameHeight → Bool)
    (drawing : Drawing) : Prop where
  pixel : ∀ column row, drawing.frame.pixel column row = (frame.pixel column row ^^ mask column row)
  collision : drawing.collision = true ↔
    ∃ column row, frame.pixel column row = true ∧ mask column row = true

variable {frame : Frame} {mask other : Fin Layout.frameWidth → Fin Layout.frameHeight → Bool}
  {drawing : Drawing}

theorem Toggled.congr (toggled : Toggled frame mask drawing)
    (same : ∀ column row, mask column row = other column row) : Toggled frame other drawing := by
  have equal : mask = other := funext fun column => funext fun row => same column row
  rw [← equal]
  exact toggled

theorem toggled_begin (frame : Frame) : Toggled frame (fun _ _ => false) (begin frame) := by
  constructor
  · intro column row
    exact (Bool.xor_false _).symm
  · constructor
    · intro impossible
      cases impossible
    · rintro ⟨_, _, _, impossible⟩
      cases impossible

/-- What has been drawn with all the pixels of a stamp toggled. -/
theorem Toggled.complete {stamp : Frame} (toggled : Toggled frame stamp.pixel drawing) :
    drawing = { frame := frame.overlay stamp, collision := frame.meets stamp } := by
  obtain ⟨drawn, collision⟩ := drawing
  have sameFrame : drawn = frame.overlay stamp := by
    apply Frame.ext
    intro column row
    rw [Frame.pixel_overlay]
    exact toggled.pixel column row
  have sameCollision : collision = frame.meets stamp := by
    rw [Bool.eq_iff_iff, Frame.meets_iff]
    exact toggled.collision
  rw [sameFrame, sameCollision]

theorem Toggled.toggleAt (toggled : Toggled frame mask drawing) {column : Fin Layout.frameWidth}
    {row : Fin Layout.frameHeight} (untouched : mask column row = false) :
    ∃ next, drawing.toggleAt column.val row.val = .ok next ∧
      Toggled frame (fun target line => mask target line || decide (target = column ∧ line = row))
        next := by
  have lit : drawing.frame.pixel column row = frame.pixel column row := by
    rw [toggled.pixel, untouched, Bool.xor_false]
  simp only [Drawing.toggleAt, Frame.toggleAt_val, ok_bind, lit]
  refine ⟨_, rfl, ?_, ?_⟩
  · intro target line
    rw [Frame.pixel_toggle, toggled.pixel]
    by_cases here : target = column ∧ line = row
    · rw [here.1, here.2, untouched, Bool.xor_false, Bool.false_or]
    · rw [decide_eq_false here, Bool.xor_false, Bool.or_false]
  · simp only [Bool.or_eq_true, decide_eq_true_eq, toggled.collision]
    constructor
    · rintro (⟨target, line, wasLit, touched⟩ | wasLit)
      · exact ⟨target, line, wasLit, .inl touched⟩
      · exact ⟨column, row, wasLit, .inr ⟨rfl, rfl⟩⟩
    · rintro ⟨target, line, wasLit, touched | ⟨rfl, rfl⟩⟩
      · exact .inl ⟨target, line, wasLit, touched⟩
      · exact .inr wasLit

/-! ### The loops -/

section

open Sprite

variable {sprite : List UInt8} {column row value : UInt8} {offset : Nat}

/-- One bit of the byte with the given offset. -/
theorem Toggled.bit {number : Nat} (low : offset < 32) (small : number < 8)
    (present : sprite[offset]? = some value)
    (toggled : Toggled frame (before sprite column row offset number) drawing) :
    ∃ next, drawing.bit column.toNat ((row.toNat + offset) % 32) value number = .ok next ∧
      Toggled frame (before sprite column row offset (number + 1)) next := by
  have bound := column.toNat_lt
  have room : column.toNat + number < UInt64.size := Nat.lt_trans (by omega : _ < 264) (by decide)
  simp only [Drawing.bit, shiftRight_of_lt small, ok_bind]
  by_cases dark : value.toBitVec.getMsbD number = false
  · rw [if_pos ((masked_eq_zero_iff value small).mpr dark)]
    refine ⟨drawing, rfl, toggled.congr fun target line => ?_⟩
    rw [before_next_bit, lit_of_byte present, dark, Bool.false_and, Bool.or_false]
  · rw [if_neg (mt (masked_eq_zero_iff value small).mp dark), addSize_of_lt room, ok_bind]
    let target : Fin Layout.frameWidth := ⟨(column.toNat + number) % 64, Nat.mod_lt _ (by decide)⟩
    let line : Fin Layout.frameHeight := ⟨(row.toNat + offset) % 32, Nat.mod_lt _ (by decide)⟩
    have place : ∀ across down, (behind column across = number ∧ below row down = offset) ↔
        (across = target ∧ down = line) := by
      intro across down
      rw [behind_eq_iff column across (by omega), below_eq_iff row down low, Fin.ext_iff,
        Fin.ext_iff]
    have untouched : before sprite column row offset number target line = false := by
      obtain ⟨sameNumber, sameOffset⟩ := (place target line).mpr ⟨rfl, rfl⟩
      unfold before
      rw [sameNumber, sameOffset, decide_eq_false (by omega), Bool.and_false]
    obtain ⟨next, drawn, nextToggled⟩ := toggled.toggleAt untouched
    refine ⟨next, drawn, nextToggled.congr fun across down => ?_⟩
    rw [before_next_bit, lit_of_byte present, eq_true_of_ne_false dark, Bool.true_and]
    congr 1
    exact decide_eq_decide.mpr (place across down).symm

theorem Toggled.byte (low : offset < 32) (present : sprite[offset]? = some value)
    (toggled : Toggled frame (before sprite column row offset 0) drawing) :
    ∃ next, drawing.byte column.toNat (row.toNat + offset) value = .ok next ∧
      Toggled frame (before sprite column row (offset + 1) 0) next := by
  have bits : ∀ count, count ≤ 8 → ∃ next,
      (List.range count).foldlM (Drawing.bit column.toNat ((row.toNat + offset) % 32) value)
          drawing = .ok next ∧
        Toggled frame (before sprite column row offset count) next := by
    intro count bound
    induction count with
    | zero => exact ⟨drawing, rfl, toggled⟩
    | succ count ih =>
        obtain ⟨middle, drawn, middleToggled⟩ := ih (Nat.le_of_succ_le bound)
        obtain ⟨next, last, nextToggled⟩ := middleToggled.bit low bound present
        refine ⟨next, ?_, nextToggled⟩
        rw [List.range_succ, List.foldlM_append, drawn, ok_bind, List.foldlM_cons, last]
        rfl
  obtain ⟨next, drawn, all⟩ := bits 8 (Nat.le_refl 8)
  exact ⟨next, drawn, all.congr (before_next_byte sprite column row offset)⟩

theorem Toggled.bytes {rest : List UInt8} (low : offset + rest.length ≤ 32)
    (present : ∀ position, rest[position]? = sprite[offset + position]?)
    (toggled : Toggled frame (before sprite column row offset 0) drawing) :
    ∃ next, drawing.bytes column.toNat row.toNat offset rest = .ok next ∧
      Toggled frame (stamp sprite column row).pixel next := by
  induction rest generalizing offset drawing with
  | nil =>
      have beyond : sprite.length ≤ offset := List.getElem?_eq_none_iff.mp (present 0).symm
      exact ⟨drawing, rfl, toggled.congr (before_end sprite column row beyond)⟩
  | cons first rest ih =>
      rw [List.length_cons] at low
      have bound := row.toNat_lt
      have room : row.toNat + offset < UInt64.size := Nat.lt_trans (by omega : _ < 288) (by decide)
      have here : sprite[offset]? = some first := (present 0).symm
      obtain ⟨middle, drawn, middleToggled⟩ := toggled.byte (by omega) here
      have onward : ∀ position, rest[position]? = sprite[offset + 1 + position]? := by
        intro position
        rw [Nat.add_assoc, Nat.add_comm 1 position]
        exact present (position + 1)
      obtain ⟨next, last, all⟩ := ih (by omega) onward middleToggled
      refine ⟨next, ?_, all⟩
      simp only [Drawing.bytes, addSize_of_lt room, ok_bind, drawn, last]

/-- A sprite that is no higher than the screen is drawn pixel by pixel without a trap. -/
theorem bytes_eq (frame : Frame) (sprite : List UInt8) (column row : UInt8)
    (low : sprite.length ≤ 32) :
    (begin frame).bytes column.toNat row.toNat 0 sprite =
      .ok
        { frame := frame.overlay (stamp sprite column row)
          collision := frame.meets (stamp sprite column row) } := by
  have start : Toggled frame (before sprite column row 0 0) (begin frame) :=
    (toggled_begin frame).congr fun target line => (before_start sprite column row target line).symm
  have present : ∀ position, sprite[position]? = sprite[0 + position]? := by
    intro position
    rw [Nat.zero_add]
  obtain ⟨last, drawn, all⟩ := start.bytes (by omega) present
  rw [drawn, all.complete]

end

end Drawing

end Chip8Machine
