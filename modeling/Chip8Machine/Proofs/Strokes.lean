import Chip8Machine.Proofs.Drawing

/-!
Drawings commute, and undo themselves.

What a drawing toggles depends on its sprite and on the place of the sprite, but not on the frame.
So a pixel of the frame behind any number of drawings tells whether an odd number of them has
covered it, in whatever order they came.
-/

set_option autoImplicit false

namespace Chip8Machine

structure Stroke where
  sprite : List UInt8
  column : UInt8
  row : UInt8
  deriving DecidableEq, Repr

namespace Stroke

def stamp (stroke : Stroke) : Frame := Sprite.stamp stroke.sprite stroke.column stroke.row

/-- The stroke with the coordinates at which it begins on the screen. -/
def onScreen (stroke : Stroke) : Stroke :=
  { stroke with column := stroke.column % 64, row := stroke.row % 32 }

/-- A bit of the sprite that is set falls on the pixel. -/
def Covers (stroke : Stroke) (column : Fin Layout.frameWidth)
    (row : Fin Layout.frameHeight) : Prop :=
  ∃ line number byte, stroke.sprite[line]? = some byte ∧ number < 8 ∧
    byte.toNat.testBit (7 - number) = true ∧
    column.val = (stroke.column.toNat + number) % Layout.frameWidth ∧
    row.val = (stroke.row.toNat + line) % Layout.frameHeight

def odd (strokes : List Stroke) (column : Fin Layout.frameWidth)
    (row : Fin Layout.frameHeight) : Bool :=
  strokes.countP (fun stroke => stroke.stamp.pixel column row) % 2 == 1

end Stroke

structure Machine.Paints (machine : Machine) (listener : ToneListener) (word : Word)
    (stroke : Stroke) (painted : Machine) : Prop where
  isDraw : word.lead = 0xD
  sprite : machine.memory.read machine.registers.index.toNat word.n.val = .ok stroke.sprite
  column : machine.registers.get word.x = stroke.column
  row : machine.registers.get word.y = stroke.row
  succeeds : machine.perform listener word = (painted, .ok .draw)

/-- The strokes are drawn in their order. Between two of them anything may happen that leaves the
frame as it is. -/
inductive Frame.Painted : Frame → List Stroke → Frame → Prop
  | nothing (frame : Frame) : Painted frame [] frame
  | stroke {machine painted : Machine} {listener : ToneListener} {word : Word} {stroke : Stroke}
      {rest : List Stroke} {last : Frame} (paints : machine.Paints listener word stroke painted)
      (onward : Painted painted.frame rest last) : Painted machine.frame (stroke :: rest) last

/-! ### What a stroke covers -/

theorem Sprite.behind_mod (column : UInt8) (target : Fin Layout.frameWidth) :
    behind (column % 64) target = behind column target := by
  unfold behind
  rw [UInt8.toNat_mod]
  exact congrArg (fun left => (target.val + 64 - left) % 64) (Nat.mod_mod _ _)

theorem Sprite.below_mod (row : UInt8) (line : Fin Layout.frameHeight) :
    below (row % 32) line = below row line := by
  unfold below
  rw [UInt8.toNat_mod]
  exact congrArg (fun top => (line.val + 32 - top) % 32) (Nat.mod_mod _ _)

theorem exists_bit_of_ne_zero {byte : UInt8} (nonzero : byte ≠ 0) :
    ∃ number, number < 8 ∧ byte.toNat.testBit (7 - number) = true := by
  have positive : byte.toNat ≠ 0 := fun zero => nonzero (UInt8.toNat_inj.mp zero)
  obtain ⟨bit, set⟩ := Nat.exists_testBit_of_ne_zero positive
  have small : bit < 8 := by
    apply Nat.lt_of_not_le
    intro wide
    have large : byte.toNat < Nat.pow 2 bit :=
      Nat.lt_of_lt_of_le byte.toNat_lt (Nat.pow_le_pow_right (by decide) wide)
    rw [Nat.testBit_lt_two_pow large] at set
    cases set
  have counted : 7 - (7 - bit) = bit := by omega
  refine ⟨7 - bit, by omega, ?_⟩
  rw [counted]
  exact set

namespace Stroke

theorem pixel_stamp_onScreen (stroke : Stroke) (column : Fin Layout.frameWidth)
    (row : Fin Layout.frameHeight) :
    stroke.onScreen.stamp.pixel column row = stroke.stamp.pixel column row := by
  unfold stamp onScreen
  rw [Sprite.pixel_stamp_eq_lit, Sprite.pixel_stamp_eq_lit, Sprite.behind_mod, Sprite.below_mod]

theorem stamp_eq_of_onScreen {first second : Stroke} (same : first.onScreen = second.onScreen) :
    first.stamp = second.stamp := by
  apply Frame.ext
  intro column row
  rw [← pixel_stamp_onScreen first, ← pixel_stamp_onScreen second, same]

/-- As long as its rows do not come round, a sprite's stamp lights the pixels that its set bits fall
on. -/
theorem pixel_stamp_iff {stroke : Stroke} (low : stroke.sprite.length ≤ 32)
    (column : Fin Layout.frameWidth) (row : Fin Layout.frameHeight) :
    stroke.stamp.pixel column row = true ↔ stroke.Covers column row := by
  unfold stamp
  rw [Sprite.pixel_stamp_eq_lit]
  constructor
  · intro lit
    have lineBound : Sprite.below stroke.row row < 32 := Nat.mod_lt _ (by decide)
    have numberBound : Sprite.behind stroke.column column < 64 := Nat.mod_lt _ (by decide)
    have inRow := (Sprite.below_eq_iff stroke.row row lineBound).mp rfl
    have inColumn := (Sprite.behind_eq_iff stroke.column column numberBound).mp rfl
    unfold Sprite.lit at lit
    cases present : stroke.sprite[Sprite.below stroke.row row]? with
    | none =>
        rw [present] at lit
        cases lit
    | some byte =>
        rw [present] at lit
        simp only [getMsbD_eq_testBit, Bool.and_eq_true, decide_eq_true_eq] at lit
        exact ⟨_, _, byte, present, lit.1, lit.2, inColumn, inRow⟩
  · rintro ⟨line, number, byte, present, small, set, inColumn, inRow⟩
    obtain ⟨inside, _⟩ := List.getElem?_eq_some_iff.mp present
    have sameLine : Sprite.below stroke.row row = line :=
      (Sprite.below_eq_iff stroke.row row (by omega)).mpr inRow
    have sameNumber : Sprite.behind stroke.column column = number :=
      (Sprite.behind_eq_iff stroke.column column (by omega)).mpr inColumn
    rw [sameLine, sameNumber, Sprite.lit_of_byte present, getMsbD_eq_testBit, set,
      decide_eq_true small]
    rfl

/-- A sprite covers something unless all of its bytes are zero. -/
theorem exists_covers_iff (stroke : Stroke) :
    (∃ column row, stroke.Covers column row) ↔ ∃ byte ∈ stroke.sprite, byte ≠ 0 := by
  constructor
  · rintro ⟨_, _, line, number, byte, present, _, set, _⟩
    refine ⟨byte, List.mem_of_getElem? present, ?_⟩
    rintro rfl
    rw [UInt8.toNat_zero, Nat.zero_testBit] at set
    cases set
  · rintro ⟨byte, member, nonzero⟩
    obtain ⟨line, present⟩ := List.mem_iff_getElem?.mp member
    obtain ⟨number, small, set⟩ := exists_bit_of_ne_zero nonzero
    have inColumn := Nat.mod_lt (stroke.column.toNat + number) (by decide : 0 < Layout.frameWidth)
    have inRow := Nat.mod_lt (stroke.row.toNat + line) (by decide : 0 < Layout.frameHeight)
    exact ⟨⟨_, inColumn⟩, ⟨_, inRow⟩, line, number, byte, present, small, set, rfl, rfl⟩

/-! ### Counting strokes -/

theorem odd_cons (stroke : Stroke) (rest : List Stroke) (column : Fin Layout.frameWidth)
    (row : Fin Layout.frameHeight) :
    odd (stroke :: rest) column row = (stroke.stamp.pixel column row ^^ odd rest column row) := by
  unfold odd
  rw [List.countP_cons]
  cases stroke.stamp.pixel column row with
  | false => rw [if_neg Bool.false_ne_true, Nat.add_zero, Bool.false_xor]
  | true =>
      rw [if_pos rfl, Bool.true_xor, Bool.eq_iff_iff]
      simp only [beq_iff_eq, Bool.not_eq_true', beq_eq_false_iff_ne]
      omega

theorem odd_eq_of_perm {first second : List Stroke}
    (order : (first.map onScreen).Perm (second.map onScreen)) (column : Fin Layout.frameWidth)
    (row : Fin Layout.frameHeight) :
    odd first column row = odd second column row := by
  have counts := order.countP_eq (fun stroke => stroke.stamp.pixel column row)
  rw [List.countP_map, List.countP_map] at counts
  simp only [Function.comp_def, pixel_stamp_onScreen] at counts
  unfold odd
  rw [counts]

theorem odd_filter_of_even {strokes : List Stroke} {stroke : Stroke}
    (even : strokes.countP (fun other => other.onScreen == stroke.onScreen) % 2 = 0)
    (column : Fin Layout.frameWidth) (row : Fin Layout.frameHeight) :
    odd (strokes.filter fun other => !(other.onScreen == stroke.onScreen)) column row =
      odd strokes column row := by
  have split := List.countP_eq_countP_filter_add strokes (fun other => other.stamp.pixel column row)
    (fun other => other.onScreen == stroke.onScreen)
  have alike : ∀ other ∈ strokes.filter (fun other => other.onScreen == stroke.onScreen),
      other.stamp.pixel column row = stroke.stamp.pixel column row := by
    intro other member
    have same := eq_of_beq (List.mem_filter.mp member).2
    rw [stamp_eq_of_onScreen same]
  -- The strokes that are left out cover the pixel all or not at all.
  rw [List.countP_eq_length_filter] at even
  unfold odd
  cases lit : stroke.stamp.pixel column row with
  | false =>
      have none := List.countP_eq_zero.mpr
        (fun other member => Bool.not_eq_true _ ▸ (alike other member).trans lit)
      rw [split, none, Nat.zero_add]
  | true =>
      have all := List.countP_eq_length.mpr (fun other member => (alike other member).trans lit)
      rw [split, all, Bool.eq_iff_iff, beq_iff_eq, beq_iff_eq]
      omega

end Stroke

/-! ### Frames -/

namespace Machine

variable {machine painted : Machine} {listener : ToneListener} {word : Word} {stroke : Stroke}

theorem Paints.eq_stamped (paints : machine.Paints listener word stroke painted) :
    painted = machine.stamped stroke.stamp := by
  have performs := perform_of_sprite paints.isDraw listener paints.sprite
  rw [paints.succeeds, paints.column, paints.row] at performs
  exact congrArg Prod.fst performs

theorem Paints.short (paints : machine.Paints listener word stroke painted) :
    stroke.sprite.length ≤ 15 := by
  rw [Memory.length_of_read paints.sprite]
  exact Nat.le_of_lt_succ word.n.isLt

theorem Paints.pixel_iff (paints : machine.Paints listener word stroke painted)
    (column : Fin Layout.frameWidth) (row : Fin Layout.frameHeight) :
    stroke.stamp.pixel column row = true ↔ stroke.Covers column row :=
  Stroke.pixel_stamp_iff (Nat.le_trans paints.short (by decide)) column row

theorem Paints.flag_eq (paints : machine.Paints listener word stroke painted) :
    painted.registers.flag = if machine.frame.meets stroke.stamp then 1 else 0 := by
  rw [paints.eq_stamped]
  exact machine.flag_stamped stroke.stamp

theorem Paints.flag_eq_one_iff (paints : machine.Paints listener word stroke painted) :
    painted.registers.flag = 1 ↔
      ∃ column row, machine.frame.pixel column row = true ∧ stroke.Covers column row := by
  simp only [← paints.pixel_iff]
  rw [paints.flag_eq, ← Frame.meets_iff]
  cases machine.frame.meets stroke.stamp with
  | true => exact iff_of_true rfl rfl
  | false => exact iff_of_false (by decide) Bool.false_ne_true

/-- The same stroke can be drawn again at once, unless one of its coordinates was in the flag
register. -/
theorem Paints.again (paints : machine.Paints listener word stroke painted)
    (plainColumn : word.x ≠ Register.flag) (plainRow : word.y ≠ Register.flag) :
    ∃ repainted, painted.Paints listener word stroke repainted := by
  have sameColumn := machine.get_stamped stroke.stamp plainColumn
  have sameRow := machine.get_stamped stroke.stamp plainRow
  rw [paints.eq_stamped]
  exact ⟨_, paints.isDraw, paints.sprite, sameColumn.trans paints.column, sameRow.trans paints.row,
    perform_of_sprite paints.isDraw listener paints.sprite⟩

end Machine

namespace Frame

theorem exists_paints (frame : Frame) {stroke : Stroke} (short : stroke.sprite.length ≤ 15)
    (listener : ToneListener) :
    ∃ machine word painted, machine.frame = frame ∧
      Machine.Paints machine listener word stroke painted := by
  -- `V0` and `V1` hold the place of the stroke, and its sprite stands at the start of memory.
  have covers : Memory.Covers 0 stroke.sprite.length := Nat.le_trans (by omega : _ ≤ 15) (by decide)
  let machine : Machine := {
    frame := frame
    memory := Memory.blank.overlay 0 stroke.sprite covers
    registers := { data := (Registers.initial.set 0 stroke.column |>.set 1 stroke.row).data } }
  have words : ∀ rows : Fin 16, ∃ word : Word, word.lead = 0xD ∧ word.x = 0 ∧ word.y = 1 ∧
      word.n = rows := by
    intro rows
    refine ⟨UInt16.ofNat (0xD010 + rows.val), ?_⟩
    revert rows
    decide
  obtain ⟨word, isDraw, first, second, rows⟩ :=
    words ⟨stroke.sprite.length, Nat.lt_succ_of_le short⟩
  have sprite :
      machine.memory.read machine.registers.index.toNat word.n.val = .ok stroke.sprite := by
    rw [rows, Memory.read_eq_ok_iff]
    refine ⟨covers, ?_⟩
    change _ = (List.drop 0 (Memory.blank.overlay 0 stroke.sprite covers).toList).take
      stroke.sprite.length
    rw [Memory.toList_overlay, List.take_zero, List.nil_append, List.drop_zero, List.take_left]
  have column : machine.registers.get word.x = stroke.column := by
    rw [first]
    rfl
  have row : machine.registers.get word.y = stroke.row := by
    rw [second]
    rfl
  exact ⟨machine, word, _, rfl, isDraw, sprite, column, row,
    Machine.perform_of_sprite isDraw listener sprite⟩

theorem exists_painted_iff (frame : Frame) (strokes : List Stroke) :
    (∃ last, frame.Painted strokes last) ↔ ∀ stroke ∈ strokes, stroke.sprite.length ≤ 15 := by
  constructor
  · rintro ⟨last, painted⟩
    induction painted with
    | nothing frame =>
        intro stroke member
        cases member
    | stroke paints _ ih =>
        intro other member
        rcases List.mem_cons.mp member with rfl | later
        · exact paints.short
        · exact ih other later
  · intro short
    induction strokes generalizing frame with
    | nil => exact ⟨frame, .nothing frame⟩
    | cons stroke rest ih =>
        obtain ⟨machine, word, painted, rfl, paints⟩ :=
          frame.exists_paints (short stroke List.mem_cons_self) Surroundings.quiet.tone
        obtain ⟨last, onward⟩ :=
          ih painted.frame (fun other later => short other (List.mem_cons_of_mem _ later))
        exact ⟨last, .stroke paints onward⟩

theorem Painted.pixel_eq {frame last : Frame} {strokes : List Stroke}
    (painted : frame.Painted strokes last) (column : Fin Layout.frameWidth)
    (row : Fin Layout.frameHeight) :
    last.pixel column row = (frame.pixel column row ^^ Stroke.odd strokes column row) := by
  -- What a stroke toggles is its stamp, on whatever frame the strokes before it have left.
  induction painted with
  | nothing frame => exact (Bool.xor_false _).symm
  | @stroke machine painted listener word stroke rest last paints _ ih =>
      rw [ih, paints.eq_stamped, machine.pixel_stamped, Stroke.odd_cons, Bool.xor_assoc]

theorem Painted.eq_of_odd {frame last other : Frame} {strokes others : List Stroke}
    (painted : frame.Painted strokes last) (paintedOther : frame.Painted others other)
    (same : ∀ column row, Stroke.odd strokes column row = Stroke.odd others column row) :
    last = other := by
  apply Frame.ext
  intro column row
  rw [painted.pixel_eq, paintedOther.pixel_eq, same]

end Frame

namespace Machine

variable {machine again painted repainted : Machine} {listener other : ToneListener}
  {word repeating : Word}
  {stroke repeated : Stroke}

theorem Paints.frame_twice (first : machine.Paints listener word stroke painted)
    (second : again.Paints other repeating repeated repainted)
    (onward : again.frame = painted.frame) (same : repeated.onScreen = stroke.onScreen) :
    repainted.frame = machine.frame := by
  apply Frame.ext
  intro column row
  rw [second.eq_stamped, again.pixel_stamped, onward, first.eq_stamped, machine.pixel_stamped,
    Stroke.stamp_eq_of_onScreen same, Bool.xor_assoc, Bool.xor_self, Bool.xor_false]

/-- The second time a stroke turns off what it has turned on. -/
theorem Paints.flag_twice (first : machine.Paints listener word stroke painted)
    (second : again.Paints other repeating repeated repainted)
    (onward : again.frame = painted.frame) (same : repeated.onScreen = stroke.onScreen) :
    repainted.registers.flag = 1 ↔
      ∃ column row, stroke.Covers column row ∧ machine.frame.pixel column row = false := by
  rw [second.flag_eq_one_iff]
  simp only [← second.pixel_iff, ← first.pixel_iff, onward, first.eq_stamped, machine.pixel_stamped,
    Stroke.stamp_eq_of_onScreen same]
  constructor
  · rintro ⟨column, row, lit, covered⟩
    rw [covered, Bool.xor_true, Bool.not_eq_true'] at lit
    exact ⟨column, row, covered, lit⟩
  · rintro ⟨column, row, covered, dark⟩
    refine ⟨column, row, ?_, covered⟩
    rw [covered, dark]
    rfl

theorem Paints.flag_cases (paints : machine.Paints listener word stroke painted) :
    painted.registers.flag = 0 ∨ painted.registers.flag = 1 := by
  rw [paints.flag_eq]
  cases machine.frame.meets stroke.stamp with
  | true => exact Or.inr rfl
  | false => exact Or.inl rfl

theorem Paints.flag_of_blank (paints : machine.Paints listener word stroke painted)
    (blank : machine.frame = Frame.blank) : painted.registers.flag = 0 := by
  refine paints.flag_cases.resolve_right ?_
  intro collides
  obtain ⟨column, row, lit, _⟩ := paints.flag_eq_one_iff.mp collides
  rw [blank, Frame.pixel_blank] at lit
  cases lit

end Machine

/-- Drawings commute, and undo themselves.

On every frame any list of strokes can be drawn whose sprites have at most fifteen bytes. The frame
that it leads to is the same for every order, also if coordinates are replaced by others that are
the same on the screen, and a stroke that occurs an even number of times may as well be left out.
Strokes that are the same on the screen do the same to equal frames, and report the same in the flag
register. A stroke that is drawn twice leaves the frame as it was; the second time the flag tells
whether the stroke covers a pixel that was dark at first. On a blank frame it does unless all bytes
of the sprite are zero, and the first time the flag is zero. -/
theorem strokes_commute (frame : Frame) :
    (∀ strokes, (∃ last, frame.Painted strokes last) ↔
      ∀ stroke ∈ strokes, stroke.sprite.length ≤ 15) ∧
    (∀ first second one other, (first.map Stroke.onScreen).Perm (second.map Stroke.onScreen) →
      frame.Painted first one → frame.Painted second other → one = other) ∧
    (∀ (strokes : List Stroke) (stroke : Stroke) (one other : Frame),
      strokes.countP (fun found => found.onScreen == stroke.onScreen) % 2 = 0 →
      frame.Painted strokes one →
      frame.Painted (strokes.filter fun found => !(found.onScreen == stroke.onScreen)) other →
        one = other) ∧
    (∀ (machine painted again repainted : Machine) (listener other : ToneListener)
      (word repeating : Word) (stroke repeated : Stroke),
      machine.Paints listener word stroke painted →
      again.Paints other repeating repeated repainted →
      machine.frame = frame → repeated.onScreen = stroke.onScreen →
      (again.frame = frame →
        repainted.frame = painted.frame ∧ repainted.registers.flag = painted.registers.flag) ∧
      (again.frame = painted.frame →
        repainted.frame = frame ∧
        (repainted.registers.flag = 0 ∨ repainted.registers.flag = 1) ∧
        (repainted.registers.flag = 1 ↔
          ∃ column row, stroke.Covers column row ∧ frame.pixel column row = false) ∧
        (frame = Frame.blank → painted.registers.flag = 0 ∧
          (repainted.registers.flag = 1 ↔ ∃ byte ∈ stroke.sprite, byte ≠ 0)))) ∧
    (∀ (machine painted : Machine) (listener : ToneListener) (word : Word) (stroke : Stroke),
      machine.Paints listener word stroke painted →
      word.x ≠ Register.flag → word.y ≠ Register.flag →
      ∃ repainted, painted.Paints listener word stroke repainted) := by
  refine ⟨frame.exists_painted_iff, ?_, ?_, ?_, ?_⟩
  · intro first second one other order painted paintedOther
    exact painted.eq_of_odd paintedOther (Stroke.odd_eq_of_perm order)
  · intro strokes stroke one other even painted paintedOther
    exact painted.eq_of_odd paintedOther
      (fun column row => (Stroke.odd_filter_of_even even column row).symm)
  · rintro machine painted again repainted listener other word repeating stroke repeated first
      second rfl same
    have sameStamp := Stroke.stamp_eq_of_onScreen same
    constructor
    · intro sameFrame
      constructor
      · rw [second.eq_stamped, first.eq_stamped, sameStamp]
        exact congrArg (fun shown => shown.overlay stroke.stamp) sameFrame
      · rw [second.flag_eq, first.flag_eq, sameStamp, sameFrame]
    · intro onward
      have flag := first.flag_twice second onward same
      refine ⟨first.frame_twice second onward same, second.flag_cases, flag, ?_⟩
      intro blank
      refine ⟨first.flag_of_blank blank, ?_⟩
      rw [flag, blank, ← stroke.exists_covers_iff]
      simp only [Frame.pixel_blank, and_true]
  · intro machine painted listener word stroke paints plainColumn plainRow
    exact paints.again plainColumn plainRow

end Chip8Machine
