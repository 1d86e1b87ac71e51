import Chip8Machine.Proofs.ProgramLoading
import Chip8Machine.Proofs.Strokes

/-!
The font survives, and is drawn.

Programs are loaded behind the font, and an access to memory does not wrap around to low addresses,
although the index does. So only a store that begins within the font can change it. As long as it is
there, a digit is drawn by two words: one points the index to its glyph, and the next draws the five
rows of it.
-/

set_option autoImplicit false

namespace Chip8Machine

def Word.Writes (word : Word) : Prop :=
  word.lead = 0xF ∧ (word.kk.toNat = 0x33 ∨ word.kk.toNat = 0x55)

def Layout.glyph (digit : Nat) : List UInt8 :=
  (Layout.font.drop (Layout.glyphSize * digit)).take Layout.glyphSize

/-! ### Low addresses -/

namespace Machine

/-- What is stored or written while this happens begins at the limit or behind it. -/
def Spares (limit : Nat) (machine : Machine) : Happening → Prop
  | .cycle => ∀ word, machine.memory.fetch machine.registers.counter = .ok word → word.Writes →
      limit ≤ machine.registers.index.toNat
  | .write start _ => limit ≤ start
  | _ => True

def SparesAll (limit : Nat) (surroundings : Surroundings) (machine : Machine) :
    List Happening → Prop
  | [] => True
  | happening :: rest =>
      machine.Spares limit happening ∧
        (machine.happen surroundings happening).SparesAll limit surroundings rest

variable {limit address : Nat} {surroundings : Surroundings} {machine : Machine}

theorem byte?_next_of_spares (spares : machine.Spares limit .cycle) (below : address < limit) :
    (machine.next surroundings).1.memory.byte? address = machine.memory.byte? address := by
  rcases machine.next_effect surroundings with
    ⟨fault, failed⟩ | ⟨word, executed, fetched, effect, sameCore⟩
  · rw [failed]
  · have sameByte := congrArg (fun core : Core => core.memory.byte? address) sameCore
    apply sameByte.trans
    apply effect.unchanged (.byte address)
    intro touches
    obtain ⟨isDevice, reached, low⟩ :=
      Instruction.touches_of_encodes (Instruction.encodes_decode word) touches
    have limited := spares word fetched ⟨isDevice, low.imp And.left And.left⟩
    omega

theorem byte?_happen_of_spares (low : limit ≤ Layout.programStart) {happening : Happening}
    (spares : machine.Spares limit happening) (below : address < limit) :
    (machine.happen surroundings happening).memory.byte? address =
      machine.memory.byte? address := by
  cases happening with
  | cycle => exact byte?_next_of_spares spares below
  | write start data =>
      have limited : limit ≤ start := spares
      cases succeeds : machine.memory.write start data with
      | ok written =>
          simp only [happen, write, succeeds]
          exact Memory.byte?_outside_write succeeds (by omega)
      | error fault => rw [Memory.happen_write_of_error succeeds]
  | load program =>
      apply byte?_happen_load_of_not_overwrites
      intro overwrites
      have behind := overwrites.2.1
      omega
  | receive | tick | gesture => rfl

theorem byte?_happenAll_of_spares (low : limit ≤ Layout.programStart) {happenings : List Happening}
    (spares : machine.SparesAll limit surroundings happenings) (below : address < limit) :
    (machine.happenAll surroundings happenings).memory.byte? address =
      machine.memory.byte? address := by
  induction happenings generalizing machine with
  | nil => rfl
  | cons happening rest ih =>
      exact (ih spares.2).trans (byte?_happen_of_spares low spares.1 below)

end Machine

/-! ### The font -/

namespace Memory

theorem read_eq_of_bytes {first second : Memory} {start count : Nat}
    (same : ∀ address, start ≤ address → address < start + count →
      first.byte? address = second.byte? address) :
    first.read start count = second.read start count := by
  by_cases covers : Covers start count
  · have bytes : (first.toList.drop start).take count = (second.toList.drop start).take count := by
      apply List.ext_getElem?
      intro offset
      rw [List.getElem?_take, List.getElem?_take, List.getElem?_drop, List.getElem?_drop,
        ← byte?_eq_toList, ← byte?_eq_toList]
      by_cases within : offset < count
      · rw [same (start + offset) (Nat.le_add_right _ _) (Nat.add_lt_add_left within _)]
      · rw [if_neg within, if_neg within]
    rw [(first.read_eq_ok_iff start count _).mpr ⟨covers, rfl⟩,
      (second.read_eq_ok_iff start count _).mpr ⟨covers, rfl⟩, bytes]
  · rw [(first.read_eq_error_iff start count _).mpr ⟨covers, rfl⟩,
      (second.read_eq_error_iff start count _).mpr ⟨covers, rfl⟩]

theorem read_font_blank : blank.read Layout.fontStart Layout.font.length = .ok Layout.font := by
  rw [read_eq_ok_iff]
  constructor
  · decide
  · exact (List.take_left).symm

theorem read_part {memory : Memory} {start count offset part : Nat} {bytes : List UInt8}
    (read : memory.read start count = .ok bytes) (within : offset + part ≤ count) :
    memory.read (start + offset) part = .ok ((bytes.drop offset).take part) := by
  obtain ⟨covers, rfl⟩ := (memory.read_eq_ok_iff start count bytes).mp read
  rw [read_eq_ok_iff]
  constructor
  · unfold Covers at covers ⊢
    omega
  · rw [List.drop_take, List.take_take, List.drop_drop,
      Nat.min_eq_left (Nat.le_sub_of_add_le' within)]

theorem read_glyph {memory : Memory}
    (font : memory.read Layout.fontStart Layout.font.length = .ok Layout.font) {digit : Nat}
    (known : digit < Layout.keyCount) :
    memory.read (Layout.glyphSize * digit) Layout.glyphSize = .ok (Layout.glyph digit) := by
  have within : Layout.glyphSize * digit + Layout.glyphSize ≤ Layout.font.length := by
    rw [Layout.font_length, Nat.mul_comm, ← Nat.add_one_mul]
    exact Nat.mul_le_mul_right Layout.glyphSize known
  have rows := read_part font within
  rw [Nat.zero_add] at rows
  exact rows

end Memory

namespace Machine

variable {machine : Machine} {point draw : Word}

theorem glyphAddress_of_digit {value : UInt8} (known : value.toNat < Layout.keyCount) :
    (glyphAddress value).toNat = Layout.glyphSize * value.toNat := by
  have bound : value.toNat < 16 := known
  unfold glyphAddress
  rw [UInt16.toNat_ofNat']
  change (0 + 5 * value.toNat) % 65536 = 5 * value.toNat
  omega

theorem stamped_changes_iff {stroke : Stroke} (low : stroke.sprite.length ≤ 32)
    (column : Fin Layout.frameWidth) (row : Fin Layout.frameHeight) :
    (machine.stamped stroke.stamp).frame.pixel column row ≠ machine.frame.pixel column row ↔
      stroke.Covers column row := by
  rw [← Stroke.pixel_stamp_iff low, pixel_stamped]
  cases machine.frame.pixel column row <;> cases stroke.stamp.pixel column row <;> decide

def pointed (machine : Machine) (register : Register) : Machine :=
  (machine.withRegisters
    { machine.registers with index := glyphAddress (machine.registers.get register) }).advance .next

theorem perform_point (isDevice : point.lead = 0xF) (low : point.kk.toNat = 0x29)
    (listener : ToneListener) :
    machine.perform listener point = (machine.pointed point.x, .ok .nothing) :=
  machine.perform_of_encodes listener (.pointGlyph point.x) ⟨isDevice, low, rfl⟩

/-- As long as the font is there, a digit is drawn by the word that points to its glyph and a word
that draws five rows. -/
theorem draw_glyph
    (font : machine.memory.read Layout.fontStart Layout.font.length = .ok Layout.font)
    (known : (machine.registers.get point.x).toNat < Layout.keyCount) (isDraw : draw.lead = 0xD)
    (rows : draw.n.val = Layout.glyphSize) (listener : ToneListener) :
    let stroke : Stroke :=
      { sprite := Layout.glyph (machine.registers.get point.x).toNat
        column := machine.registers.get draw.x
        row := machine.registers.get draw.y }
    ∃ drawn, (machine.pointed point.x).perform listener draw = (drawn, .ok .draw) ∧
      (∀ column row, drawn.frame.pixel column row ≠ machine.frame.pixel column row ↔
        stroke.Covers column row) ∧
      (machine.frame.Loses drawn.frame ∧ drawn.registers.flag = 1 ∨
        ¬ machine.frame.Loses drawn.frame ∧ drawn.registers.flag = 0) := by
  intro stroke
  have read :
      (machine.pointed point.x).memory.read (machine.pointed point.x).registers.index.toNat
        draw.n.val = .ok stroke.sprite := by
    have glyph := Memory.read_glyph font known
    rw [← glyphAddress_of_digit known, ← rows] at glyph
    exact glyph
  have performs := perform_of_sprite isDraw listener read
  have low : stroke.sprite.length ≤ 32 := by
    have size : Layout.glyphSize = 5 := rfl
    rw [Memory.length_of_read read, rows]
    omega
  have flag := flag_of_draw isDraw performs
  exact ⟨_, performs, stamped_changes_iff low, flag⟩

/-- The font survives every history whose stores and writes begin behind it, with programs loaded at
any time, and then any digit can be drawn at any place and on any frame. -/
theorem font_survives (surroundings : Surroundings) (random : RandomBytes) (listener : Listener)
    (happenings : List Happening)
    (spares : (fresh random listener).SparesAll Layout.font.length surroundings happenings) :
    let reached := (fresh random listener).happenAll surroundings happenings
    reached.memory.read Layout.fontStart Layout.font.length = .ok Layout.font ∧
    ∀ (frame : Frame) (listener : ToneListener) (point draw : Word),
      point.lead = 0xF → point.kk.toNat = 0x29 → draw.lead = 0xD → draw.n.val = Layout.glyphSize →
      (reached.registers.get point.x).toNat < Layout.keyCount →
      let stroke : Stroke :=
        { sprite := Layout.glyph (reached.registers.get point.x).toNat
          column := reached.registers.get draw.x
          row := reached.registers.get draw.y }
      ∃ pointed drawn,
        ({ reached with frame := frame } : Machine).perform listener point =
          (pointed, .ok .nothing) ∧
        pointed.perform listener draw = (drawn, .ok .draw) ∧
        (∀ column row, drawn.frame.pixel column row ≠ frame.pixel column row ↔
          stroke.Covers column row) ∧
        (frame.Loses drawn.frame ∧ drawn.registers.flag = 1 ∨
          ¬ frame.Loses drawn.frame ∧ drawn.registers.flag = 0) := by
  intro reached
  have font : reached.memory.read Layout.fontStart Layout.font.length = .ok Layout.font := by
    apply Eq.trans _ Memory.read_font_blank
    apply Memory.read_eq_of_bytes
    intro address _ below
    have inFont : address < Layout.font.length := by
      rw [Nat.zero_add] at below
      exact below
    exact byte?_happenAll_of_spares (by decide) spares inFont
  refine ⟨font, ?_⟩
  intro frame tone point draw isDevice low isDraw rows known
  let painter : Machine := { reached with frame := frame }
  have sameFont : painter.memory.read Layout.fontStart Layout.font.length = .ok Layout.font := font
  have sameKnown : (painter.registers.get point.x).toNat < Layout.keyCount := known
  obtain ⟨drawn, draws, pixels, flag⟩ := draw_glyph sameFont sameKnown isDraw rows tone
  exact ⟨painter.pointed point.x, drawn, perform_point isDevice low tone, draws, pixels, flag⟩

/-- The program points the index right behind the font and stores three digits there. -/
theorem font_survives_store_behind_it :
    let happenings : List Happening := [.load [0xA0, 0x50, 0xF0, 0x33], .cycle, .cycle]
    (fresh RandomBytes.zeros none).SparesAll Layout.font.length .quiet happenings ∧
      ∃ painter pointed drawn : Machine,
        painter =
          { (fresh RandomBytes.zeros none).happenAll .quiet happenings with frame := Frame.blank } ∧
        painter.perform Surroundings.quiet.tone 0xF029 = (pointed, .ok .nothing) ∧
        pointed.perform Surroundings.quiet.tone 0xD005 = (drawn, .ok .draw) ∧
        drawn.frame.pixel 0 0 = true := by
  intro happenings
  have spares : (fresh RandomBytes.zeros none).SparesAll Layout.font.length .quiet happenings := by
    refine And.intro trivial (And.intro ?_ (And.intro ?_ trivial))
    · intro word fetched writes
      let loaded := (fresh RandomBytes.zeros none).happen .quiet (.load [0xA0, 0x50, 0xF0, 0x33])
      have first : (loaded.memory.fetch loaded.registers.counter).toOption = some 0xA050 := by
        decide +kernel
      have same : some word = some 0xA050 := (congrArg Except.toOption fetched).symm.trans first
      rw [Option.some.inj same] at writes
      exact absurd writes.1 (by decide)
    · intro _ _ _
      decide +kernel
  have facts := font_survives .quiet RandomBytes.zeros none happenings spares
  have zeros : ((fresh RandomBytes.zeros none).happenAll .quiet happenings).registers.data =
      Registers.initial.data := by
    decide +kernel
  refine ⟨spares, ?_⟩
  generalize (fresh RandomBytes.zeros none).happenAll .quiet happenings = reached at facts zeros ⊢
  have digit : ∀ register, reached.registers.get register = 0 := by
    intro register
    rw [Registers.get, zeros]
    exact Vector.getElem_replicate register.isLt
  obtain ⟨font, drawing⟩ := facts
  obtain ⟨pointed, drawn, points, draws, pixels, _⟩ :=
    drawing Frame.blank Surroundings.quiet.tone 0xF029 0xD005 (by decide) (by decide) (by decide)
      (by decide) (by rw [digit]; decide)
  refine ⟨_, pointed, drawn, rfl, points, draws, ?_⟩
  have lit := (pixels 0 0).mpr
  rw [digit, digit, digit, Frame.pixel_blank] at lit
  have covers : Stroke.Covers ⟨Layout.glyph 0, 0, 0⟩ 0 0 := ⟨0, 0, 0xF0, by decide⟩
  exact Bool.of_not_eq_false (lit covers)

end Machine

end Chip8Machine
