import Chip8Machine.Instruction

/-!
Which words encode an instruction.

`Instruction.Encodes` tells it line by line, on the nibbles of the word. A word encodes exactly one
instruction, the one that it decodes to.
-/

set_option autoImplicit false

namespace Chip8Machine

/-- No line of the table of instructions describes the word. -/
def Word.Unlisted (word : Word) : Prop :=
  word.lead = 0x0 ∧ word.toNat ≠ 0x00E0 ∧ word.toNat ≠ 0x00EE ∨
  (word.lead = 0x5 ∨ word.lead = 0x9) ∧ word.n ≠ 0 ∨
  word.lead = 0x8 ∧ 0x8 ≤ word.n.val ∧ word.n ≠ 0xE ∨
  word.lead = 0xE ∧ word.kk.toNat ≠ 0x9E ∧ word.kk.toNat ≠ 0xA1 ∨
  word.lead = 0xF ∧
    word.kk.toNat ∉ [0x07, 0x0A, 0x15, 0x18, 0x1E, 0x29, 0x33, 0x55, 0x65]

theorem Arithmetic.ofNibble?_eq_none_iff (choice : Fin 16) :
    ofNibble? choice = none ↔ 0x8 ≤ choice.val ∧ choice ≠ 0xE := by
  revert choice
  decide

namespace Instruction

def Encodes (word : Word) : Instruction → Prop
  | .clearScreen => word.toNat = 0x00E0
  | .ret => word.toNat = 0x00EE
  | .jump target => word.lead = 0x1 ∧ target = word.nnn
  | .call target => word.lead = 0x2 ∧ target = word.nnn
  | .skip (.equalsByte register value) answer =>
      word.lead = (if answer then 0x3 else 0x4) ∧ register = word.x ∧ value = word.kk
  | .skip (.equalsRegister register other) answer =>
      word.lead = (if answer then 0x5 else 0x9) ∧ word.n = 0 ∧
        register = word.x ∧ other = word.y
  | .skip (.keyDown register) answer =>
      word.lead = 0xE ∧ word.kk.toNat = (if answer then 0x9E else 0xA1) ∧ register = word.x
  | .loadByte register value => word.lead = 0x6 ∧ register = word.x ∧ value = word.kk
  | .addByte register value => word.lead = 0x7 ∧ register = word.x ∧ value = word.kk
  | .arithmetic operation register other =>
      word.lead = 0x8 ∧ Arithmetic.ofNibble? word.n = some operation ∧
        register = word.x ∧ other = word.y
  | .setIndex target => word.lead = 0xA ∧ target = word.nnn
  | .jumpOffset base => word.lead = 0xB ∧ base = word.nnn
  | .random register mask => word.lead = 0xC ∧ register = word.x ∧ mask = word.kk
  | .draw column row rows =>
      word.lead = 0xD ∧ column = word.x ∧ row = word.y ∧ rows = word.n
  | .readDelay register => word.lead = 0xF ∧ word.kk.toNat = 0x07 ∧ register = word.x
  | .awaitKey register => word.lead = 0xF ∧ word.kk.toNat = 0x0A ∧ register = word.x
  | .setDelay register => word.lead = 0xF ∧ word.kk.toNat = 0x15 ∧ register = word.x
  | .setSound register => word.lead = 0xF ∧ word.kk.toNat = 0x18 ∧ register = word.x
  | .addIndex register => word.lead = 0xF ∧ word.kk.toNat = 0x1E ∧ register = word.x
  | .pointGlyph register => word.lead = 0xF ∧ word.kk.toNat = 0x29 ∧ register = word.x
  | .storeDecimal register => word.lead = 0xF ∧ word.kk.toNat = 0x33 ∧ register = word.x
  | .storeThrough last => word.lead = 0xF ∧ word.kk.toNat = 0x55 ∧ last = word.x
  | .loadThrough last => word.lead = 0xF ∧ word.kk.toNat = 0x65 ∧ last = word.x
  | .ignored found => found = word ∧ word.Unlisted

/-! ### The instruction of a word is one that it encodes -/

private theorem encodes_ofSystemWord {word : Word} (isZero : word.lead = 0x0) :
    Encodes word (ofSystemWord word) := by
  unfold ofSystemWord
  split
  case h_1 isClear => exact isClear
  case h_2 isRet => exact isRet
  case h_3 noClear noRet => exact ⟨rfl, Or.inl ⟨isZero, noClear, noRet⟩⟩

private theorem encodes_ofKeyWord {word : Word} (isE : word.lead = 0xE) :
    Encodes word (ofKeyWord word) := by
  unfold ofKeyWord
  split
  case h_1 low => exact ⟨isE, low, rfl⟩
  case h_2 low => exact ⟨isE, low, rfl⟩
  case h_3 notDown notUp => exact ⟨rfl, Or.inr (Or.inr (Or.inr (Or.inl ⟨isE, notDown, notUp⟩)))⟩

private theorem encodes_ofDeviceWord {word : Word} (isF : word.lead = 0xF) :
    Encodes word (ofDeviceWord word) := by
  unfold ofDeviceWord
  split
  case h_10 =>
    refine ⟨rfl, Or.inr (Or.inr (Or.inr (Or.inr ⟨isF, ?_⟩)))⟩
    simp only [List.mem_cons, List.not_mem_nil, or_false, not_or]
    grind
  all_goals
    rename_i low
    exact ⟨isF, low, rfl⟩

theorem encodes_decode (word : Word) : Encodes word (decode word) := by
  unfold decode
  split
  case h_1 group => exact encodes_ofSystemWord (Fin.ext group)
  case h_15 group => exact encodes_ofKeyWord (Fin.ext group)
  case h_16 =>
    have bound := word.lead.isLt
    have isF : word.lead.val = 0xF := by grind
    exact encodes_ofDeviceWord (Fin.ext isF)
  -- The groups `5`, `8` and `9` have words that encode nothing.
  case h_6 group =>
    split
    case isTrue low => exact ⟨Fin.ext group, low, rfl, rfl⟩
    case isFalse low => exact ⟨rfl, Or.inr (Or.inl ⟨Or.inl (Fin.ext group), low⟩)⟩
  case h_10 group =>
    split
    case isTrue low => exact ⟨Fin.ext group, low, rfl, rfl⟩
    case isFalse low => exact ⟨rfl, Or.inr (Or.inl ⟨Or.inr (Fin.ext group), low⟩)⟩
  case h_9 group =>
    split
    case h_1 operation low => exact ⟨Fin.ext group, low, rfl, rfl⟩
    case h_2 low =>
      have outside := (Arithmetic.ofNibble?_eq_none_iff _).mp low
      exact ⟨rfl, Or.inr (Or.inr (Or.inl ⟨Fin.ext group, outside⟩))⟩
  case h_2 group | h_3 group | h_11 group | h_12 group => exact ⟨Fin.ext group, rfl⟩
  case h_4 group | h_5 group | h_7 group | h_8 group | h_13 group =>
    exact ⟨Fin.ext group, rfl, rfl⟩
  case h_14 group => exact ⟨Fin.ext group, rfl, rfl, rfl⟩

/-! ### The single groups -/

theorem decode_of_system (word : Word) (isZero : word.lead = 0x0) :
    decode word = ofSystemWord word := by
  unfold decode
  rw [isZero]
  rfl

theorem decode_of_arithmetic (word : Word) (isEight : word.lead = 0x8) :
    decode word = (match Arithmetic.ofNibble? word.n with
      | some operation => .arithmetic operation word.x word.y
      | none => .ignored word) := by
  unfold decode
  rw [isEight]
  rfl

theorem decode_of_key (word : Word) (isE : word.lead = 0xE) : decode word = ofKeyWord word := by
  unfold decode
  rw [isE]
  rfl

theorem decode_of_device (word : Word) (isF : word.lead = 0xF) :
    decode word = ofDeviceWord word := by
  unfold decode
  rw [isF]
  rfl

theorem decode_of_unlisted {word : Word} (unlisted : word.Unlisted) :
    decode word = .ignored word := by
  rcases unlisted with
    ⟨group, noClear, noRet⟩ | ⟨group | group, low⟩ | ⟨group, low⟩ | ⟨group, notDown, notUp⟩ |
      ⟨group, low⟩
  · rw [decode_of_system word group]
    simp only [ofSystemWord]
  · unfold decode
    rw [group]
    exact if_neg low
  · unfold decode
    rw [group]
    exact if_neg low
  · rw [decode_of_arithmetic word group]
    simp only [(Arithmetic.ofNibble?_eq_none_iff word.n).mpr low]
  · rw [decode_of_key word group]
    simp only [ofKeyWord]
  · simp only [List.mem_cons, List.not_mem_nil, or_false, not_or] at low
    rw [decode_of_device word group]
    unfold ofDeviceWord
    grind

theorem decode_of_encodes {word : Word} {instruction : Instruction}
    (encodes : Encodes word instruction) : decode word = instruction := by
  cases instruction with
  | clearScreen | ret =>
      have whole := encodes
      unfold Encodes at whole
      have group : word.lead = 0x0 := by
        apply Fin.ext
        rw [Word.val_lead, whole]
        rfl
      rw [decode_of_system word group]
      simp only [ofSystemWord, whole]
  | skip test answer =>
      cases test with
      | equalsByte register value =>
          obtain ⟨group, rfl, rfl⟩ := encodes
          unfold decode
          cases answer <;>
          · rw [group]
            rfl
      | equalsRegister register other =>
          obtain ⟨group, low, rfl, rfl⟩ := encodes
          unfold decode
          cases answer <;>
          · rw [group]
            exact if_pos low
      | keyDown register =>
          obtain ⟨group, low, rfl⟩ := encodes
          rw [decode_of_key word group]
          cases answer with
          | true =>
              have isDown : word.kk.toNat = 0x9E := low
              simp only [ofKeyWord, isDown]
          | false =>
              have isUp : word.kk.toNat = 0xA1 := low
              simp only [ofKeyWord, isUp]
  | arithmetic operation register other =>
      obtain ⟨group, low, rfl, rfl⟩ := encodes
      rw [decode_of_arithmetic word group]
      simp only [low]
  | ignored found =>
      obtain ⟨rfl, unlisted⟩ := encodes
      exact decode_of_unlisted unlisted
  | jump | call | setIndex | jumpOffset =>
      obtain ⟨group, rfl⟩ := encodes
      unfold decode
      rw [group]
      rfl
  | loadByte | addByte | random =>
      obtain ⟨group, rfl, rfl⟩ := encodes
      unfold decode
      rw [group]
      rfl
  | draw column row rows =>
      obtain ⟨group, rfl, rfl, rfl⟩ := encodes
      unfold decode
      rw [group]
      rfl
  | _ =>
      -- What is left has the highest nibble `F` and is chosen by the low byte.
      obtain ⟨group, low, rfl⟩ := encodes
      rw [decode_of_device word group]
      simp only [ofDeviceWord, low]

/-- A word decodes to an instruction exactly if it encodes it. -/
theorem decode_eq_iff (word : Word) (instruction : Instruction) :
    decode word = instruction ↔ Encodes word instruction := by
  constructor
  · rintro rfl
    exact encodes_decode word
  · exact decode_of_encodes

end Instruction

end Chip8Machine
