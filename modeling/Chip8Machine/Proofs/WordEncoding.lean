import Chip8Machine.Proofs.CheckedExecution
import Chip8Machine.Proofs.ProgramLoading

/-!
Words, their bytes and their fields.

A list of words is stored as the bytes of its words, one word behind the other. A word is read back
at the place of its first byte, which is twice its index, whatever stands behind the last word. Its
fields, and the numbers that the masks cut out, put together in any of the three ways give the word
again.
-/

set_option autoImplicit false

namespace Chip8Machine

namespace Word

def bytesOf (words : List Word) : List UInt8 := words.flatMap toBytes

/-- The fields cover the word without a gap or an overlap: as four nibbles, as two nibbles and a
byte, and as a nibble and an address. -/
structure MadeOf (word : Word) (lead x y n kk nnn : Nat) : Prop where
  small : lead < 16 ∧ x < 16 ∧ y < 16 ∧ n < 16
  nibbles : 4096 * lead + 256 * x + 16 * y + n = word.toNat
  byte : 4096 * lead + 256 * x + kk = word.toNat
  address : 4096 * lead + nnn = word.toNat

/-! ### Fields -/

theorem madeOf_fields (word : Word) :
    word.MadeOf word.lead.val word.x.val word.y.val word.n.val word.kk.toNat word.nnn.toNat := by
  have bound : word.toNat < 65536 := word.toNat_lt
  constructor
  case small => exact ⟨word.lead.isLt, word.x.isLt, word.y.isLt, word.n.isLt⟩
  case nibbles =>
    rw [val_lead, val_x, val_y, val_n]
    omega
  case byte =>
    rw [val_lead, val_x, toNat_kk]
    omega
  case address =>
    rw [val_lead, toNat_nnn]
    omega

theorem madeOf_masked (word : Word) :
    word.MadeOf word.rawLead word.rawX word.rawY word.rawN word.rawKK.toNat word.rawNNN := by
  rw [rawLead_eq, rawX_eq, rawY_eq, rawN_eq, rawKK_eq, rawNNN_eq]
  exact word.madeOf_fields

/-! ### Bytes -/

theorem readFrom_eq_ok_iff (data : Array UInt8) (pointer : Nat) (word : Word) :
    readFrom data pointer = .ok word ↔
      ∃ high low, data[pointer]? = some high ∧ data[pointer + 1]? = some low ∧
        word = ofBytes high low :=
  read_eq_ok_iff _ data.size pointer word

theorem length_toBytes (word : Word) : word.toBytes.length = 2 := rfl

theorem readFrom_toBytes (word : Word) (further : List UInt8) :
    readFrom (word.toBytes ++ further).toArray 0 = .ok word :=
  (readFrom_eq_ok_iff _ 0 word).mpr ⟨_, _, rfl, rfl, (ofBytes_toBytes word).symm⟩

/-- Bytes in front only move the place of a word. -/
theorem readFrom_behind {data : List UInt8} {pointer : Nat} {word : Word}
    (found : readFrom data.toArray pointer = .ok word) (front : List UInt8) :
    readFrom (front ++ data).toArray (front.length + pointer) = .ok word := by
  obtain ⟨high, low, atPointer, behindPointer, same⟩ := (readFrom_eq_ok_iff _ pointer word).mp found
  have moved : ∀ place, (front ++ data).toArray[front.length + place]? = data.toArray[place]? := by
    intro place
    rw [List.getElem?_toArray, List.getElem?_toArray,
      List.getElem?_append_right (Nat.le_add_right _ _), Nat.add_sub_cancel_left]
  refine (readFrom_eq_ok_iff _ _ word).mpr ⟨high, low, ?_, ?_, same⟩
  · rw [moved]
    exact atPointer
  · rw [Nat.add_assoc, moved]
    exact behindPointer

theorem bytesOf_cons (word : Word) (words : List Word) :
    bytesOf (word :: words) = word.toBytes ++ bytesOf words :=
  List.flatMap_cons

theorem length_bytesOf (words : List Word) : (bytesOf words).length = 2 * words.length := by
  induction words with
  | nil => rfl
  | cons word words ih =>
      rw [bytesOf_cons, List.length_append, length_toBytes, ih, List.length_cons]
      omega

theorem readFrom_bytesOf (words : List Word) (further : List UInt8) (index : Fin words.length) :
    readFrom (bytesOf words ++ further).toArray (2 * index.val) = .ok (words.get index) := by
  induction words with
  | nil => exact index.elim0
  | cons word words ih =>
      rw [bytesOf_cons, List.append_assoc]
      cases index using Fin.cases with
      | zero => exact readFrom_toBytes word (bytesOf words ++ further)
      | succ index =>
          have place : 2 * index.succ.val = word.toBytes.length + 2 * index.val := by
            rw [length_toBytes, Fin.val_succ]
            omega
          rw [place]
          exact readFrom_behind (ih index) word.toBytes

/-- Words survive the encoding in bytes, and their fields lose nothing.

Every word of a list is read back from the bytes of the list at twice its index, and its fields, as
well as the numbers that the masks cut out of it, make it up. Reading fails exactly where the second
byte is not there, and tells the place and the length of the data. -/
theorem words_survive_encoding :
    (∀ (words : List Word) (further : List UInt8) (index : Fin words.length),
      readFrom (bytesOf words ++ further).toArray (2 * index.val) = .ok (words.get index) ∧
      (words.get index).MadeOf
        (words.get index).lead.val (words.get index).x.val (words.get index).y.val
        (words.get index).n.val (words.get index).kk.toNat (words.get index).nnn.toNat ∧
      (words.get index).MadeOf
        (words.get index).rawLead (words.get index).rawX (words.get index).rawY
        (words.get index).rawN (words.get index).rawKK.toNat (words.get index).rawNNN) ∧
    ∀ (data : Array UInt8) (pointer : Nat) (fault : WordFault),
      readFrom data pointer = .error fault ↔
        data.size ≤ pointer + 1 ∧ fault = .truncated pointer data.size := by
  constructor
  · intro words further index
    exact ⟨readFrom_bytesOf words further index, madeOf_fields _, madeOf_masked _⟩
  · exact readFrom_eq_error_iff

/-- At an odd place stand the low byte of a word and the high byte of the next one. -/
example : readFrom (bytesOf [0x00EE, 0x1EDA]).toArray 1 = .ok 0xEE1E := rfl

end Word

/-! ### Programs -/

namespace Memory

theorem fetch_of_loaded {memory loaded : Memory} {program : List UInt8} {offset : Nat} {word : Word}
    (succeeds : memory.load program = .ok loaded)
    (found : Word.readFrom program.toArray offset = .ok word) :
    loaded.fetch (Layout.programStart + offset) = .ok word := by
  obtain ⟨high, low, atOffset, behindOffset, same⟩ :=
    (Word.readFrom_eq_ok_iff _ offset word).mp found
  rw [List.getElem?_toArray] at atOffset behindOffset
  have within : offset + 1 < program.length := (List.getElem?_eq_some_iff.mp behindOffset).1
  refine (loaded.fetch_eq_ok_iff _ word).mpr ⟨high, low, ?_, ?_, same⟩
  · rw [byte?_of_loaded succeeds (Nat.lt_of_succ_lt within)]
    exact atOffset
  · rw [Nat.add_assoc, byte?_of_loaded succeeds within]
    exact behindOffset

/-- A program given as words is fetched word by word from the program start on. -/
theorem exists_load_words (memory : Memory) (words : List Word) (further : List UInt8)
    (fits : 2 * words.length + further.length ≤ Layout.programLimit) :
    ∃ loaded, memory.load (Word.bytesOf words ++ further) = .ok loaded ∧
      ∀ index : Fin words.length,
        loaded.fetch (Layout.programStart + 2 * index.val) = .ok (words.get index) := by
  have short : (Word.bytesOf words ++ further).length ≤ Layout.programLimit := by
    rw [List.length_append, Word.length_bytesOf]
    exact fits
  obtain ⟨loaded, succeeds⟩ := (memory.exists_load_iff _).mpr short
  refine ⟨loaded, succeeds, ?_⟩
  intro index
  exact fetch_of_loaded succeeds (Word.readFrom_bytesOf words further index)

end Memory

end Chip8Machine
