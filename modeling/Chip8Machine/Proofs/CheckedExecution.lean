import Chip8Machine.Checked.Execution
import Chip8Machine.Proofs.CheckedDrawing
import Chip8Machine.Proofs.LoopSteps
import Chip8Machine.Proofs.Refusal

/-!
No check of the checked execution ever fails, whatever the machine is and whatever the word.

The masks cut out exactly the fields of a word, so that the register numbers are below sixteen. Each
handler then does what its instruction does, and the sums that are left fit because all their
operands are small, apart from the program counter, which needs room for two words.
-/

set_option autoImplicit false

namespace Chip8Machine

open Checked

/-! ### The fields of a word -/

namespace Word

variable (word : Word)

/-- A mask that covers so many bits from a position on cuts out a remainder of a quotient. -/
theorem shiftRight_and_mask (value mask position width : Nat)
    (shape : mask >>> position = Nat.pow 2 width - 1) :
    (value &&& mask) >>> position = value / Nat.pow 2 position % Nat.pow 2 width := by
  rw [Nat.shiftRight_and_distrib, shape, Nat.shiftRight_eq_div_pow]
  exact Nat.and_two_pow_sub_one_eq_mod _ width

theorem rawLead_eq : word.rawLead = word.lead.val := by
  unfold rawLead
  rw [UInt16.toNat_shiftRight, UInt16.toNat_and]
  exact shiftRight_and_mask word.toNat 0xF000 12 4 rfl

theorem rawX_eq : word.rawX = word.x.val := by
  unfold rawX
  rw [UInt16.toNat_shiftRight, UInt16.toNat_and, UInt16.toNat_and, Nat.and_assoc]
  exact shiftRight_and_mask word.toNat (0x0FFF &&& 0xFF00) 8 4 rfl

theorem rawY_eq : word.rawY = word.y.val := by
  unfold rawY
  rw [UInt16.toNat_shiftRight, UInt16.toNat_and]
  exact shiftRight_and_mask word.toNat 0x00F0 4 4 rfl

theorem rawN_eq : word.rawN = word.n.val := by
  unfold rawN
  rw [UInt16.toNat_and]
  exact Nat.and_two_pow_sub_one_eq_mod word.toNat 4

theorem rawKK_eq : word.rawKK = word.kk := by
  apply UInt8.toNat_inj.mp
  unfold rawKK
  rw [UInt16.toNat_toUInt8, UInt16.toNat_and, toNat_kk]
  have cut : word.toNat &&& 0x00FF = word.toNat % 256 := Nat.and_two_pow_sub_one_eq_mod word.toNat 8
  exact (congrArg (· % 256) cut).trans (Nat.mod_mod _ _)

theorem rawNNN_eq : word.rawNNN = word.nnn.toNat := by
  unfold rawNNN
  rw [UInt16.toNat_and, toNat_nnn]
  exact Nat.and_two_pow_sub_one_eq_mod word.toNat 12

end Word

/-! ### Registers and arithmetic -/

theorem Registers.setFlagAt_eq (registers : Registers) (condition : Bool) :
    registers.setFlagAt condition = .ok (registers.setFlag condition) :=
  registers.setAt_val Register.flag _

theorem top_bit (value : UInt8) : (value &&& 128) >>> 7 = 1 ↔ value &&& 128 = 128 := by
  revert value
  exact forall_byte (by decide +kernel)

theorem operate_eq (choice : Fin 16) (a b : UInt8) :
    operate choice.val a b = .ok ((Arithmetic.ofNibble? choice).map fun operation =>
      (operation.result a b, operation.flag? a b)) := by
  obtain ⟨number, bound⟩ := choice
  match number, bound with
  | 0x0, _ | 0x1, _ | 0x2, _ | 0x3, _ | 0x4, _ | 0x5, _ | 0x6, _ | 0x7, _ => rfl
  | 0x8, _ | 0x9, _ | 0xA, _ | 0xB, _ | 0xC, _ | 0xD, _ | 0xF, _ => rfl
  | 0xE, _ =>
      have top : decide ((a &&& 128) >>> 7 = 1) = decide (a &&& 128 = 128) :=
        decide_eq_decide.mpr (top_bit a)
      change Except.ok (some (a <<< 1, some (decide ((a &&& 128) >>> 7 = 1)))) = _
      rw [top]
      rfl
  | number + 16, bound => exact absurd bound (by omega)

theorem addWord_register (last : Register) :
    addWord (UInt16.ofNat last.val) 1 = .ok (UInt16.ofNat (last.val + 1)) := by
  have bound : last.val < 16 := last.isLt
  have small : (UInt16.ofNat last.val).toNat + (1 : UInt16).toNat < UInt16.size := by
    rw [UInt16.toNat_ofNat', UInt16.toNat_one]
    change last.val % 65536 + 1 < 65536
    omega
  rw [addWord_of_lt small, UInt16.ofNat_add]
  rfl

/-! ### Handlers -/

def reported (result : Machine × Except Fault Demand) : Machine × Except Fault Request :=
  (result.1, result.2.map Demand.request)

theorem register_of_reported {result : Machine × Except Fault Demand} {number : Nat}
    (awaits : (reported result).2 = .ok (.awaitKey number)) :
    ∃ register : Register, register.val = number := by
  rcases result with ⟨after, fault | demand⟩
  · cases awaits
  · exact Demand.register_of_request (Except.ok.inj awaits)

theorem error_of_reported {result : Machine × Except Fault Demand} {fault : Fault}
    (refused : (reported result).2 = .error fault) : result.2 = .error fault := by
  rcases result with ⟨after, found | demand⟩
  · cases refused
    rfl
  · cases refused

namespace Machine

/-- A handler does what an instruction does, once the program counter is moved. -/
def Settles (handled : Handled) (result : Machine × Except Fault Demand) : Prop :=
  handled >>= settleMove = .ok (reported result)

theorem settles_proceed (machine : Machine) (room : machine.registers.counter + 4 < UInt64.size)
    (move : Advance) (demand : Demand) :
    Settles (machine.proceed move demand.request) (machine.succeed move demand) := by
  unfold Settles proceed
  rw [ok_bind]
  simp only [settleMove, Advance.applyChecked_of_lt room, ok_bind]
  rfl

theorem settles_refuse (machine : Machine) (fault : Fault) :
    Settles (machine.refuse fault) (machine.fail fault) := rfl

theorem settles_update (machine : Machine) {registers : Registers}
    (room : registers.counter + 4 < UInt64.size) :
    Settles ((machine.withRegisters registers).proceed .next .nothing) (machine.update registers) :=
  settles_proceed (machine.withRegisters registers) room .next .nothing

theorem settles_assignAt (machine : Machine) (room : machine.registers.counter + 4 < UInt64.size)
    (register : Register) (value : UInt8) :
    Settles (machine.assignAt register.val value)
      (machine.update (machine.registers.set register value)) := by
  unfold assignAt
  rw [Registers.setAt_val, ok_bind]
  exact settles_update machine room

theorem settles_assignIndex (machine : Machine) (room : machine.registers.counter + 4 < UInt64.size)
    (index : UInt16) :
    Settles (machine.assignIndex index)
      (machine.update { machine.registers with index := index }) :=
  settles_update machine room

section

variable {machine : Machine} (room : machine.registers.counter + 4 < UInt64.size)
  (listener : ToneListener)
include room

theorem settles_system (word : Word) :
    Settles (machine.handleSystem word)
      (machine.execute listener (Instruction.ofSystemWord word)) := by
  unfold handleSystem
  split
  case h_1 isClear =>
    simp only [Instruction.ofSystemWord, isClear]
    exact settles_proceed { machine with frame := Frame.blank } room .next .draw
  case h_2 isRet =>
    simp only [Instruction.ofSystemWord, isRet, execute]
    cases machine.stack.pop with
    | ok popped =>
        exact settles_proceed { machine with stack := popped.2 } room (.jump popped.1.toNat)
          .nothing
    | error cause => exact settles_refuse machine (.stack cause)
  case h_3 noClear noRet =>
    simp only [Instruction.ofSystemWord]
    exact settles_proceed machine room .next .nothing

theorem settles_call (target : Address) :
    Settles (machine.handleCall target.toNat) (machine.execute listener (.call target)) := by
  have fits : machine.registers.counter + 2 < UInt64.size := Nat.lt_trans (by omega) room
  simp only [handleCall, execute, Layout.wordSize, addSize_of_lt fits, ok_bind]
  cases machine.stack.push (UInt16.ofNat (machine.registers.counter + 2)) with
  | ok stack =>
      exact settles_proceed { machine with stack := stack } room (.jump target.toNat) .nothing
  | error cause => exact settles_refuse machine (.stack cause)

theorem settles_byteSkip (register : Register) (value : UInt8) (answer : Bool) :
    Settles (machine.handleByteSkip register.val value answer)
      (machine.execute listener (.skip (.equalsByte register value) answer)) := by
  simp only [handleByteSkip, Registers.getAt_val, ok_bind]
  exact settles_proceed machine room _ .nothing

theorem settles_registerSkip (word : Word) (answer : Bool) :
    Settles (machine.handleRegisterSkip word.x.val word.y.val word.n.val answer)
      (machine.execute listener
        (if word.n = 0 then .skip (.equalsRegister word.x word.y) answer else .ignored word)) := by
  unfold handleRegisterSkip
  split
  · next zero =>
      rw [if_pos (Fin.ext zero)]
      simp only [Registers.getAt_val, ok_bind]
      exact settles_proceed machine room _ .nothing
  · next others =>
      rw [if_neg fun zero => others (congrArg Fin.val zero)]
      exact settles_proceed machine room .next .nothing

theorem settles_sum (register : Register) (value : UInt8) :
    Settles (machine.handleSum register.val value)
      (machine.execute listener (.addByte register value)) := by
  simp only [handleSum, Registers.getAt_val, ok_bind]
  exact settles_assignAt machine room register _

theorem settles_offsetJump (base : Address) :
    Settles (machine.handleOffsetJump base.toNat)
      (machine.execute listener (.jumpOffset base)) := by
  have low := (machine.registers.get 0).toNat_lt
  have high : base.toNat < 2 ^ 12 := base.isLt
  have fits : (machine.registers.get 0).toNat + base.toNat < UInt64.size :=
    Nat.lt_trans (by omega : _ < 2 ^ 13) (by decide)
  have first : machine.registers.getAt 0 = .ok (machine.registers.get 0) := Registers.getAt_val _ 0
  simp only [handleOffsetJump, first, ok_bind, addSize_of_lt fits]
  exact settles_proceed machine room (.jump _) .nothing

theorem settles_random (register : Register) (mask : UInt8) :
    Settles (machine.handleRandom register.val mask)
      (machine.execute listener (.random register mask)) :=
  settles_assignAt { machine with random := machine.random.next.2 } room register _

theorem settles_draw (column row : Register) (rows : Fin 16) :
    Settles (machine.handleDraw column.val row.val rows.val)
      (machine.execute listener (.draw column row rows)) := by
  simp only [handleDraw, Registers.getAt_val, Memory.readAt_eq, ok_bind, execute]
  cases read : machine.memory.read machine.registers.index.toNat rows.val with
  | error cause => exact settles_refuse machine (.memory cause)
  | ok sprite =>
      have low : sprite.length ≤ 32 := by
        rw [Memory.length_of_read read]
        omega
      simp only [Drawing.bytes_eq _ _ _ _ low, ok_bind, Registers.setFlagAt_eq]
      refine settles_proceed _ ?_ .next .draw
      exact room

theorem settles_keyWord (word : Word) :
    Settles (machine.handleKeySkip word.x.val word.kk)
      (machine.execute listener (Instruction.ofKeyWord word)) := by
  simp only [handleKeySkip, Registers.getAt_val, ok_bind]
  split
  case h_1 low =>
    simp only [Instruction.ofKeyWord, low, execute, holds, beq_true]
    exact settles_proceed machine room _ .nothing
  case h_2 low =>
    simp only [Instruction.ofKeyWord, low, execute, holds, beq_false]
    exact settles_proceed machine room _ .nothing
  case h_3 notDown notUp =>
    simp only [Instruction.ofKeyWord]
    exact settles_proceed machine room .next .nothing

theorem settles_setDelay (register : Register) :
    Settles (machine.handleSetDelay register.val)
      (machine.execute listener (.setDelay register)) := by
  simp only [handleSetDelay, Registers.getAt_val, ok_bind]
  refine settles_proceed _ ?_ .next .nothing
  exact room

theorem settles_setSound (register : Register) :
    Settles (machine.handleSetSound listener register.val)
      (machine.execute listener (.setSound register)) := by
  simp only [handleSetSound, Registers.getAt_val, ok_bind]
  refine settles_proceed _ ?_ .next .nothing
  exact room

theorem settles_addIndex (register : Register) :
    Settles (machine.handleAddIndex register.val)
      (machine.execute listener (.addIndex register)) := by
  simp only [handleAddIndex, Registers.getAt_val, ok_bind]
  exact settles_assignIndex machine room _

theorem settles_glyph (register : Register) :
    Settles (machine.handleGlyph register.val)
      (machine.execute listener (.pointGlyph register)) := by
  have bound := (machine.registers.get register).toNat_lt
  have small : 5 * (machine.registers.get register).toNat < UInt64.size :=
    Nat.lt_trans (by omega : _ < 2000) (by decide)
  have near : 0 + 5 * (machine.registers.get register).toNat < UInt64.size :=
    Nat.lt_trans (by omega : _ < 2000) (by decide)
  simp only [handleGlyph, Layout.glyphSize, Layout.fontStart, Registers.getAt_val,
    mulSize_of_lt small, addSize_of_lt near, ok_bind]
  exact settles_assignIndex machine room _

theorem settles_decimal (register : Register) :
    Settles (machine.handleDecimal register.val)
      (machine.execute listener (.storeDecimal register)) := by
  simp only [handleDecimal, Registers.getAt_val, Memory.writeAt_eq, ok_bind, execute]
  cases machine.memory.write machine.registers.index.toNat
      (decimalDigits (machine.registers.get register)) with
  | ok memory => exact settles_proceed { machine with memory := memory } room .next .nothing
  | error cause => exact settles_refuse machine (.memory cause)

theorem settles_store (last : Register) :
    Settles (machine.handleStore last.val) (machine.execute listener (.storeThrough last)) := by
  simp only [handleStore, Registers.throughAt_val, Memory.writeAt_eq, ok_bind, execute]
  cases machine.memory.write machine.registers.index.toNat (machine.registers.through last) with
  | ok memory =>
      simp only [addWord_register, ok_bind]
      exact settles_assignIndex { machine with memory := memory } room _
  | error cause => exact settles_refuse machine (.memory cause)

theorem settles_load (last : Register) :
    Settles (machine.handleLoad last.val) (machine.execute listener (.loadThrough last)) := by
  simp only [handleLoad, Registers.addSize_register, Memory.readAt_eq, ok_bind, execute]
  cases read : machine.memory.read machine.registers.index.toNat (last.val + 1) with
  | error cause => exact settles_refuse machine (.memory cause)
  | ok values =>
      simp only [Registers.fillAt_val _ _ (Memory.length_of_read read), addWord_register, ok_bind]
      refine settles_update machine ?_
      rw [Registers.counter_fill]
      exact room

theorem settles_arithmetic (word : Word) :
    Settles (machine.handleArithmetic word.x.val word.y.val word.n.val)
      (machine.execute listener
        (match Arithmetic.ofNibble? word.n with
        | some operation => .arithmetic operation word.x word.y
        | none => .ignored word)) := by
  simp only [handleArithmetic, Registers.getAt_val, ok_bind, operate_eq]
  cases Arithmetic.ofNibble? word.n with
  | none => exact settles_proceed machine room .next .nothing
  | some operation =>
      simp only [Option.map_some, execute, Registers.calculate]
      cases operation.flag? (machine.registers.get word.x) (machine.registers.get word.y) with
      | none => exact settles_assignAt machine room word.x _
      | some flag =>
          simp only [Registers.setAt_val, Registers.setFlagAt_eq, ok_bind]
          exact settles_update machine room

theorem settles_deviceWord (word : Word) :
    Settles (machine.handleDevice listener word.x.val word.kk)
      (machine.execute listener (Instruction.ofDeviceWord word)) := by
  unfold handleDevice
  split
  case h_10 =>
    simp only [Instruction.ofDeviceWord]
    exact settles_proceed machine room .next .nothing
  all_goals
    rename_i low
    simp only [Instruction.ofDeviceWord, low]
  · exact settles_assignAt machine room word.x machine.timers.delay
  · exact settles_proceed machine room .next (.awaitKey word.x)
  · exact settles_setDelay room listener word.x
  · exact settles_setSound room listener word.x
  · exact settles_addIndex room listener word.x
  · exact settles_glyph room listener word.x
  · exact settles_decimal room listener word.x
  · exact settles_store room listener word.x
  · exact settles_load room listener word.x

/-- The handler of a group does what the instruction of the word does. -/
theorem settles_word (word : Word) :
    Settles (machine.handleWord listener word) (machine.perform listener word) := by
  unfold perform Instruction.decode handleWord
  rw [word.rawLead_eq, word.rawX_eq, word.rawY_eq, word.rawN_eq, word.rawKK_eq, word.rawNNN_eq]
  have bound := word.lead.isLt
  generalize word.lead.val = group at bound ⊢
  match group, bound with
  | 0x0, _ => exact settles_system room listener word
  | 0x1, _ => exact settles_proceed machine room (.jump word.nnn.toNat) .nothing
  | 0x2, _ => exact settles_call room listener word.nnn
  | 0x3, _ => exact settles_byteSkip room listener word.x word.kk true
  | 0x4, _ => exact settles_byteSkip room listener word.x word.kk false
  | 0x5, _ => exact settles_registerSkip room listener word true
  | 0x6, _ => exact settles_assignAt machine room word.x word.kk
  | 0x7, _ => exact settles_sum room listener word.x word.kk
  | 0x8, _ => exact settles_arithmetic room listener word
  | 0x9, _ => exact settles_registerSkip room listener word false
  | 0xA, _ => exact settles_assignIndex machine room _
  | 0xB, _ => exact settles_offsetJump room listener word.nnn
  | 0xC, _ => exact settles_random room listener word.x word.kk
  | 0xD, _ => exact settles_draw room listener word.x word.y word.n
  | 0xE, _ => exact settles_keyWord room listener word
  | 0xF, _ => exact settles_deviceWord room listener word
  | group + 16, bound => exact absurd bound (by omega)

/-! ### Cycles -/

theorem performChecked_eq (word : Word) :
    machine.performChecked listener word = .ok (reported (machine.perform listener word)) :=
  settles_word room listener word

theorem nextChecked_eq (surroundings : Surroundings) :
    machine.nextChecked surroundings =
      .ok ((machine.next surroundings).1, (machine.next surroundings).2.report) := by
  have near : machine.registers.counter + 1 < UInt64.size := Nat.lt_trans (by omega) room
  simp only [nextChecked, next, Memory.fetchAt_eq machine.memory near, ok_bind]
  cases machine.memory.fetch machine.registers.counter with
  | error cause => rfl
  | ok word =>
      simp only [performChecked_eq room, ok_bind]
      rcases machine.perform surroundings.tone word with ⟨after, fault | demand⟩
      · rfl
      · cases demand with
        | nothing => rfl
        | awaitKey register => rfl
        | draw =>
            simp only [reported, Except.map, Demand.request]
            rcases after.present surroundings with ⟨shown, none | text⟩
            · rfl
            · rfl

end

/-- No word belongs to a group that does not exist. -/
theorem perform_ne_wordFault (listener : ToneListener) (machine : Machine) (word : Word)
    (cause : WordFault) :
    (machine.perform listener word).2 ≠ .error (.word cause) := by
  intro refused
  have refuses := (machine.refuses_iff word _).mpr ((execute_eq_error_iff _ _ _ _).mp refused)
  cases refuses

theorem next_ne_unsupported (machine : Machine) (surroundings : Surroundings) (word : Word) :
    (machine.next surroundings).2 ≠ .fault (.word (.unsupported word)) := by
  intro failed
  rcases cycleRefuses_of_next failed with ⟨_, truncated⟩ | ⟨found, _, refuses⟩
  · cases truncated
  · cases refuses

theorem receiveChecked_val (machine : Machine) (register : Register) (key : Key) :
    machine.receiveChecked register.val key = .ok (machine.receive register key) := by
  simp only [receiveChecked, Registers.setAt_val, ok_bind]
  rfl

/-- No check of an instruction or of a cycle fails, as long as the program counter has room for two
words.

The checked evaluation comes to the same machine and the same outcome. An exception is the display's
own. The numbers in a word are small enough, so that no word is refused for its group; and if a key
is awaited, the number of the register can take it, on whatever machine. -/
theorem never_traps (machine : Machine) (room : machine.registers.counter + 4 < UInt64.size)
    (surroundings : Surroundings) (word : Word) :
    let performed := machine.performChecked surroundings.tone word
    let cycled := machine.nextChecked surroundings
    performed = .ok (reported (machine.perform surroundings.tone word)) ∧
    cycled = .ok ((machine.next surroundings).1, (machine.next surroundings).2.report) ∧
    (∀ after text, cycled = .ok (after, .raised text) → ¬ surroundings.Steady) ∧
    (word.rawLead ≤ 0xF ∧ word.rawX < Layout.registerCount ∧ word.rawY < Layout.registerCount) ∧
    (∀ after cause, performed ≠ .ok (after, .error (.word cause))) ∧
    (∀ after found, cycled ≠ .ok (after, .fault (.word (.unsupported found)))) ∧
    (∀ after number,
      performed = .ok (after, .ok (.awaitKey number)) ∨
        cycled = .ok (after, .done (.awaitKey number)) →
      ∃ below : number < Layout.registerCount, ∀ (later : Machine) (key : Key),
        later.receiveChecked number key = .ok (later.receive ⟨number, below⟩ key)) := by
  intro performed cycled
  have performs : performed = .ok (reported (machine.perform surroundings.tone word)) :=
    performChecked_eq room surroundings.tone word
  have cycles :
      cycled = .ok ((machine.next surroundings).1, (machine.next surroundings).2.report) :=
    nextChecked_eq room surroundings
  have settled : ∀ after result, performed = .ok (after, result) →
      (reported (machine.perform surroundings.tone word)).2 = result := by
    intro after result found
    exact congrArg Prod.snd (Except.ok.inj (performs.symm.trans found))
  have ended : ∀ after report, cycled = .ok (after, report) →
      (machine.next surroundings).2.report = report := by
    intro after report found
    exact congrArg Prod.snd (Except.ok.inj (cycles.symm.trans found))
  refine ⟨performs, cycles, ?_, ⟨?_, ?_, ?_⟩, ?_, ?_, ?_⟩
  · intro after text raised
    have raises := Outcome.raised_of_report (ended after _ raised)
    exact not_steady_of_next (Prod.ext rfl raises)
  · rw [word.rawLead_eq]
    exact Nat.le_of_lt_succ word.lead.isLt
  · rw [word.rawX_eq]
    exact word.x.isLt
  · rw [word.rawY_eq]
    exact word.y.isLt
  · intro after cause refused
    exact perform_ne_wordFault surroundings.tone machine word cause
      (error_of_reported (settled after _ refused))
  · intro after found refused
    exact next_ne_unsupported machine surroundings found
      (Outcome.fault_of_report (ended after _ refused))
  · intro after number awaits
    have named : ∃ register : Register, register.val = number := by
      rcases awaits with performing | cycling
      · exact register_of_reported (settled after _ performing)
      · exact Outcome.register_of_report (ended after _ cycling)
    obtain ⟨register, rfl⟩ := named
    exact ⟨register.isLt, fun later key => receiveChecked_val later register key⟩

/-- `F50A` with the program counter as far up as it can be: the key would go to `V5`. -/
theorem never_traps_before_key :
    let machine : Machine := { registers := { counter := UInt64.size - 5 } }
    machine.registers.counter + 4 < UInt64.size ∧
      machine.performChecked Surroundings.quiet.tone 0xF50A =
        .ok (machine.advance .next, .ok (.awaitKey 5)) ∧
      ∀ (later : Machine) (key : Key), later.receiveChecked 5 key = .ok (later.receive 5 key) := by
  intro machine
  have room : machine.registers.counter + 4 < UInt64.size := by decide
  have awaits : machine.performChecked Surroundings.quiet.tone 0xF50A =
      .ok (machine.advance .next, .ok (.awaitKey 5)) := (never_traps machine room .quiet 0xF50A).1
  obtain ⟨_, receives⟩ := (never_traps machine room .quiet 0xF50A).2.2.2.2.2.2 _ 5 (.inl awaits)
  exact ⟨room, awaits, receives⟩

/-- The room is needed: further up, a skip that is taken does not fit. -/
theorem performChecked_of_full {machine : Machine}
    (full : UInt64.size ≤ machine.registers.counter + 4) (listener : ToneListener) {word : Word}
    (isSkip : word.lead = 0x3) (taken : machine.registers.get word.x = word.kk) :
    machine.performChecked listener word =
      .error (.overflow (machine.registers.counter + 4) UInt64.size) := by
  have overflow : Advance.skip.applyChecked machine.registers.counter =
      .error (.overflow (machine.registers.counter + 4) UInt64.size) :=
    if_neg (Nat.not_lt_of_le full)
  have skips : machine.handleWord listener word = machine.proceed .skip .nothing := by
    unfold handleWord
    rw [word.rawLead_eq, word.rawX_eq, word.rawKK_eq, isSkip]
    change machine.handleByteSkip word.x.val word.kk true = _
    simp only [handleByteSkip, Registers.getAt_val, ok_bind, taken, beq_self_eq_true]
    rfl
  simp only [performChecked, skips, proceed, ok_bind, settleMove, overflow]
  rfl

end Machine

end Chip8Machine
