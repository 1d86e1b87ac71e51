import Chip8Machine.Checked.Drawing
import Chip8Machine.Cycle

/-!
Execution with nothing but plain numbers and checked operations.

The fields of a word are cut out by masks, and stay numbers. The groups of instructions have a
handler each; a handler leaves the move of the program counter to `Machine.performChecked`. A word
of a group that does not exist would be refused.
-/

set_option autoImplicit false

namespace Chip8Machine

open Checked

/-! ### The fields of a word -/

namespace Word

def rawLead (word : Word) : Nat := ((word &&& 0xF000) >>> 12).toNat

def rawX (word : Word) : Nat := ((word &&& 0x0FFF &&& 0xFF00) >>> 8).toNat

def rawY (word : Word) : Nat := ((word &&& 0x00F0) >>> 4).toNat

def rawN (word : Word) : Nat := (word &&& 0x000F).toNat

def rawKK (word : Word) : UInt8 := (word &&& 0x00FF).toUInt8

def rawNNN (word : Word) : Nat := (word &&& 0x0FFF).toNat

end Word

inductive Request where
  | nothing
  | draw
  | awaitKey (number : Nat)
  deriving DecidableEq, Repr

def Demand.request : Demand → Request
  | .nothing => .nothing
  | .draw => .draw
  | .awaitKey register => .awaitKey register.val

inductive Report where
  | done (request : Request)
  | fault (fault : Fault)
  | raised (text : String)
  deriving DecidableEq, Repr

def Outcome.report : Outcome → Report
  | .done demand => .done demand.request
  | .fault found => .fault found
  | .raised text => .raised text

theorem Demand.register_of_request {demand : Demand} {number : Nat}
    (awaits : demand.request = .awaitKey number) :
    ∃ register : Register, register.val = number := by
  cases demand with
  | nothing => cases awaits
  | draw => cases awaits
  | awaitKey register =>
      cases awaits
      exact ⟨register, rfl⟩

theorem Outcome.fault_of_report {outcome : Outcome} {fault : Fault}
    (failed : outcome.report = .fault fault) :
    outcome = .fault fault := by
  cases outcome with
  | fault found =>
      cases failed
      rfl
  | _ => cases failed

theorem Outcome.raised_of_report {outcome : Outcome} {text : String}
    (ended : outcome.report = .raised text) :
    outcome = .raised text := by
  cases outcome with
  | raised found =>
      cases ended
      rfl
  | _ => cases ended

theorem Outcome.register_of_report {outcome : Outcome} {number : Nat}
    (awaits : outcome.report = .done (.awaitKey number)) :
    ∃ register : Register, register.val = number := by
  cases outcome with
  | done demand => exact Demand.register_of_request (Report.done.inj awaits)
  | fault fault => cases awaits
  | raised text => cases awaits

def Registers.setFlagAt (registers : Registers) (condition : Bool) : Checked Registers :=
  registers.setAt (Layout.registerCount - 1) (if condition then 1 else 0)

/-- The result of an operation on two registers and what it reports, if the nibble chooses an
operation. -/
def operate (choice : Nat) (a b : UInt8) : Checked (Option (UInt8 × Option Bool)) :=
  match choice with
  | 0x0 => .ok (some (b, none))
  | 0x1 => .ok (some (a ||| b, none))
  | 0x2 => .ok (some (a &&& b, none))
  | 0x3 => .ok (some (a ^^^ b, none))
  | 0x4 => .ok (some (a + b, some (decide (255 < a.toNat + b.toNat))))
  | 0x5 => .ok (some (a - b, some (decide (b < a))))
  | 0x6 => do
      let half ← shiftRight a 1
      .ok (some (half, some (decide (a &&& 1 = 1))))
  | 0x7 => .ok (some (b - a, some (decide (a < b))))
  | 0xE => do
      let double ← shiftLeft a 1
      let top ← shiftRight (a &&& 128) 7
      .ok (some (double, some (decide (top = 1))))
  | _ => .ok none

namespace Machine

/-- What a handler comes to: the machine before the program counter moves, and a fault or how it is
to move. -/
abbrev Handled := Checked (Machine × Except Fault (Advance × Request))

def proceed (machine : Machine) (move : Advance) (request : Request) : Handled :=
  .ok (machine, .ok (move, request))

def refuse (machine : Machine) (fault : Fault) : Handled := .ok (machine, .error fault)

def assignAt (machine : Machine) (number : Nat) (value : UInt8) : Handled := do
  let registers ← machine.registers.setAt number value
  (machine.withRegisters registers).proceed .next .nothing

def assignIndex (machine : Machine) (index : UInt16) : Handled :=
  (machine.withRegisters { machine.registers with index := index }).proceed .next .nothing

def handleSystem (machine : Machine) (word : Word) : Handled :=
  match word.toNat with
  | 0x00E0 => ({ machine with frame := Frame.blank } : Machine).proceed .next .draw
  | 0x00EE =>
      match machine.stack.pop with
      | .ok (address, stack) =>
          ({ machine with stack := stack } : Machine).proceed (.jump address.toNat) .nothing
      | .error cause => machine.refuse (.stack cause)
  | _ => machine.proceed .next .nothing

def handleCall (machine : Machine) (target : Nat) : Handled := do
  let behind ← addSize machine.registers.counter Layout.wordSize
  match machine.stack.push (UInt16.ofNat behind) with
  | .ok stack => ({ machine with stack := stack } : Machine).proceed (.jump target) .nothing
  | .error cause => machine.refuse (.stack cause)

def handleByteSkip (machine : Machine) (number : Nat) (value : UInt8)
    (answer : Bool) : Handled := do
  let found ← machine.registers.getAt number
  machine.proceed (Advance.skipIf ((found == value) == answer)) .nothing

def handleRegisterSkip (machine : Machine) (number other choice : Nat) (answer : Bool) : Handled :=
  match choice with
  | 0 => do
      let first ← machine.registers.getAt number
      let second ← machine.registers.getAt other
      machine.proceed (Advance.skipIf ((first == second) == answer)) .nothing
  | _ => machine.proceed .next .nothing

def handleSum (machine : Machine) (number : Nat) (value : UInt8) : Handled := do
  let found ← machine.registers.getAt number
  machine.assignAt number (found + value)

def handleArithmetic (machine : Machine) (number other choice : Nat) : Handled := do
  let a ← machine.registers.getAt number
  let b ← machine.registers.getAt other
  match ← operate choice a b with
  | none => machine.proceed .next .nothing
  | some (result, none) => machine.assignAt number result
  | some (result, some flag) => do
      let changed ← machine.registers.setAt number result
      let flagged ← changed.setFlagAt flag
      (machine.withRegisters flagged).proceed .next .nothing

def handleOffsetJump (machine : Machine) (base : Nat) : Handled := do
  let offset ← machine.registers.getAt 0
  let target ← addSize offset.toNat base
  machine.proceed (.jump target) .nothing

def handleRandom (machine : Machine) (number : Nat) (mask : UInt8) : Handled :=
  let (byte, random) := machine.random.next
  ({ machine with random := random } : Machine).assignAt number (byte &&& mask)

def handleDraw (machine : Machine) (column row rows : Nat) : Handled := do
  let left ← machine.registers.getAt column
  let top ← machine.registers.getAt row
  match ← machine.memory.readAt machine.registers.index.toNat rows with
  | .error cause => machine.refuse (.memory cause)
  | .ok sprite => do
      let drawing ← (Drawing.begin machine.frame).bytes left.toNat top.toNat 0 sprite
      let flagged ← machine.registers.setFlagAt drawing.collision
      ({ machine with frame := drawing.frame, registers := flagged } : Machine).proceed .next .draw

def handleKeySkip (machine : Machine) (number : Nat) (choice : UInt8) : Handled := do
  let key ← machine.registers.getAt number
  match choice.toNat with
  | 0x9E => machine.proceed (Advance.skipIf (machine.keypad.isDown key)) .nothing
  | 0xA1 => machine.proceed (Advance.skipIf (!machine.keypad.isDown key)) .nothing
  | _ => machine.proceed .next .nothing

def handleSetDelay (machine : Machine) (number : Nat) : Handled := do
  let value ← machine.registers.getAt number
  (machine.withPeripherals (machine.toPeripherals.setDelay value)).proceed .next .nothing

def handleSetSound (listener : ToneListener) (machine : Machine) (number : Nat) : Handled := do
  let value ← machine.registers.getAt number
  (machine.withPeripherals (machine.toPeripherals.setSound listener value)).proceed .next .nothing

def handleAddIndex (machine : Machine) (number : Nat) : Handled := do
  let value ← machine.registers.getAt number
  machine.assignIndex (machine.registers.index + value.toUInt16)

def handleGlyph (machine : Machine) (number : Nat) : Handled := do
  let value ← machine.registers.getAt number
  let offset ← mulSize Layout.glyphSize value.toNat
  let location ← addSize Layout.fontStart offset
  machine.assignIndex (UInt16.ofNat location)

def handleDecimal (machine : Machine) (number : Nat) : Handled := do
  let value ← machine.registers.getAt number
  match ← machine.memory.writeAt machine.registers.index.toNat (decimalDigits value) with
  | .error cause => machine.refuse (.memory cause)
  | .ok memory => ({ machine with memory := memory } : Machine).proceed .next .nothing

def handleStore (machine : Machine) (last : Nat) : Handled := do
  let values ← machine.registers.throughAt last
  match ← machine.memory.writeAt machine.registers.index.toNat values with
  | .error cause => machine.refuse (.memory cause)
  | .ok memory => do
      let count ← addWord (UInt16.ofNat last) 1
      ({ machine with memory := memory } : Machine).assignIndex (machine.registers.index + count)

def handleLoad (machine : Machine) (last : Nat) : Handled := do
  let length ← addSize last 1
  match ← machine.memory.readAt machine.registers.index.toNat length with
  | .error cause => machine.refuse (.memory cause)
  | .ok values => do
      let filled ← machine.registers.fillAt last values
      let count ← addWord (UInt16.ofNat last) 1
      (machine.withRegisters { filled with index := machine.registers.index + count }).proceed
        .next .nothing

def handleDevice (listener : ToneListener) (machine : Machine) (number : Nat)
    (choice : UInt8) : Handled :=
  match choice.toNat with
  | 0x07 => machine.assignAt number machine.timers.delay
  | 0x0A => machine.proceed .next (.awaitKey number)
  | 0x15 => machine.handleSetDelay number
  | 0x18 => machine.handleSetSound listener number
  | 0x1E => machine.handleAddIndex number
  | 0x29 => machine.handleGlyph number
  | 0x33 => machine.handleDecimal number
  | 0x55 => machine.handleStore number
  | 0x65 => machine.handleLoad number
  | _ => machine.proceed .next .nothing

def handleWord (listener : ToneListener) (machine : Machine) (word : Word) : Handled :=
  match word.rawLead with
  | 0x0 => machine.handleSystem word
  | 0x1 => machine.proceed (.jump word.rawNNN) .nothing
  | 0x2 => machine.handleCall word.rawNNN
  | 0x3 => machine.handleByteSkip word.rawX word.rawKK true
  | 0x4 => machine.handleByteSkip word.rawX word.rawKK false
  | 0x5 => machine.handleRegisterSkip word.rawX word.rawY word.rawN true
  | 0x6 => machine.assignAt word.rawX word.rawKK
  | 0x7 => machine.handleSum word.rawX word.rawKK
  | 0x8 => machine.handleArithmetic word.rawX word.rawY word.rawN
  | 0x9 => machine.handleRegisterSkip word.rawX word.rawY word.rawN false
  | 0xA => machine.assignIndex (UInt16.ofNat word.rawNNN)
  | 0xB => machine.handleOffsetJump word.rawNNN
  | 0xC => machine.handleRandom word.rawX word.rawKK
  | 0xD => machine.handleDraw word.rawX word.rawY word.rawN
  | 0xE => machine.handleKeySkip word.rawX word.rawKK
  | 0xF => machine.handleDevice listener word.rawX word.rawKK
  | _ => machine.refuse (.word (.unsupported word))

def settleMove :
    Machine × Except Fault (Advance × Request) → Checked (Machine × Except Fault Request)
  | (failed, .error fault) => .ok (failed, .error fault)
  | (handled, .ok (move, request)) => do
      let counter ← move.applyChecked handled.registers.counter
      .ok (handled.withRegisters { handled.registers with counter := counter }, .ok request)

def performChecked (machine : Machine) (listener : ToneListener) (word : Word) :
    Checked (Machine × Except Fault Request) := do
  settleMove (← machine.handleWord listener word)

def nextChecked (machine : Machine) (surroundings : Surroundings) : Checked (Machine × Report) := do
  match ← machine.memory.fetchAt machine.registers.counter with
  | .error cause => .ok (machine, .fault (.word cause))
  | .ok word =>
      match ← machine.performChecked surroundings.tone word with
      | (failed, .error fault) => .ok (failed, .fault fault)
      | (drawn, .ok .draw) =>
          match drawn.present surroundings with
          | (shown, none) => .ok (shown, .done .draw)
          | (shown, some text) => .ok (shown, .raised text)
      | (executed, .ok request) => .ok (executed, .done request)

def receiveChecked (machine : Machine) (number : Nat) (key : Key) : Checked Machine := do
  let registers ← machine.registers.setAt number key.toByte
  .ok (machine.withRegisters registers)

end Machine

end Chip8Machine
