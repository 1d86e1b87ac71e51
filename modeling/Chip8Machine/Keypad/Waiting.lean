import Chip8Machine.Keypad

/-!
One thread waits for a key while others press and release keys and request stops.

The keypad's keys are guarded by a lock; what is done under the lock is one step. The stop request
is not guarded: to raise it is one step, and to take the lock and notify the waiting thread is
another. A thread that finds nothing to end its wait releases the lock and falls asleep in one step.
It is woken by a notification, and it may also wake up without one. The notifications that are still
to come are counted.

`Waiting.move?` lists the steps, which can happen in any order that their conditions allow.
-/

set_option autoImplicit false

namespace Chip8Machine

inductive Waiter where
  | outside
  | asleep (seen : UInt64)
  | awake (seen : UInt64)
  | returned (key : Option Key)
  deriving DecidableEq, Repr

structure Waiting where
  keypad : Keypad := {}
  waiter : Waiter := .outside
  notices : Nat := 0
  deriving DecidableEq, Repr

namespace Waiting

inductive Move where
  | begin
  | look
  | stir
  | press (key : UInt8)
  | release (key : UInt8)
  | raiseStop
  | notify
  deriving DecidableEq, Repr

def behindLook (seen : UInt64) : Wait → Waiter
  | .pending => .asleep seen
  | .ended key => .returned key

def wake : Waiter → Waiter
  | .asleep seen => .awake seen
  | waiter => waiter

def move? (state : Waiting) : Move → Option Waiting
  | .begin =>
      match state.waiter with
      | .outside =>
          let seen := state.keypad.presses
          some { state with waiter := behindLook seen (state.keypad.poll seen) }
      | _ => none
  | .look =>
      match state.waiter with
      | .awake seen => some { state with waiter := behindLook seen (state.keypad.poll seen) }
      | _ => none
  | .stir =>
      match state.waiter with
      | .asleep seen => some { state with waiter := .awake seen }
      | _ => none
  | .press key =>
      match state.keypad.press key with
      | .ok keypad => some { state with keypad := keypad, waiter := wake state.waiter }
      | .error _ => some state
  | .release key => some { state with keypad := state.keypad.handle (.release key) }
  | .raiseStop =>
      some { state with keypad := state.keypad.requestStop, notices := state.notices + 1 }
  | .notify =>
      match state.notices with
      | 0 => none
      | left + 1 => some { state with waiter := wake state.waiter, notices := left }

def moves? (state : Waiting) (moves : List Move) : Option Waiting :=
  moves.foldlM move? state

end Waiting

end Chip8Machine
