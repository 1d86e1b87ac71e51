import Chip8Machine.Cycle

/-!
The loop that runs a program, in steps that are small enough to be interleaved with other threads.

A turn of the loop looks for a stop request, then for the end of memory, and then does one cycle. If
the cycle asks for a key, the loop waits. Every phase reads or changes what it shares with others at
most once, so that whatever others do happens before or behind a phase. A loop that waits knows how
many presses there had been when the wait began.
-/

set_option autoImplicit false

namespace Chip8Machine

inductive Halt where
  | requested
  | counterOutOfRange (counter : Nat)
  | fault (fault : Fault)
  deriving DecidableEq, Repr

/-- How a run ended: for a reason of its own, or by an exception of the display. -/
inductive Ending where
  | halted (halt : Halt)
  | raised (text : String)
  deriving DecidableEq, Repr

inductive Phase where
  | checkStop
  | checkCounter
  | cycle
  | enterWait (register : Register)
  | sleep (register : Register) (seen : UInt64)
  | receive (register : Register) (key : Key)
  | ended (ending : Ending)
  deriving DecidableEq, Repr

namespace Phase

def ofWait (register : Register) (seen : UInt64) : Wait → Phase
  | .pending => .sleep register seen
  | .ended (some key) => .receive register key
  | .ended none => .ended (.halted .requested)

/-- One step of the loop. A loop that waits or has ended stays where it is. -/
def advance (surroundings : Surroundings) (phase : Phase) (machine : Machine) : Phase × Machine :=
  match phase with
  | .checkStop =>
      if machine.keypad.stopRequested then (.ended (.halted .requested), machine)
      else (.checkCounter, machine)
  | .checkCounter =>
      if Layout.memorySize ≤ machine.registers.counter + 1 then
        (.ended (.halted (.counterOutOfRange machine.registers.counter)), machine)
      else (.cycle, machine)
  | .cycle =>
      match machine.next surroundings with
      | (after, .done (.awaitKey register)) => (.enterWait register, after)
      | (after, .done _) => (.checkStop, after)
      | (after, .fault fault) => (.ended (.halted (.fault fault)), after)
      | (after, .raised text) => (.ended (.raised text), after)
  | .enterWait register =>
      (ofWait register machine.keypad.presses (machine.keypad.poll machine.keypad.presses), machine)
  | .sleep register seen => (ofWait register seen (machine.keypad.poll seen), machine)
  | .receive register key =>
      (.checkStop, machine.receive register key)
  | .ended ending => (.ended ending, machine)

/-- The loop waits, and nothing has happened yet that ends the wait. -/
def isBlocked (phase : Phase) (machine : Machine) : Bool :=
  match phase with
  | .sleep _ seen => machine.keypad.poll seen == .pending
  | _ => false

end Phase

end Chip8Machine
