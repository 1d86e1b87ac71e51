import Chip8Machine.Loop.Attended

/-!
The course of a run, told in whole turns and without a bound on their number.

A turn begins with two checks: a stop request ends the run, else the end of memory ends it. Then it
does one cycle. The cycle can end the run by a fault, which changes nothing, or by an exception of
the display. If it asks for a key, then the answer to this wait decides: a key goes into the
register, and a stop ends the run.
-/

set_option autoImplicit false

namespace Chip8Machine

inductive Waited where
  | key (key : Key)
  | stopped
  | raised (text : String)
  deriving DecidableEq, Repr

inductive Turn where
  | ended (ending : Ending) (machine : Machine) (answers : List Answer)
  | again (machine : Machine) (answers : List Answer)

namespace Machine

def wait (machine : Machine) (surroundings : Surroundings) (answer : Answer) : Machine × Waited :=
  let (peripherals, raised) := machine.toPeripherals.react surroundings.tone answer.before
  let prepared := machine.withPeripherals peripherals
  match raised, answer.key with
  | some text, _ => (prepared, .raised text)
  | none, none => (prepared.handle .requestStop, .stopped)
  | none, some key =>
      if prepared.keypad.stopRequested then (prepared, .stopped)
      else (prepared.handle (.press key.toByte), .key key)

def turnWait (machine : Machine) (surroundings : Surroundings) (register : Register)
    (answers : List Answer) : Turn :=
  match machine.wait surroundings (answers.head?.getD {}) with
  | (awake, .key key) =>
      .again { awake with registers := awake.registers.set register key.toByte } answers.tail
  | (awake, .stopped) => .ended (.halted .requested) awake answers.tail
  | (awake, .raised text) => .ended (.raised text) awake answers.tail

def turn (machine : Machine) (surroundings : Surroundings) (answers : List Answer) : Turn :=
  if machine.keypad.stopRequested then .ended (.halted .requested) machine answers
  else if Layout.memorySize ≤ machine.registers.counter + 1 then
    .ended (.halted (.counterOutOfRange machine.registers.counter)) machine answers
  else
    match machine.next surroundings with
    | (_, .fault fault) => .ended (.halted (.fault fault)) machine answers
    | (after, .raised text) => .ended (.raised text) after answers
    | (after, .done (.awaitKey register)) => after.turnWait surroundings register answers
    | (after, .done _) => .again after answers

end Machine

inductive Turns (surroundings : Surroundings) :
    Machine → List Answer → Machine → List Answer → Prop
  | none (machine : Machine) (answers : List Answer) :
      Turns surroundings machine answers machine answers
  | again {machine after reached : Machine} {answers rest left : List Answer}
      (turn : machine.turn surroundings answers = .again after rest)
      (turns : Turns surroundings after rest reached left) :
      Turns surroundings machine answers reached left

/-- A run of the first machine ends as told, and leaves the second machine and the second list of
answers. -/
inductive Course (surroundings : Surroundings) :
    Machine → List Answer → Ending → Machine → List Answer → Prop
  | ended {machine last : Machine} {answers left : List Answer} {ending : Ending}
      (turn : machine.turn surroundings answers = .ended ending last left) :
      Course surroundings machine answers ending last left
  | again {machine after last : Machine} {answers rest left : List Answer} {ending : Ending}
      (turn : machine.turn surroundings answers = .again after rest)
      (course : Course surroundings after rest ending last left) :
      Course surroundings machine answers ending last left

end Chip8Machine
