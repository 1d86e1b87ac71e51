import Chip8Machine.Loop

/-!
Runs that are attended: somebody answers every wait for a key, so that a run comes to its end with
no other thread.

Every wait uses up one answer. Once there are no more answers, a wait is answered by a stop request.

Such a run may also be one among others, who reach the peripherals before each of its steps. A wait
that they have ended needs no answer.
-/

set_option autoImplicit false

namespace Chip8Machine

/-- What is done about one wait for a key: reactions right before it begins, and then a press that
ends it, or a stop request if there is no key. Keys pressed before do not end the wait. -/
structure Answer where
  before : List Reaction := []
  key : Option Key := none
  deriving DecidableEq, Repr

def Answer.gesture (answer : Answer) : Gesture :=
  match answer.key with
  | some key => .press key.toByte
  | none => .requestStop

structure AttendedRun where
  phase : Phase := .checkStop
  machine : Machine
  answers : List Answer

namespace AttendedRun

def answer (run : AttendedRun) : Answer := run.answers.head?.getD {}

def advanceAlone (run : AttendedRun) (surroundings : Surroundings) : AttendedRun :=
  let (phase, machine) := run.phase.advance surroundings run.machine
  { run with phase := phase, machine := machine }

/-- Uses up the current answer, unless the loop still waits. -/
def leaveWait (run : AttendedRun) : AttendedRun :=
  match run.phase with
  | .sleep _ _ => run
  | _ => { run with answers := run.answers.tail }

def advance (run : AttendedRun) (surroundings : Surroundings) : AttendedRun :=
  match run.phase with
  | .enterWait _ =>
      let (peripherals, raised) :=
        run.machine.toPeripherals.react surroundings.tone run.answer.before
      let prepared := { run with machine := run.machine.withPeripherals peripherals }
      match raised with
      | some text => { prepared with phase := .ended (.raised text) }.leaveWait
      | none => (prepared.advanceAlone surroundings).leaveWait
  | .sleep _ _ =>
      if run.phase.isBlocked run.machine then
        { run with machine := run.machine.handle run.answer.gesture }
      else (run.advanceAlone surroundings).leaveWait
  | _ => run.advanceAlone surroundings

def finish (surroundings : Surroundings) : Nat → AttendedRun → AttendedRun
  | 0, run => run
  | fuel + 1, run =>
      match run.phase with
      | .ended _ => run
      | _ => finish surroundings fuel (run.advance surroundings)

def disturb (run : AttendedRun) (others : Peripherals → Peripherals) : AttendedRun :=
  { run with machine := run.machine.withPeripherals (others run.machine.toPeripherals) }

/-- The run as the step with the given number finds it, with what others do before each step. -/
def amid (surroundings : Surroundings) (others : Nat → Peripherals → Peripherals)
    (run : AttendedRun) : Nat → AttendedRun
  | 0 => run.disturb (others 0)
  | step + 1 =>
      ((amid surroundings others run step).advance surroundings).disturb (others (step + 1))

end AttendedRun

namespace Machine

/-- Runs the program with a bound on the number of steps of the loop. The result is how the run
ended, the machine it left and the answers that are left; there is none if the bound was too
small. -/
def run (machine : Machine) (surroundings : Surroundings) (answers : List Answer) (fuel : Nat) :
    Option (Ending × Machine × List Answer) :=
  let last := AttendedRun.finish surroundings fuel { machine := machine, answers := answers }
  match last.phase with
  | .ended ending => some (ending, last.machine, last.answers)
  | _ => none

end Machine

end Chip8Machine
