import Chip8Machine.Execution

/-!
One cycle: fetch the word at the program counter, execute it, and show the frame if it has changed.
-/

set_option autoImplicit false

namespace Chip8Machine

inductive Outcome where
  | done (demand : Demand)
  | fault (fault : Fault)
  | raised (text : String)
  deriving DecidableEq, Repr

namespace Machine

def perform (machine : Machine) (listener : ToneListener) (word : Word) :
    Machine × Except Fault Demand :=
  machine.execute listener (Instruction.decode word)

def next (machine : Machine) (surroundings : Surroundings) : Machine × Outcome :=
  match machine.memory.fetch machine.registers.counter with
  | .error cause => (machine, .fault (.word cause))
  | .ok word =>
      match machine.perform surroundings.tone word with
      | (failed, .error fault) => (failed, .fault fault)
      | (drawn, .ok .draw) =>
          match drawn.present surroundings with
          | (shown, none) => (shown, .done .draw)
          | (shown, some text) => (shown, .raised text)
      | (executed, .ok demand) => (executed, .done demand)

/-- The steps of at most `count` cycles, up to and including the first that is not done. -/
def nextUpTo (machine : Machine) (surroundings : Surroundings) : Nat → List (Machine × Outcome)
  | 0 => []
  | count + 1 =>
      match machine.next surroundings with
      | (after, .done demand) =>
          (after, .done demand) :: after.nextUpTo surroundings count
      | ended => [ended]

end Machine

end Chip8Machine
