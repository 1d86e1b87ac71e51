import Chip8Machine.Cycle

/-!
Histories: what can happen to a machine, one thing after another.

A program does a cycle at a time. Between its cycles the timers tick, keys are pressed and released,
a key that was waited for arrives in a register, and memory can be written or loaded with a program.
The instructions that a history executes are those of its cycles without a fault.
-/

set_option autoImplicit false

namespace Chip8Machine

inductive Happening where
  | cycle
  | receive (register : Register) (key : Key)
  | tick
  | gesture (gesture : Gesture)
  | write (start : Nat) (data : List UInt8)
  | load (program : List UInt8)
  deriving DecidableEq, Repr

namespace Machine

def instruction? (machine : Machine) : Option Instruction :=
  match machine.memory.fetch machine.registers.counter with
  | .ok word => some (Instruction.decode word)
  | .error _ => none

/-- The instruction that the next cycle executes. A cycle that ends with a fault executes none. -/
def executed? (machine : Machine) (surroundings : Surroundings) : Option Instruction :=
  match (machine.next surroundings).2 with
  | .fault _ => none
  | _ => machine.instruction?

/-- The machine after something has happened. What is refused changes nothing. -/
def happen (surroundings : Surroundings) (machine : Machine) : Happening → Machine
  | .cycle => (machine.next surroundings).1
  | .receive register key => machine.receive register key
  | .tick => machine.tick surroundings
  | .gesture gesture => machine.handle gesture
  | .write start data =>
      match machine.write start data with
      | .ok written => written
      | .error _ => machine
  | .load program =>
      match machine.load program with
      | .ok loaded => loaded
      | .error _ => machine

def happenAll (surroundings : Surroundings) (machine : Machine) (happenings : List Happening) :
    Machine :=
  happenings.foldl (happen surroundings) machine

theorem happenAll_append (surroundings : Surroundings) (machine : Machine)
    (first second : List Happening) :
    machine.happenAll surroundings (first ++ second) =
      (machine.happenAll surroundings first).happenAll surroundings second :=
  List.foldl_append

def executedBy? (surroundings : Surroundings) (machine : Machine) : Happening → Option Instruction
  | .cycle => machine.executed? surroundings
  | _ => none

def executedAll (surroundings : Surroundings) (machine : Machine) :
    List Happening → List Instruction
  | [] => []
  | happening :: rest =>
      (machine.executedBy? surroundings happening).toList ++
        (machine.happen surroundings happening).executedAll surroundings rest

end Machine

end Chip8Machine
