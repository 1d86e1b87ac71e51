import Chip8Machine.Layout

/-!
How the program counter moves once an instruction has been executed.
-/

set_option autoImplicit false

namespace Chip8Machine

/-- A move of the program counter. A jump is not checked: a target outside of memory ends the
program when the next word is fetched. -/
inductive Advance where
  | next
  | skip
  | jump (target : Nat)
  deriving DecidableEq, Repr

namespace Advance

def skipIf (condition : Bool) : Advance := if condition then .skip else .next

def apply : Advance → Nat → Nat
  | .next, pc => pc + Layout.wordSize
  | .skip, pc => pc + 2 * Layout.wordSize
  | .jump target, _ => target

@[simp] theorem apply_next (pc : Nat) : next.apply pc = pc + 2 := rfl

@[simp] theorem apply_skip (pc : Nat) : skip.apply pc = pc + 4 := rfl

@[simp] theorem apply_jump (target pc : Nat) : (jump target).apply pc = target := rfl

end Advance

end Chip8Machine
