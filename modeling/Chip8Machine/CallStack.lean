import Chip8Machine.Fault
import Chip8Machine.Layout

/-!
The stack of return addresses: at most sixteen, the last one pushed is the first one popped.
-/

set_option autoImplicit false

namespace Chip8Machine

/-- The open calls, the innermost first. -/
structure CallStack where
  addresses : List UInt16 := []
  depthBound : addresses.length ≤ Layout.stackLimit := by decide
  deriving DecidableEq

namespace CallStack

def empty : CallStack := {}

def depth (stack : CallStack) : Nat := stack.addresses.length

def isEmpty (stack : CallStack) : Bool := stack.addresses.isEmpty

def bottomUp (stack : CallStack) : List UInt16 := stack.addresses.reverse

def push (stack : CallStack) (address : UInt16) : Except StackFault CallStack :=
  if room : stack.addresses.length < Layout.stackLimit then
    .ok { addresses := address :: stack.addresses, depthBound := room }
  else
    .error (.overflow stack.depth)

def pop (stack : CallStack) : Except StackFault (UInt16 × CallStack) :=
  match stack with
  | { addresses := [], .. } => .error .underflow
  | { addresses := address :: rest, depthBound := bound } =>
      .ok (address, { addresses := rest, depthBound := Nat.le_of_succ_le bound })

/-- Pushes the addresses one after the other and leaves out those that find no room. -/
def ofList (bottomUp : List UInt16) : CallStack :=
  bottomUp.foldl (fun stack address =>
    match stack.push address with
    | .ok pushed => pushed
    | .error _ => stack) empty

@[ext] theorem ext {first second : CallStack}
    (same : first.addresses = second.addresses) : first = second := by
  cases first
  cases second
  congr

theorem depth_le (stack : CallStack) : stack.depth ≤ Layout.stackLimit := stack.depthBound

theorem length_bottomUp (stack : CallStack) : stack.bottomUp.length = stack.depth := by
  simp [bottomUp, depth]

theorem push_eq_ok_iff (stack pushed : CallStack) (address : UInt16) :
    stack.push address = .ok pushed ↔ pushed.addresses = address :: stack.addresses := by
  unfold push
  constructor
  · intro success
    split at success
    · cases success
      rfl
    · cases success
  · intro shape
    have bound := pushed.depthBound
    rw [shape, List.length_cons] at bound
    have room : stack.addresses.length < Layout.stackLimit := bound
    rw [dif_pos room]
    exact congrArg Except.ok (ext shape.symm)

theorem push_eq_error_iff (stack : CallStack) (address : UInt16) (fault : StackFault) :
    stack.push address = .error fault ↔
      stack.depth = Layout.stackLimit ∧ fault = .overflow Layout.stackLimit := by
  have bound := stack.depthBound
  unfold push depth
  constructor
  · intro failure
    split at failure
    · cases failure
    · rename_i full
      have exact : stack.addresses.length = Layout.stackLimit := by omega
      cases failure
      exact ⟨exact, by rw [exact]⟩
  · intro ⟨full, same⟩
    rw [dif_neg (by omega), full, same]

theorem pop_eq_ok_iff (stack rest : CallStack) (address : UInt16) :
    stack.pop = .ok (address, rest) ↔ stack.addresses = address :: rest.addresses := by
  obtain ⟨addresses, bound⟩ := stack
  cases addresses with
  | nil => simp [pop]
  | cons top below =>
      simp only [pop, Except.ok.injEq, Prod.mk.injEq, List.cons.injEq]
      constructor
      · intro ⟨sameTop, sameRest⟩
        exact ⟨sameTop, congrArg CallStack.addresses sameRest⟩
      · intro ⟨sameTop, sameRest⟩
        exact ⟨sameTop, ext sameRest⟩

theorem pop_eq_error_iff (stack : CallStack) (fault : StackFault) :
    stack.pop = .error fault ↔ stack.addresses = [] ∧ fault = .underflow := by
  obtain ⟨addresses, bound⟩ := stack
  cases addresses with
  | nil => simp [pop, eq_comm]
  | cons top below => simp [pop]

end CallStack

end Chip8Machine
