import Chip8Machine.Text.Hexadecimal

/-!
The ways in which an operation of the machine can fail, each with the text that reports it.

A `Fault` ends a program: it comes from the instruction word itself, from the call stack or from
memory. A `KeyFault`, a `RegisterFault` or a `PixelFault` is the answer to a caller who names a key,
a register or a pixel that does not exist.
-/

set_option autoImplicit false

namespace Chip8Machine

open Text

inductive WordFault where
  | unsupported (word : UInt16)
  | truncated (pointer length : Nat)
  deriving DecidableEq, Repr

inductive StackFault where
  | overflow (depth : Nat)
  | underflow
  deriving DecidableEq, Repr

/-- An access is reported by the first of its addresses that is not in memory. -/
inductive MemoryFault where
  | oversizedProgram (length limit : Nat)
  | outOfBounds (address size : Nat)
  deriving DecidableEq, Repr

inductive Fault where
  | word (cause : WordFault)
  | stack (cause : StackFault)
  | memory (cause : MemoryFault)
  deriving DecidableEq, Repr

structure KeyFault where
  key : UInt8
  deriving DecidableEq, Repr

structure RegisterFault where
  number : Nat
  deriving DecidableEq, Repr

structure PixelFault where
  size : Nat
  index : Nat
  deriving DecidableEq, Repr

def WordFault.message : WordFault → String
  | .unsupported word =>
      "An unsupported opcode was used " ++ Hexadecimal.marked 4 word.toNat ++ "."
  | .truncated pointer length =>
      "Pointer location invalid there can not be an opcode at " ++ toString pointer ++
        ", if data len is " ++ toString length

def StackFault.message : StackFault → String
  | .overflow depth =>
      "Stack overflow, there are already " ++ toString depth ++ " nested calls!"
  | .underflow => "Stack underflow, there is no address to return to!"

def MemoryFault.message : MemoryFault → String
  | .oversizedProgram length limit =>
      "The program is " ++ toString length ++ " bytes long, but at most " ++ toString limit ++
        " bytes fit into memory."
  | .outOfBounds address size =>
      "Memory address " ++ Hexadecimal.marked 4 address ++ " is out of bounds, memory is " ++
        toString size ++ " bytes long."

/-- A fault's text quotes the text of its cause. -/
def Fault.message : Fault → String
  | .word cause => "Invalid opcode state '" ++ cause.message ++ "'."
  | .stack cause => "Invalid stack state '" ++ cause.message ++ "'."
  | .memory cause => "Invalid memory access '" ++ cause.message ++ "'."

def KeyFault.message (fault : KeyFault) : String :=
  "There is no key " ++ Hexadecimal.marked 1 fault.key.toNat ++
    ", only the keys 0x0 to 0xF exist."

def RegisterFault.message (fault : RegisterFault) : String :=
  "There is no register V" ++ Hexadecimal.plain fault.number ++ ", only V0 to VF exist."

def PixelFault.message (fault : PixelFault) : String :=
  "index out of bounds: the len is " ++ toString fault.size ++ " but the index is " ++
    toString fault.index

end Chip8Machine
