/-!
Numbers written in base sixteen with the digits `0` to `9` and `A` to `F`.
-/

set_option autoImplicit false

namespace Chip8Machine.Text.Hexadecimal

def digits (number : Nat) : List Char :=
  (Nat.toDigits 16 number).map Char.toUpper

/-- The digits of `number`, filled up with zeros on the left to at least `width` digits. -/
def padded (width number : Nat) : String :=
  String.ofList ((digits number).leftpad width '0')

def plain (number : Nat) : String :=
  padded 1 number

def marked (width number : Nat) : String :=
  "0x" ++ padded width number

end Chip8Machine.Text.Hexadecimal
