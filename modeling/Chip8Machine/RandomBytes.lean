/-!
Sources of random bytes: an endless sequence, and how much of it has been handed out.
-/

set_option autoImplicit false

namespace Chip8Machine

structure RandomBytes where
  sequence : Nat → UInt8
  taken : Nat := 0

namespace RandomBytes

def next (source : RandomBytes) : UInt8 × RandomBytes :=
  (source.sequence source.taken, { source with taken := source.taken + 1 })

def take (source : RandomBytes) : Nat → List UInt8
  | 0 => []
  | count + 1 =>
      let (byte, rest) := source.next
      byte :: rest.take count

def zeros : RandomBytes := { sequence := fun _ => 0 }

def cycle (bytes : Array UInt8) : RandomBytes :=
  { sequence := fun position => (bytes[position % bytes.size]?).getD 0 }

/-- The low bytes of a counter of 64 bits that begins at `start` and grows by `step`. -/
def counter (start step : UInt64) : RandomBytes :=
  { sequence := fun position => (start + UInt64.ofNat position * step).toUInt8 }

end RandomBytes

end Chip8Machine
