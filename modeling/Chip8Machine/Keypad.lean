import Chip8Machine.Fault
import Chip8Machine.Layout

/-!
The keypad of sixteen keys, together with the request to stop.

A program that waits for a key wants a press that happens after the wait began. The keypad counts
the presses; a wait remembers the count from its start and looks from time to time whether it has
changed. A stop request ends the wait as well, and is looked for first.
-/

set_option autoImplicit false

namespace Chip8Machine

abbrev Key := Fin Layout.keyCount

def Key.ofByte (number : UInt8) : Except KeyFault Key :=
  if known : number.toNat < Layout.keyCount then .ok ⟨number.toNat, known⟩ else .error ⟨number⟩

def Key.toByte (key : Key) : UInt8 := UInt8.ofNat key.val

theorem Key.toNat_toByte (key : Key) : key.toByte.toNat = key.val := by
  have bound : key.val < 16 := key.isLt
  unfold Key.toByte
  rw [UInt8.toNat_ofNat']
  omega

theorem Key.ofByte_toByte (key : Key) : Key.ofByte key.toByte = .ok key := by
  have known : key.toByte.toNat < Layout.keyCount := by
    rw [Key.toNat_toByte]
    exact key.isLt
  unfold Key.ofByte
  rw [dif_pos known]
  exact congrArg Except.ok (Fin.ext (Key.toNat_toByte key))

theorem Key.val_of_ofByte {number : UInt8} {key : Key} (known : Key.ofByte number = .ok key) :
    key.val = number.toNat := by
  unfold Key.ofByte at known
  split at known
  · cases known
    rfl
  · cases known

theorem Key.toByte_of_ofByte {number : UInt8} {key : Key} (known : Key.ofByte number = .ok key) :
    key.toByte = number := by
  apply UInt8.toNat_inj.mp
  rw [Key.toNat_toByte, Key.val_of_ofByte known]

theorem Key.ofByte_eq_error_iff (number : UInt8) (fault : KeyFault) :
    Key.ofByte number = .error fault ↔ Layout.keyCount ≤ number.toNat ∧ fault = ⟨number⟩ := by
  unfold Key.ofByte
  by_cases known : number.toNat < Layout.keyCount
  · rw [dif_pos known]
    constructor
    · intro impossible
      cases impossible
    · intro unknown
      omega
  · rw [dif_neg known]
    constructor
    · intro failure
      cases failure
      exact ⟨by omega, rfl⟩
    · intro expected
      rw [expected.2]

structure Keypad where
  down : Vector Bool Layout.keyCount := Vector.replicate Layout.keyCount false
  last : Option Key := none
  presses : UInt64 := 0
  stopRequested : Bool := false
  deriving DecidableEq, Repr

inductive Gesture where
  | press (key : UInt8)
  | release (key : UInt8)
  | requestStop
  deriving DecidableEq, Repr

/-- The state of a wait for a key: it goes on, or it has ended with a key or with a stop. -/
inductive Wait where
  | pending
  | ended (key : Option Key)
  deriving DecidableEq, Repr

namespace Keypad

def initial : Keypad := {}

def press (keypad : Keypad) (number : UInt8) : Except KeyFault Keypad := do
  let key ← Key.ofByte number
  return { keypad with
    down := keypad.down.set key.val true
    last := some key
    presses := keypad.presses + 1 }

def release (keypad : Keypad) (number : UInt8) : Except KeyFault Keypad := do
  let key ← Key.ofByte number
  return { keypad with down := keypad.down.set key.val false }

/-- Whether a key is down. A number that names no key is never down. -/
def isDown (keypad : Keypad) (number : UInt8) : Bool :=
  (keypad.down[number.toNat]?).getD false

def keysDown (keypad : Keypad) : List Key :=
  (List.finRange Layout.keyCount).filter fun key => keypad.down[key.val]

def requestStop (keypad : Keypad) : Keypad := { keypad with stopRequested := true }

/-- The keypad after a gesture. A key that does not exist changes nothing. -/
def handle (keypad : Keypad) : Gesture → Keypad
  | .press number =>
      match keypad.press number with
      | .ok pressed => pressed
      | .error _ => keypad
  | .release number =>
      match keypad.release number with
      | .ok released => released
      | .error _ => keypad
  | .requestStop => keypad.requestStop

/-- Looks after a wait that began when there had been `seen` presses. -/
def poll (keypad : Keypad) (seen : UInt64) : Wait :=
  if keypad.stopRequested then .ended none
  else if keypad.presses ≠ seen then .ended keypad.last
  else .pending

/-- Waits for a key while somebody stands ready to do one thing once the wait is pending. The wait
goes on for ever, and has no result, if that does not end it. -/
def await (keypad : Keypad) (answer : Gesture) : Keypad × Wait :=
  match keypad.poll keypad.presses with
  | .ended key => (keypad, .ended key)
  | .pending =>
      let answered := keypad.handle answer
      (answered, answered.poll keypad.presses)

theorem press_of_key (keypad : Keypad) (number : UInt8) (key : Key)
    (known : Key.ofByte number = .ok key) :
    keypad.press number = .ok { keypad with
      down := keypad.down.set key.val true key.isLt
      last := some key
      presses := keypad.presses + 1 } := by
  unfold press
  rw [known]
  rfl

theorem press_of_no_key (keypad : Keypad) (number : UInt8) (fault : KeyFault)
    (unknown : Key.ofByte number = .error fault) : keypad.press number = .error fault := by
  unfold press
  rw [unknown]
  rfl

theorem press_eq_ok (keypad : Keypad) (key : Key) :
    keypad.press key.toByte =
      .ok { keypad with
        down := keypad.down.set key.val true
        last := some key
        presses := keypad.presses + 1 } :=
  press_of_key keypad key.toByte key (Key.ofByte_toByte key)

theorem release_eq_ok (keypad : Keypad) (key : Key) :
    keypad.release key.toByte =
      .ok { keypad with down := keypad.down.set key.val false } := by
  unfold release
  rw [Key.ofByte_toByte]
  rfl

theorem press_eq_error_iff (keypad : Keypad) (number : UInt8) (fault : KeyFault) :
    keypad.press number = .error fault ↔
      Layout.keyCount ≤ number.toNat ∧ fault = ⟨number⟩ := by
  rw [← Key.ofByte_eq_error_iff]
  unfold press
  cases Key.ofByte number with
  | ok key => simp [bind, Except.bind, pure, Except.pure]
  | error unknown => simp [bind, Except.bind]

theorem release_eq_error_iff (keypad : Keypad) (number : UInt8) (fault : KeyFault) :
    keypad.release number = .error fault ↔
      Layout.keyCount ≤ number.toNat ∧ fault = ⟨number⟩ := by
  rw [← Key.ofByte_eq_error_iff]
  unfold release
  cases Key.ofByte number with
  | ok key => simp [bind, Except.bind, pure, Except.pure]
  | error unknown => simp [bind, Except.bind]

theorem isDown_of_unknown (keypad : Keypad) (number : UInt8)
    (unknown : Layout.keyCount ≤ number.toNat) : keypad.isDown number = false := by
  unfold isDown
  rw [Vector.getElem?_eq_none unknown]
  rfl

theorem isDown_iff (keypad : Keypad) (number : UInt8) :
    keypad.isDown number = true ↔ ∃ key ∈ keypad.keysDown, key.toByte = number := by
  unfold keysDown isDown
  constructor
  · intro down
    by_cases known : number.toNat < Layout.keyCount
    · rw [Vector.getElem?_eq_getElem known] at down
      refine ⟨⟨number.toNat, known⟩, List.mem_filter.mpr ⟨List.mem_finRange _, down⟩, ?_⟩
      apply UInt8.toNat_inj.mp
      exact Key.toNat_toByte _
    · rw [Vector.getElem?_eq_none (Nat.le_of_not_lt known)] at down
      cases down
  · rintro ⟨key, member, rfl⟩
    rw [Key.toNat_toByte, Vector.getElem?_eq_getElem key.isLt]
    exact (List.mem_filter.mp member).2

/-- A wait is pending exactly as long as there is neither a stop request nor another press. -/
theorem poll_eq_pending_iff (keypad : Keypad) (seen : UInt64) :
    keypad.poll seen = .pending ↔ keypad.stopRequested = false ∧ keypad.presses = seen := by
  unfold poll
  cases keypad.stopRequested with
  | true => simp
  | false =>
      by_cases same : keypad.presses = seen
      · simp [same]
      · simp [same]

end Keypad

end Chip8Machine
