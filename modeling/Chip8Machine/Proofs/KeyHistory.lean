import Chip8Machine.Keypad
import Chip8Machine.Proofs.Runs

/-!
What a keypad knows after a list of gestures.

The last key, the number of presses and the stop request are functions of the presses of existing
keys and of the stop requests in the list. Releases, and presses of keys that do not exist, leave no
trace in any of them.
-/

set_option autoImplicit false

namespace Chip8Machine

def Gesture.key? : Gesture → Option Key
  | .press number => (Key.ofByte number).toOption
  | .release _ => none
  | .requestStop => none

namespace Keypad

theorem handle_press_of_key (keypad : Keypad) (number : UInt8) (key : Key)
    (known : Key.ofByte number = .ok key) :
    keypad.handle (.press number) = { keypad with
      down := keypad.down.set key.val true key.isLt
      last := some key
      presses := keypad.presses + 1 } := by
  simp only [handle, press_of_key keypad number key known]

theorem handle_press_of_no_key (keypad : Keypad) (number : UInt8) (fault : KeyFault)
    (unknown : Key.ofByte number = .error fault) : keypad.handle (.press number) = keypad := by
  simp only [handle, press_of_no_key keypad number fault unknown]

theorem handle_release_of_key (keypad : Keypad) (number : UInt8) (key : Key)
    (known : Key.ofByte number = .ok key) :
    keypad.handle (.release number) =
      { keypad with down := keypad.down.set key.val false key.isLt } := by
  simp only [handle, release, known, bind, Except.bind, pure, Except.pure]

theorem handle_release_of_no_key (keypad : Keypad) (number : UInt8) (fault : KeyFault)
    (unknown : Key.ofByte number = .error fault) : keypad.handle (.release number) = keypad := by
  simp only [handle, release, unknown, bind, Except.bind]

theorem handle_release (keypad : Keypad) (number : UInt8) :
    ∃ down, keypad.handle (.release number) = { keypad with down := down } := by
  cases known : Key.ofByte number with
  | ok key => exact ⟨_, handle_release_of_key keypad number key known⟩
  | error fault => exact ⟨keypad.down, handle_release_of_no_key keypad number fault known⟩

theorem last_handle (keypad : Keypad) (gesture : Gesture) :
    (keypad.handle gesture).last = gesture.key?.or keypad.last := by
  cases gesture with
  | press number =>
      cases known : Key.ofByte number with
      | ok key =>
          rw [handle_press_of_key keypad number key known, Gesture.key?, known]
          rfl
      | error fault =>
          rw [handle_press_of_no_key keypad number fault known, Gesture.key?, known]
          rfl
  | release number =>
      obtain ⟨down, released⟩ := handle_release keypad number
      rw [released]
      rfl
  | requestStop => rfl

theorem presses_handle (keypad : Keypad) (gesture : Gesture) :
    (keypad.handle gesture).presses =
      keypad.presses + UInt64.ofNat gesture.key?.toList.length := by
  cases gesture with
  | press number =>
      cases known : Key.ofByte number with
      | ok key =>
          rw [handle_press_of_key keypad number key known, Gesture.key?, known]
          rfl
      | error fault =>
          rw [handle_press_of_no_key keypad number fault known, Gesture.key?, known]
          exact (UInt64.add_zero keypad.presses).symm
  | release number =>
      obtain ⟨down, released⟩ := handle_release keypad number
      rw [released]
      exact (UInt64.add_zero keypad.presses).symm
  | requestStop => exact (UInt64.add_zero keypad.presses).symm

theorem stopRequested_handle (keypad : Keypad) (gesture : Gesture) :
    (keypad.handle gesture).stopRequested = true ↔
      keypad.stopRequested = true ∨ gesture = .requestStop := by
  cases gesture with
  | press number =>
      cases known : Key.ofByte number with
      | ok key => simp [handle_press_of_key keypad number key known]
      | error fault => simp [handle_press_of_no_key keypad number fault known]
  | release number =>
      obtain ⟨down, released⟩ := handle_release keypad number
      simp [released]
  | requestStop => simp [handle, requestStop]

theorem last_after_gestures (keypad : Keypad) (gestures : List Gesture) :
    (gestures.foldl handle keypad).last =
      (gestures.filterMap Gesture.key?).getLast?.or keypad.last :=
  latest_of_foldl Keypad.last last_handle keypad gestures

theorem presses_after_gestures (keypad : Keypad) (gestures : List Gesture) :
    (gestures.foldl handle keypad).presses =
      keypad.presses + UInt64.ofNat (gestures.filterMap Gesture.key?).length := by
  induction gestures generalizing keypad with
  | nil => exact (UInt64.add_zero keypad.presses).symm
  | cons gesture rest ih =>
      rw [List.foldl_cons, ih, presses_handle, UInt64.add_assoc, ← UInt64.ofNat_add]
      cases pressed : gesture.key? with
      | none =>
          rw [List.filterMap_cons_none pressed, Option.toList_none, List.length_nil, Nat.zero_add]
      | some key =>
          rw [List.filterMap_cons_some pressed, Option.toList_some, List.length_cons,
            List.length_cons, List.length_nil, Nat.zero_add, Nat.add_comm]

theorem stopRequested_after_gestures (keypad : Keypad) (gestures : List Gesture) :
    (gestures.foldl handle keypad).stopRequested = true ↔
      keypad.stopRequested = true ∨ .requestStop ∈ gestures := by
  induction gestures generalizing keypad with
  | nil => simp
  | cons gesture rest ih =>
      rw [List.foldl_cons, ih, stopRequested_handle, List.mem_cons, or_assoc]
      constructor
      · rintro (before | now | later)
        · exact .inl before
        · exact .inr (.inl now.symm)
        · exact .inr (.inr later)
      · rintro (before | now | later)
        · exact .inl before
        · exact .inr (.inl now.symm)
        · exact .inr (.inr later)

/-- Fewer than 2^64 presses cannot bring the count back to where it was. -/
theorem presses_after_gestures_eq_iff (keypad : Keypad) (gestures : List Gesture)
    (few : (gestures.filterMap Gesture.key?).length < UInt64.size) :
    (gestures.foldl handle keypad).presses = keypad.presses ↔
      gestures.filterMap Gesture.key? = [] := by
  rw [presses_after_gestures, ← List.length_eq_zero_iff]
  generalize (gestures.filterMap Gesture.key?).length = count at few ⊢
  constructor
  · intro same
    have added : (keypad.presses + UInt64.ofNat count).toNat = keypad.presses.toNat :=
      congrArg UInt64.toNat same
    rw [UInt64.toNat_add, UInt64.toNat_ofNat', Nat.mod_eq_of_lt few] at added
    have bound := keypad.presses.toNat_lt_size
    unfold UInt64.size at few bound
    omega
  · intro empty
    rw [empty]
    exact UInt64.add_zero keypad.presses

end Keypad

end Chip8Machine
