import Chip8Machine.Proofs.KeyHistory
import Chip8Machine.Sharing

/-!
What a keypad recalls, through whichever handle its keys are pressed.

A key is down if it was last pressed and not released since. The last key is that of the last press,
however long ago it was released. Gestures with numbers that name no key are refused and leave no
trace, and a stop request has no influence on the keys.
-/

set_option autoImplicit false

namespace Chip8Machine

/-- Whether the gesture leaves the key with this number down, if it is about that key. -/
def Gesture.leavesDown? (number : UInt8) : Gesture → Option Bool
  | .press pressed => if pressed = number then some true else none
  | .release released => if released = number then some false else none
  | .requestStop => none

namespace Gesture

theorem leavesDown?_eq_true_iff (number : UInt8) (gesture : Gesture) :
    gesture.leavesDown? number = some true ↔ gesture = .press number := by
  cases gesture with
  | press pressed => simp [leavesDown?]
  | release released => simp [leavesDown?]
  | requestStop => simp [leavesDown?]

theorem leavesDown?_eq_none_iff (number : UInt8) (gesture : Gesture) :
    gesture.leavesDown? number = none ↔ gesture ≠ .press number ∧ gesture ≠ .release number := by
  cases gesture with
  | press pressed => simp [leavesDown?]
  | release released => simp [leavesDown?]
  | requestStop => simp [leavesDown?]

theorem key?_eq_some_iff (gesture : Gesture) (key : Key) :
    gesture.key? = some key ↔ gesture = .press key.toByte := by
  constructor
  · intro pressed
    cases gesture with
    | press number =>
        cases known : Key.ofByte number with
        | ok found =>
            rw [key?, known] at pressed
            cases pressed
            rw [Key.toByte_of_ofByte known]
        | error fault =>
            rw [key?, known] at pressed
            cases pressed
    | release | requestStop => cases pressed
  · rintro rfl
    rw [key?, Key.ofByte_toByte]
    rfl

theorem key?_eq_none_iff (gesture : Gesture) :
    gesture.key? = none ↔ ∀ key : Key, gesture ≠ .press key.toByte := by
  simp only [Option.eq_none_iff_forall_ne_some, ne_eq, key?_eq_some_iff]

end Gesture

namespace Keypad

structure Recalls (keypad : Keypad) (gestures : List Gesture) : Prop where
  down : ∀ number, keypad.isDown number = true ↔
    number.toNat < Layout.keyCount ∧
      ∃ earlier later, gestures = earlier ++ .press number :: later ∧
        .press number ∉ later ∧ .release number ∉ later
  last : ∀ key, keypad.last = some key ↔
    ∃ earlier later, gestures = earlier ++ .press key.toByte :: later ∧
      ∀ other : Key, .press other.toByte ∉ later
  noLast : keypad.last = none ↔ ∀ key : Key, .press key.toByte ∉ gestures
  presses : keypad.presses = UInt64.ofNat (gestures.filterMap Gesture.key?).length
  stop : keypad.stopRequested = true ↔ .requestStop ∈ gestures

/-- A call with the number of a key does what the gesture does. With any other number it is refused,
and the gesture does nothing. -/
structure Answers (keypad : Keypad) (number : UInt8) (result : Except KeyFault Keypad)
    (gesture : Gesture) : Prop where
  accepted : number.toNat < Layout.keyCount → result = .ok (keypad.handle gesture)
  refused : Layout.keyCount ≤ number.toNat →
    result = .error ⟨number⟩ ∧ keypad.handle gesture = keypad

theorem exists_key {number : UInt8} (known : number.toNat < Layout.keyCount) :
    ∃ key, Key.ofByte number = .ok key :=
  ⟨_, dif_pos known⟩

theorem press_answers (keypad : Keypad) (number : UInt8) :
    keypad.Answers number (keypad.press number) (.press number) where
  accepted := by
    intro known
    obtain ⟨key, found⟩ := exists_key known
    rw [handle_press_of_key keypad number key found, press_of_key keypad number key found]
  refused := by
    intro unknown
    have fault := (Key.ofByte_eq_error_iff number _).mpr ⟨unknown, rfl⟩
    exact ⟨press_of_no_key keypad number _ fault, handle_press_of_no_key keypad number _ fault⟩

theorem release_answers (keypad : Keypad) (number : UInt8) :
    keypad.Answers number (keypad.release number) (.release number) where
  accepted := by
    intro known
    obtain ⟨key, found⟩ := exists_key known
    rw [handle_release_of_key keypad number key found]
    simp only [release, found, bind, Except.bind, pure, Except.pure]
  refused := by
    intro unknown
    have fault := (Key.ofByte_eq_error_iff number _).mpr ⟨unknown, rfl⟩
    exact ⟨(keypad.release_eq_error_iff number _).mpr ⟨unknown, rfl⟩,
      handle_release_of_no_key keypad number _ fault⟩

/-! ### Keys that are down -/

section

variable {keypad after : Keypad} {value : Bool} {number : UInt8}

theorem isDown_of_set {key : Key} (same : after.down = keypad.down.set key.val value key.isLt) :
    after.isDown number = if key.toByte = number then value else keypad.isDown number := by
  unfold isDown
  rw [same, Vector.getElem?_set]
  by_cases here : key.toByte = number
  · rw [if_pos here, ← here, Key.toNat_toByte, if_pos rfl]
    rfl
  · rw [if_neg here, if_neg]
    intro sameValue
    exact here (UInt8.toNat_inj.mp (key.toNat_toByte.trans sameValue))

/-- A call about a key sets what is known of that key, and a call about no key is refused. -/
theorem isDown_of_call {called : UInt8} (known : number.toNat < Layout.keyCount)
    (set : ∀ key, Key.ofByte called = .ok key → after.down = keypad.down.set key.val value key.isLt)
    (kept : ∀ fault, Key.ofByte called = .error fault → after = keypad) :
    some (after.isDown number) =
      (if called = number then some value else none).or (some (keypad.isDown number)) := by
  cases found : Key.ofByte called with
  | ok key =>
      rw [isDown_of_set (set key found), Key.toByte_of_ofByte found]
      by_cases here : called = number
      · rw [if_pos here, if_pos here, Option.some_or]
      · rw [if_neg here, if_neg here, Option.none_or]
  | error fault =>
      have unknown := ((Key.ofByte_eq_error_iff called fault).mp found).1
      have apart : called ≠ number := by
        rintro rfl
        omega
      rw [kept fault found, if_neg apart, Option.none_or]

end

theorem isDown_handle {number : UInt8} (known : number.toNat < Layout.keyCount) (keypad : Keypad)
    (gesture : Gesture) :
    some ((keypad.handle gesture).isDown number) =
      (gesture.leavesDown? number).or (some (keypad.isDown number)) := by
  cases gesture with
  | press pressed =>
      exact isDown_of_call known
        (fun key found => congrArg down (handle_press_of_key keypad pressed key found))
        (handle_press_of_no_key keypad pressed)
  | release released =>
      exact isDown_of_call known
        (fun key found => congrArg down (handle_release_of_key keypad released key found))
        (handle_release_of_no_key keypad released)
  | requestStop => rfl

theorem isDown_initial (number : UInt8) : initial.isDown number = false := by
  unfold isDown
  by_cases known : number.toNat < Layout.keyCount
  · rw [Vector.getElem?_eq_getElem known]
    exact Vector.getElem_replicate known
  · rw [Vector.getElem?_eq_none (Nat.le_of_not_lt known)]
    rfl

theorem isDown_after_gestures {number : UInt8} (known : number.toNat < Layout.keyCount)
    (gestures : List Gesture) :
    (gestures.foldl handle initial).isDown number = true ↔
      (gestures.filterMap (Gesture.leavesDown? number)).getLast? = some true := by
  have latest :=
    latest_of_foldl (fun keypad : Keypad => some (keypad.isDown number)) (isDown_handle known)
      initial gestures
  simp only [isDown_initial] at latest
  rw [← Option.some_inj, latest]
  cases (gestures.filterMap (Gesture.leavesDown? number)).getLast? with
  | none => decide
  | some down => rw [Option.some_or]

/-! ### Stop requests -/

def withStop (keypad : Keypad) (requested : Bool) : Keypad :=
  { keypad with stopRequested := requested }

theorem handle_withStop (keypad : Keypad) (requested : Bool) {gesture : Gesture}
    (calm : gesture ≠ .requestStop) :
    (keypad.withStop requested).handle gesture = (keypad.handle gesture).withStop requested := by
  cases gesture with
  | press number =>
      cases known : Key.ofByte number with
      | ok key =>
          rw [handle_press_of_key _ number key known, handle_press_of_key _ number key known]
          rfl
      | error fault =>
          rw [handle_press_of_no_key _ number fault known,
            handle_press_of_no_key _ number fault known]
  | release number =>
      cases known : Key.ofByte number with
      | ok key =>
          rw [handle_release_of_key _ number key known, handle_release_of_key _ number key known]
          rfl
      | error fault =>
          rw [handle_release_of_no_key _ number fault known,
            handle_release_of_no_key _ number fault known]
  | requestStop => exact absurd rfl calm

theorem withStop_of_calm {first second : Keypad} {requested : Bool}
    (same : first.withStop requested = second.withStop requested) (gestures : List Gesture) :
    ((gestures.filter (· ≠ .requestStop)).foldl handle first).withStop requested =
      (gestures.foldl handle second).withStop requested := by
  induction gestures generalizing first second with
  | nil => exact same
  | cons gesture rest ih =>
      by_cases calm : gesture = .requestStop
      · subst calm
        exact ih same
      · rw [List.filter_cons, if_pos (decide_eq_true calm)]
        apply ih
        rw [← handle_withStop first requested calm, ← handle_withStop second requested calm, same]

/-! ### The law -/

theorem last_of_gestures (gestures : List Gesture) :
    (gestures.foldl handle initial).last = (gestures.filterMap Gesture.key?).getLast? :=
  (last_after_gestures initial gestures).trans Option.or_none

theorem recalls_after_gestures (gestures : List Gesture) :
    (gestures.foldl handle initial).Recalls gestures where
  down := by
    intro number
    by_cases known : number.toNat < Layout.keyCount
    · rw [isDown_after_gestures known, latest_eq_some_iff, and_iff_right known]
      constructor
      · rintro ⟨earlier, gesture, later, split, presses, spares⟩
        rw [(Gesture.leavesDown?_eq_true_iff number gesture).mp presses] at split
        refine ⟨earlier, later, split, ?_, ?_⟩
        · intro member
          exact ((Gesture.leavesDown?_eq_none_iff number _).mp (spares _ member)).1 rfl
        · intro member
          exact ((Gesture.leavesDown?_eq_none_iff number _).mp (spares _ member)).2 rfl
      · rintro ⟨earlier, later, split, noPress, noRelease⟩
        refine ⟨earlier, _, later, split, (Gesture.leavesDown?_eq_true_iff number _).mpr rfl, ?_⟩
        intro other member
        apply (Gesture.leavesDown?_eq_none_iff number other).mpr
        exact ⟨fun same => noPress (same ▸ member), fun same => noRelease (same ▸ member)⟩
    · rw [isDown_of_unknown _ number (Nat.le_of_not_lt known)]
      exact iff_of_false Bool.false_ne_true (fun facts => known facts.1)
  last := by
    intro key
    rw [last_of_gestures, latest_eq_some_iff]
    constructor
    · rintro ⟨earlier, gesture, later, split, presses, spares⟩
      rw [(gesture.key?_eq_some_iff key).mp presses] at split
      refine ⟨earlier, later, split, ?_⟩
      intro other member
      have pressed := (Gesture.key?_eq_some_iff _ other).mpr rfl
      rw [spares _ member] at pressed
      cases pressed
    · rintro ⟨earlier, later, split, spares⟩
      refine ⟨earlier, _, later, split, (Gesture.key?_eq_some_iff _ key).mpr rfl, ?_⟩
      intro other member
      rw [Gesture.key?_eq_none_iff]
      rintro pressed rfl
      exact spares pressed member
  noLast := by
    rw [last_of_gestures, List.getLast?_eq_none_iff, List.filterMap_eq_nil_iff]
    constructor
    · intro spares key member
      exact (Gesture.key?_eq_none_iff _).mp (spares _ member) key rfl
    · intro spares gesture member
      rw [Gesture.key?_eq_none_iff]
      rintro key rfl
      exact spares key member
  presses := by
    rw [presses_after_gestures]
    exact UInt64.zero_add _
  stop := by
    rw [stopRequested_after_gestures]
    exact or_iff_right Bool.false_ne_true

/-- Through every handle to a new keypad one sees what all the gestures have left that were made
through any of them.

A number that names no key is refused, by presses and releases alike, and nothing changes. The keys
do not depend on the stop requests in between. -/
theorem key_law (holders : Shared Keypad) (uses : List (Shared.Use Keypad Gesture)) :
    let place := holders.states.length
    let created := holders.create initial
    let reached := created.actAll handle uses
    let gestures := created.changesTo handle place uses
    ∀ handle, reached.Refers handle place →
      ∃ keypad, reached.read? handle = some keypad ∧ keypad.Recalls gestures ∧
        (∀ key, keypad.last = some key → key.toByte.toNat < Layout.keyCount) ∧
        (∀ number, keypad.Answers number (keypad.press number) (.press number) ∧
          keypad.Answers number (keypad.release number) (.release number)) ∧
        ((gestures.filter (· ≠ .requestStop)).foldl Keypad.handle initial).withStop
          keypad.stopRequested = keypad := by
  intro place created reached gestures handle refers
  have read := Shared.read_of_actAll (holders.getElem?_create initial) uses refers
  refine ⟨_, read, recalls_after_gestures gestures, ?_, ?_, withStop_of_calm rfl gestures⟩
  · intro key _
    rw [Key.toNat_toByte]
    exact key.isLt
  · intro number
    exact ⟨press_answers _ number, release_answers _ number⟩

/-- Key 4 is pressed through a clone and released through its original, which does not make it any
less the last key; 16 names no key. -/
theorem key_law_of_released_key :
    let holders : Shared Keypad := { states := [], handles := [], placed := by decide }
    let uses : List (Shared.Use Keypad Gesture) :=
      [.clone 0, .change 0 (.press 11), .change 1 (.press 4), .change 1 .requestStop,
        .change 0 (.release 4), .change 1 (.press 16)]
    let reached := (holders.create initial).actAll handle uses
    reached.Refers 1 0 ∧
      ∃ keypad, reached.read? 1 = some keypad ∧ keypad.isDown 11 = true ∧ keypad.isDown 16 = false ∧
        keypad.last = some 4 ∧ keypad.presses = 2 ∧ keypad.stopRequested = true ∧
        keypad.press 16 = .error ⟨16⟩ := by
  intro holders uses reached
  have refers : reached.Refers 1 0 := by decide
  obtain ⟨keypad, read, recalls, _, answers, _⟩ := key_law holders uses 1 refers
  refine ⟨refers, keypad, read, ?_, ?_, ?_, ?_, ?_, ?_⟩
  · apply (recalls.down 11).mpr
    exact ⟨by decide, [], [.press 4, .requestStop, .release 4, .press 16],
      by decide, by decide, by decide⟩
  · apply Bool.eq_false_iff.mpr
    intro down
    exact absurd ((recalls.down 16).mp down).1 (by decide)
  · exact (recalls.last 4).mpr
      ⟨[.press 11], [.requestStop, .release 4, .press 16], by decide, by decide⟩
  · exact recalls.presses
  · exact recalls.stop.mpr (by decide)
  · exact ((answers 16).1.refused (by decide)).1

end Keypad

end Chip8Machine
