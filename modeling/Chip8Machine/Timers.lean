import Chip8Machine.Layout

/-!
The delay timer and the sound timer. Both count down to zero, one at every tick.

A tone sounds while the sound timer is above zero. Whoever listens is told when it has to start and
when it has to stop, which is exactly when the timer crosses between zero and a larger value.
-/

set_option autoImplicit false

namespace Chip8Machine

inductive Tone where
  | start
  | stop
  deriving DecidableEq, Repr

/-- What a change of the sound timer tells the listener, if it tells anything. -/
def Tone.between (before after : UInt8) : Option Tone :=
  if before = 0 then
    if after = 0 then none else some .start
  else
    if after = 0 then some .stop else none

/-- Who listens to the tone: nobody, or a listener with a number. -/
abbrev Listener := Option Nat

structure Notice where
  listener : Listener
  tone : Tone
  deriving DecidableEq, Repr

structure Timers where
  delay : UInt8 := 0
  sound : UInt8 := 0
  listener : Listener := none
  deriving DecidableEq, Repr

def countDown (value : UInt8) : UInt8 := if value = 0 then 0 else value - 1

namespace Timers

def initial (listener : Listener) : Timers := { listener := listener }

def setDelay (timers : Timers) (value : UInt8) : Timers := { timers with delay := value }

def setListener (timers : Timers) (listener : Listener) : Timers :=
  { timers with listener := listener }

def noticeOf? (timers : Timers) (value : UInt8) : Option Notice :=
  (Tone.between timers.sound value).map fun tone => ⟨timers.listener, tone⟩

def setSound (timers : Timers) (value : UInt8) : Timers × Option Notice :=
  ({ timers with sound := value }, timers.noticeOf? value)

def tick (timers : Timers) : Timers × Option Notice :=
  ({ timers with delay := countDown timers.delay, sound := countDown timers.sound },
    timers.noticeOf? (countDown timers.sound))

inductive Change where
  | setDelay (value : UInt8)
  | setSound (value : UInt8)
  | setListener (listener : Listener)
  | tick
  deriving DecidableEq, Repr

def apply (timers : Timers) : Change → Timers × Option Notice
  | .setDelay value => (timers.setDelay value, none)
  | .setSound value => timers.setSound value
  | .setListener listener => (timers.setListener listener, none)
  | .tick => timers.tick

def applyAll (timers : Timers) : List Change → Timers × List Notice
  | [] => (timers, [])
  | change :: rest =>
      let (changed, notice) := timers.apply change
      let (last, notices) := changed.applyAll rest
      (last, notice.toList ++ notices)

def describe (timers : Timers) : String :=
  "Timers \x7b delay: " ++ toString timers.delay.toNat ++ ", sound: " ++
    toString timers.sound.toNat ++ " \x7d"

end Timers

/-- Counting down is subtraction that stops at zero. -/
theorem toNat_countDown (value : UInt8) : (countDown value).toNat = value.toNat - 1 := by
  unfold countDown
  split
  · rename_i zero
    rw [zero]
    rfl
  · rename_i nonzero
    have positive : 0 < value.toNat := by
      apply Nat.pos_of_ne_zero
      intro zero
      exact nonzero (UInt8.toNat_inj.mp zero)
    have atLeastOne : (1 : UInt8) ≤ value := UInt8.le_iff_toNat_le.mpr positive
    rw [UInt8.toNat_sub_of_le _ _ atLeastOne]
    rfl

theorem Tone.between_eq_start_iff (before after : UInt8) :
    Tone.between before after = some .start ↔ before = 0 ∧ after ≠ 0 := by
  unfold Tone.between
  by_cases before = 0 <;> by_cases after = 0 <;> simp_all

theorem Tone.between_eq_stop_iff (before after : UInt8) :
    Tone.between before after = some .stop ↔ before ≠ 0 ∧ after = 0 := by
  unfold Tone.between
  by_cases before = 0 <;> by_cases after = 0 <;> simp_all

namespace Timers

/-- A new sound value starts or stops the tone by where it comes from and where it goes. -/
theorem setSound_eq (timers : Timers) (value : UInt8) :
    timers.setSound value =
      ({ timers with sound := value },
        match timers.sound, value with
        | 0, 0 => none
        | 0, _ => some ⟨timers.listener, .start⟩
        | _, 0 => some ⟨timers.listener, .stop⟩
        | _, _ => none) := by
  unfold setSound noticeOf? Tone.between
  by_cases silent : timers.sound = 0
  · by_cases still : value = 0
    · simp [silent, still]
    · simp [silent, still]
  · by_cases fallen : value = 0
    · simp [silent, fallen]
    · simp [silent, fallen]

/-- A tick counts the sound timer down only above zero, and only then it can end the tone. -/
theorem tick_eq (timers : Timers) :
    timers.tick =
      if 0 < timers.sound then
        let after := { timers with delay := countDown timers.delay, sound := timers.sound - 1 }
        if timers.sound - 1 = 0 then (after, some ⟨timers.listener, .stop⟩) else (after, none)
      else ({ timers with delay := countDown timers.delay }, none) := by
  unfold tick noticeOf? Tone.between
  by_cases silent : timers.sound = 0
  · have still : ¬ 0 < timers.sound := by rw [silent]; decide
    have stays : countDown timers.sound = timers.sound := by rw [silent]; rfl
    rw [if_neg still, stays, if_pos silent, if_pos silent]
    rfl
  · have loud : 0 < timers.sound := by
      rw [UInt8.lt_iff_toNat_lt]
      exact Nat.pos_of_ne_zero fun zero => silent (UInt8.toNat_inj.mp zero)
    have falls : countDown timers.sound = timers.sound - 1 := if_neg silent
    rw [if_pos loud, falls, if_neg silent]
    by_cases fallen : timers.sound - 1 = 0
    · rw [if_pos fallen, if_pos fallen]
      rfl
    · rw [if_neg fallen, if_neg fallen]
      rfl

end Timers
end Chip8Machine
