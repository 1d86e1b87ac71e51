import Chip8Machine.Keypad
import Chip8Machine.Timers

/-!
The keypad and the timers: the part of a machine that others reach as well while a program runs.

Whoever listens to the tone may answer a notice with gestures on the keypad. It is told while the
timers are locked, so it cannot change them. What the listener does is a function of all the notices
so far, the latest first, so that it can depend on the past.
-/

set_option autoImplicit false

namespace Chip8Machine

/-- What the listener does once it has been told the first of the given notices. -/
abbrev ToneListener := List Notice → List Gesture

structure Peripherals where
  keypad : Keypad := {}
  timers : Timers := {}
  notices : List Notice := []

namespace Peripherals

def handle (peripherals : Peripherals) (gesture : Gesture) : Peripherals :=
  { peripherals with keypad := peripherals.keypad.handle gesture }

/-- Puts changed timers into place. If the change comes with a notice, the notice is recorded and
its listener answers. -/
def settle (listener : ToneListener) (peripherals : Peripherals) :
    Timers × Option Notice → Peripherals
  | (timers, none) => { peripherals with timers := timers }
  | (timers, some notice) =>
      let notices := notice :: peripherals.notices
      let gestures := if notice.listener.isSome then listener notices else []
      { keypad := gestures.foldl Keypad.handle peripherals.keypad
        timers := timers
        notices := notices }

def change (listener : ToneListener) (peripherals : Peripherals)
    (change : Timers.Change) : Peripherals :=
  peripherals.settle listener (peripherals.timers.apply change)

def setDelay (peripherals : Peripherals) (value : UInt8) : Peripherals :=
  { peripherals with timers := peripherals.timers.setDelay value }

def setSound (listener : ToneListener) (peripherals : Peripherals) (value : UInt8) : Peripherals :=
  peripherals.settle listener (peripherals.timers.setSound value)

def tick (listener : ToneListener) (peripherals : Peripherals) : Peripherals :=
  peripherals.settle listener peripherals.timers.tick

def beat (listener : ToneListener) (peripherals : Peripherals) : Peripherals :=
  if peripherals.keypad.stopRequested then peripherals else peripherals.tick listener

def toneCount (peripherals : Peripherals) (tone : Tone) : Nat :=
  peripherals.notices.countP fun notice => notice.listener.isSome && notice.tone == tone

end Peripherals

end Chip8Machine
