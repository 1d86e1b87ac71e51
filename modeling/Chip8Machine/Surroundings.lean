import Chip8Machine.Frame
import Chip8Machine.Peripherals

/-!
What a machine is connected to: a display, which is given frames, and a listener to the tone.

Both are described by what they do to the machine's peripherals when they are called. A display may
do more than a listener: it may change the timers in every way, their listener included, it may let
them tick unless a stop has been requested, and it may raise an exception, which ends the call at
once. What it does is a function of all the frames that it was shown, the latest first.
-/

set_option autoImplicit false

namespace Chip8Machine

inductive Reaction where
  | gesture (gesture : Gesture)
  | change (change : Timers.Change)
  | beat
  | raise (text : String)
  deriving DecidableEq, Repr

structure Surroundings where
  display : List Frame → List Reaction
  tone : ToneListener

namespace Surroundings

def quiet : Surroundings := { display := fun _ => [], tone := fun _ => [] }

/-- The display never raises an exception. -/
def Steady (surroundings : Surroundings) : Prop :=
  ∀ frames text, .raise text ∉ surroundings.display frames

/-- The display never replaces the listener. -/
def KeepsListener (surroundings : Surroundings) : Prop :=
  ∀ frames listener, .change (.setListener listener) ∉ surroundings.display frames

end Surroundings

namespace Peripherals

/-- Does the reactions one after the other. The text is that of the exception, if one is raised. -/
def react (listener : ToneListener) (peripherals : Peripherals) :
    List Reaction → Peripherals × Option String
  | [] => (peripherals, none)
  | .gesture gesture :: rest => (peripherals.handle gesture).react listener rest
  | .change change :: rest => (peripherals.change listener change).react listener rest
  | .beat :: rest => (peripherals.beat listener).react listener rest
  | .raise text :: _ => (peripherals, some text)

end Peripherals

end Chip8Machine
