import Chip8Machine.Loop

/-!
An engine runs a machine's loop on a thread of its own, while a metronome lets the timers tick.

An engine is started once. When the loop has halted, its thread requests a stop, which silences the
metronome, and ends a tone that still sounds. The owner can collect the machine and the reason from
the ended thread. If the display raises an exception, the thread dies with the machine, and the
exception is what the owner collects.

An engine tells whether its machine is at hand; the peripherals can be reached wherever the machine
is. It keeps the reason once that was collected, and all calls of the metronome, the latest first.
-/

set_option autoImplicit false

namespace Chip8Machine

/-- The rates of an engine, as the least number of nanoseconds between two events. They decide when
a step of the loop or a beat comes, but not what it does. -/
structure Pace where
  instruction : Option Nat := some (Layout.instructionInterval * 1000000)
  timer : Nat := Layout.timerInterval
  deriving DecidableEq, Repr

def Pace.standard : Pace := {}

def Pace.unthrottled : Pace := { instruction := none }

inductive Thread where
  | looping (phase : Phase)
  | requestStop (halt : Halt)
  | silence (halt : Halt)
  | ended (halt : Halt)
  | died (text : String)
  deriving DecidableEq, Repr

namespace Thread

def advance (surroundings : Surroundings) (thread : Thread) (machine : Machine) :
    Thread × Machine :=
  match thread with
  | .looping (.ended (.halted halt)) => (.requestStop halt, machine)
  | .looping (.ended (.raised text)) => (.died text, machine)
  | .looping phase =>
      let (phase, machine) := phase.advance surroundings machine
      (.looping phase, machine)
  | .requestStop halt => (.silence halt, machine.handle .requestStop)
  | .silence halt =>
      (.ended halt, machine.withPeripherals (machine.toPeripherals.setSound surroundings.tone 0))
  | .ended halt => (.ended halt, machine)
  | .died text => (.died text, machine)

def isOver : Thread → Bool
  | .ended _ => true
  | .died _ => true
  | _ => false

end Thread

inductive EngineState where
  | ready
  | running
  | stopped
  deriving DecidableEq, Repr

inductive MetronomeCall where
  | start (interval : Nat)
  | stop
  deriving DecidableEq, Repr

inductive Joined where
  | nothing
  | halted (halt : Halt)
  | raised (text : String)
  deriving DecidableEq, Repr

structure Engine where
  machine : Machine
  pace : Pace := {}
  atHand : Bool := true
  thread? : Option Thread := none
  halt? : Option Halt := none
  calls : List MetronomeCall := []

namespace Engine

def machine? (engine : Engine) : Option Machine :=
  if engine.atHand then some engine.machine else none

/-- An engine with neither thread nor reason counts as ready, also if it has lost its machine. -/
def state (engine : Engine) : EngineState :=
  match engine.thread?, engine.halt? with
  | _, some _ => .stopped
  | some thread, none => if thread.isOver then .stopped else .running
  | none, none => .ready

/-- The metronome beats if starting it was the last thing it was told. -/
def metronomeRuns (engine : Engine) : Bool :=
  match engine.calls with
  | .start _ :: _ => true
  | _ => false

def withPeripherals (engine : Engine) (peripherals : Peripherals) : Engine :=
  { engine with machine := engine.machine.withPeripherals peripherals }

def handle (engine : Engine) (gesture : Gesture) : Engine :=
  engine.withPeripherals (engine.machine.toPeripherals.handle gesture)

/-- Starts the metronome and the thread, which takes the machine. An engine whose machine is not at
hand, or is back with a reason, was started before. -/
def start (engine : Engine) : Engine :=
  match engine.atHand, engine.halt? with
  | true, none =>
      { engine with
        atHand := false
        thread? := some (.looping .checkStop)
        calls := .start engine.pace.timer :: engine.calls }
  | _, _ => engine

def stop (engine : Engine) : Engine :=
  match engine.state with
  | .running => engine.handle .requestStop
  | _ => engine

def advanceThread (engine : Engine) (surroundings : Surroundings) : Engine :=
  match engine.thread? with
  | some thread =>
      let (thread, machine) := thread.advance surroundings engine.machine
      { engine with thread? := some thread, machine := machine }
  | none => engine

def stopMetronome (engine : Engine) : Engine :=
  { engine with calls := .stop :: engine.calls }

def report (engine : Engine) : Joined :=
  match engine.halt? with
  | some halt => .halted halt
  | none => .nothing

/-- Takes what an ended thread has left. There is no result while the thread still runs. -/
def collect (engine : Engine) : Option (Engine × Joined) :=
  match engine.thread? with
  | none => some (engine, engine.report)
  | some (.ended halt) =>
      some ({ engine with atHand := true, thread? := none, halt? := some halt }, .halted halt)
  | some (.died text) => some ({ engine with thread? := none }, .raised text)
  | some _ => none

def join (engine : Engine) : Option (Engine × Joined) :=
  match engine.collect with
  | some (collected, joined) =>
      if engine.thread?.isSome then some (collected.stopMetronome, joined)
      else some (collected, joined)
  | none => none

def vacate (engine : Engine) : Engine :=
  { engine with atHand := false, thread? := none, halt? := none }

/-- The last part of dropping an engine, once a stop has been requested: there is no result while
its thread still runs. -/
def release (engine : Engine) : Option Engine :=
  match engine.collect with
  | some (collected, _) => some collected.stopMetronome.vacate
  | none => none

def beat (engine : Engine) (surroundings : Surroundings) : Engine :=
  engine.withPeripherals (engine.machine.toPeripherals.beat surroundings.tone)

end Engine

end Chip8Machine
