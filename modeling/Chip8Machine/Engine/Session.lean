import Chip8Machine.Engine
import Chip8Machine.Loop.Attended
import Chip8Machine.Metronome

/-!
An engine with a fixed order of events: its thread moves on only while somebody waits for what it
does.

The metronome either beats when it is told to, or by itself at its pace. For that a session keeps a
clock, in nanoseconds since the start of the engine: a cycle takes a short time, a throttled loop
then sleeps until its time is over, and whoever waits for a thread that can do nothing waits for the
next beat. Waits for a key are answered by whoever uses the session, or by a list of answers.
-/

set_option autoImplicit false

namespace Chip8Machine

structure Session where
  engine : Engine
  surroundings : Surroundings
  answers : Option (List Answer) := none
  selfBeating : Bool := false
  clock : Nat := 0
  cycleStart : Nat := 0

namespace Session

/-- The nanoseconds that a cycle takes. -/
def cycleTime : Nat := 1000

def advance (session : Session) : Session :=
  match session.engine.thread?, session.answers with
  | some (.looping phase), some answers =>
      match phase with
      | .ended _ =>
          { session with engine := session.engine.advanceThread session.surroundings }
      | _ =>
          let run : AttendedRun :=
            { phase := phase, machine := session.engine.machine, answers := answers }
          let run := run.advance session.surroundings
          { session with
            engine := { session.engine with
              thread? := some (.looping run.phase)
              machine := run.machine }
            answers := some run.answers }
  | _, _ => { session with engine := session.engine.advanceThread session.surroundings }

/-- The time behind a step that led from one phase to another. Only a cycle takes time, and the
sleep at the end of a turn of a throttled loop, which is over a fixed time behind the start of the
cycle. -/
def timeAfter (session : Session) (before after : Phase) : Nat :=
  let interval := session.engine.pace.instruction.getD 0
  match before, after with
  | .cycle, .checkStop => session.clock + max cycleTime interval
  | .cycle, _ => session.clock + cycleTime
  | .receive _ _, .checkStop => max session.clock (session.cycleStart + interval)
  | _, _ => session.clock

def phase? (session : Session) : Option Phase :=
  match session.engine.thread? with
  | some (.looping phase) => some phase
  | _ => none

def advanceTimed (session : Session) : Session :=
  let advanced := session.advance
  match session.phase?, advanced.phase? with
  | some before, some after =>
      { advanced with
        clock := session.timeAfter before after
        cycleStart := if before == .cycle then session.clock else session.cycleStart }
  | _, _ => advanced

def rests (session : Session) : Bool :=
  match session.engine.thread? with
  | some (.looping phase) =>
      session.answers.isNone && phase.isBlocked session.engine.machine
  | some thread => thread.isOver
  | none => true

def period (session : Session) : Nat := max Metronome.shortestPeriod session.engine.pace.timer

/-- As many beats as are due between two times, if the metronome beats by itself and was not
stopped. Timers are bytes, so that no more than 255 beats in a row can change anything. -/
def selfBeat (session : Session) (earlier later : Nat) : Session :=
  let due := later / session.period - earlier / session.period
  if session.selfBeating && session.engine.metronomeRuns && due != 0 then
    { session with
      engine := (min due 255).fold (fun _ _ engine => engine.beat session.surroundings)
        session.engine }
  else session

def nextBeat (session : Session) : Nat := (session.clock / session.period + 1) * session.period

def turn (session : Session) : Session :=
  let turned :=
    if session.rests then { session with clock := session.nextBeat } else session.advanceTimed
  turned.selfBeat session.clock turned.clock

def isQuiet (session : Session) : Bool :=
  session.rests &&
    !(session.selfBeating && session.engine.metronomeRuns &&
      !session.engine.machine.keypad.stopRequested)

def await (wish : Engine → Bool) : Nat → Session → Session
  | 0, session => session
  | fuel + 1, session =>
      if wish session.engine || session.isQuiet then session
      else await wish fuel session.turn

def isWaiting (engine : Engine) : Bool :=
  match engine.thread? with
  | some (.looping (.sleep _ _)) => true
  | _ => false

def isOver (engine : Engine) : Bool :=
  match engine.thread? with
  | some thread => thread.isOver
  | none => true

def join (fuel : Nat) (session : Session) : Option (Session × Joined) :=
  let ended := session.await isOver fuel
  match ended.engine.join with
  | some (engine, joined) => some ({ ended with engine := engine }, joined)
  | none => none

def drop (fuel : Nat) (session : Session) : Option Session :=
  let stopping := { session with engine := session.engine.handle .requestStop }
  let ended := stopping.await isOver fuel
  match ended.engine.release with
  | some engine => some { ended with engine := engine }
  | none => none

def feed (fuel : Nat) (key : UInt8) (session : Session) : Session :=
  let waiting := session.await isWaiting fuel
  let pressed := { waiting with engine := waiting.engine.handle (.press key) }
  pressed.await (fun engine => !isWaiting engine) fuel

/-- Lets a metronome that beats when it is told to beat `count` times. The number is how many beats
there were: none if the metronome is not running. -/
def beat (session : Session) (count : Nat) : Session × Nat :=
  if session.selfBeating || !session.engine.metronomeRuns then (session, 0)
  else
    let engine := count.fold (fun _ _ engine => engine.beat session.surroundings) session.engine
    ({ session with engine := engine }, count)

end Session

end Chip8Machine
