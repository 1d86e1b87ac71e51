import Chip8Machine.Engine

/-!
All orders of events around an engine: its thread, the job of its metronome, the owner, and others
who reach the keypad.

The metronome's job looks for a stop request in one step and lets the timers tick in another. The
owner stops the engine in two steps, joins it in two, and drops it in three; to stop the metronome
it waits until the job is not being called. The job may be called at any time once it exists, also
by a metronome that was told to stop.

A scene is `ticking` once the job has found no stop request, until it lets the timers tick. An owner
who is `dropping` the engine waits for the thread; one who is `settling` or `closing` has collected
it, and stops the metronome next. What the joins have returned is kept, the latest first.

`Scene.move?` lists the steps, which can happen in any order that their conditions allow.
-/

set_option autoImplicit false

namespace Chip8Machine

inductive EngineOwner where
  | free
  | stopping
  | settling (joined : Joined)
  | dropping
  | closing
  | departed
  deriving DecidableEq, Repr

structure Scene where
  engine : Engine
  ticking : Bool := false
  owner : EngineOwner := .free
  results : List Joined := []

namespace Scene

inductive Move where
  | thread
  | look
  | tick
  | gesture (gesture : Gesture)
  | start
  | stop
  | requestStop
  | join
  | settle
  | drop
  | collect
  | close
  deriving DecidableEq, Repr

/-- The metronome's job exists, which it does from the first start on. -/
def hasJob (scene : Scene) : Bool :=
  scene.engine.calls.any fun call => call != .stop

def move? (surroundings : Surroundings) (scene : Scene) : Move → Option Scene
  | .thread =>
      match scene.engine.thread? with
      | some _ => some { scene with engine := scene.engine.advanceThread surroundings }
      | none => none
  | .look =>
      if scene.hasJob && !scene.ticking then
        some { scene with ticking := !scene.engine.machine.keypad.stopRequested }
      else none
  | .tick =>
      if scene.ticking then
        let peripherals := scene.engine.machine.toPeripherals.tick surroundings.tone
        some { scene with engine := scene.engine.withPeripherals peripherals, ticking := false }
      else none
  | .gesture gesture => some { scene with engine := scene.engine.handle gesture }
  | .start =>
      match scene.owner with
      | .free => some { scene with engine := scene.engine.start }
      | _ => none
  | .stop =>
      match scene.owner, scene.engine.state with
      | .free, .running => some { scene with owner := .stopping }
      | .free, _ => some scene
      | _, _ => none
  | .requestStop =>
      match scene.owner with
      | .stopping => some { scene with engine := scene.engine.handle .requestStop, owner := .free }
      | _ => none
  | .join =>
      match scene.owner, scene.engine.collect with
      | .free, some (engine, joined) =>
          if scene.engine.thread?.isSome then
            some { scene with engine := engine, owner := .settling joined }
          else
            some { scene with engine := engine, results := joined :: scene.results }
      | _, _ => none
  | .settle =>
      match scene.owner with
      | .settling joined =>
          if scene.ticking then none
          else
            some { scene with
              engine := scene.engine.stopMetronome
              owner := .free
              results := joined :: scene.results }
      | _ => none
  | .drop =>
      match scene.owner with
      | .free => some { scene with engine := scene.engine.handle .requestStop, owner := .dropping }
      | _ => none
  | .collect =>
      match scene.owner, scene.engine.collect with
      | .dropping, some (engine, _) => some { scene with engine := engine, owner := .closing }
      | _, _ => none
  | .close =>
      match scene.owner with
      | .closing =>
          if scene.ticking then none
          else
            some { scene with
              engine := scene.engine.stopMetronome.vacate
              owner := .departed }
      | _ => none

def moves? (surroundings : Surroundings) (scene : Scene) (moves : List Move) : Option Scene :=
  moves.foldlM (move? surroundings) scene

end Scene

end Chip8Machine
