import Chip8Machine.Proofs.EngineRest
import Chip8Machine.Proofs.StopRequest

/-!
An engine whose display has raised an exception is lost, and nobody tidies up behind it.

The thread goes down with the exception before it comes to its request to stop and to the end of the
tone, and with it the machine. The owner who collects it gets the exception, but the engine keeps no
reason: from then on it counts as ready, although it cannot be started.
-/

set_option autoImplicit false

namespace Chip8Machine

namespace Engine

/-- The engine counts as ready, has no machine, and does nothing that its owner tells it. -/
structure Lost (engine : Engine) : Prop where
  state : engine.state = .ready
  empty : engine.machine? = none
  start : engine.start = engine
  stop : engine.stop = engine
  join : engine.join = some (engine, .nothing)

end Engine

namespace Scene

/-- The step is one of the thread, of the owner who does not request a stop, or of the metronome's
job that does not let the timers tick. -/
def Move.Plain (move : Move) : Prop := move ≠ .tick ∧ move.gesture? = none

instance (move : Move) : Decidable move.Plain :=
  inferInstanceAs (Decidable (move ≠ .tick ∧ move.gesture? = none))

variable {surroundings : Surroundings}

theorem At.lost {scene : Scene} (place : scene.At .lost) : scene.engine.Lost := by
  have away : scene.engine.atHand = false := place.atHand
  have absent : scene.engine.thread? = none := place.thread
  have unsettled : scene.engine.halt? = none := place.halt
  have ready : scene.engine.state = .ready := by
    simp only [Engine.state, absent, unsettled]
  constructor
  · exact ready
  · simp only [Engine.machine?, away]
    rfl
  · exact Engine.start_of_used (.inl away)
  · simp only [Engine.stop, ready]
  · simp only [Engine.join, Engine.collect, absent, Engine.report, unsettled]
    rfl

/-- A thread that goes down with an exception leaves the machine as the display has left it. -/
theorem Progress.machine_of_raised {move : Move} {stage after : Stage} {machine next : Machine}
    {text : String} (progress : Progress surroundings move stage machine after next)
    (raised : stage.Behind (.raised text)) (plain : move.Plain) : next = machine := by
  cases progress with
  | thread thread =>
      rcases raised with ended | lost
      · cases thread with
        | looping phase =>
            cases phase with
            | ended ending =>
                cases ended
                rfl
            | _ => cases ended
        | died other => rfl
        | requestStop halt | silence halt | ended halt => cases ended
      · cases lost
  | gesture move gesture stage machine uses =>
      rw [plain.2] at uses
      cases uses
  | tick => exact absurd rfl plain.1
  | start | collect | lose | leave | same => rfl

theorem machine_of_raised {scene reached : Scene} {stage : Stage} {text : String}
    {later : List Move} (place : scene.At stage) (raised : stage.Behind (.raised text))
    (plain : ∀ move ∈ later, move.Plain) (course : scene.moves? surroundings later = some reached) :
    reached.engine.machine = scene.engine.machine := by
  induction later generalizing scene stage with
  | nil =>
      cases course
      rfl
  | cons move rest ih =>
      obtain ⟨next, made, onward⟩ := exists_of_run_cons course
      obtain ⟨after, nextPlace, progress⟩ := progress_of_move place made
      have same := progress.machine_of_raised raised (plain move List.mem_cons_self)
      have behind := (progress.behind raised).1
      exact (ih nextPlace behind (fun other member => plain other (List.mem_cons_of_mem _ member))
        onward).trans same

theorem lost_of_no_thread {scene : Scene} {stage : Stage} {text : String} (place : scene.At stage)
    (raised : stage.Behind (.raised text)) (absent : scene.engine.thread? = none) :
    stage = .lost := by
  have idle : stage.thread? = none := place.thread.symm.trans absent
  rcases raised with ended | lost
  · cases stage with
    | active thread => cases idle
    | settled halt => cases ended
    | ready | lost => cases ended
  · exact lost

theorem Progress.lost {move : Move} {after : Stage} {machine next : Machine}
    (progress : Progress surroundings move .lost machine after next) : after = .lost := by
  cases progress <;> rfl

theorem lost_of_moves {scene reached : Scene} {moves : List Move} (place : scene.At .lost)
    (course : scene.moves? surroundings moves = some reached) : reached.At .lost := by
  refine invariant_of_run (fun current : Scene => current.At .lost) ?_ place course
  intro current move next holds made
  obtain ⟨after, nextPlace, progress⟩ := progress_of_move holds made
  rw [progress.lost] at nextPlace
  exact nextPlace

/-- The owner joins a thread that has died. -/
theorem join_of_died {scene : Scene} {text : String}
    (died : scene.engine.thread? = some (.died text)) (free : scene.owner = .free)
    (idle : scene.ticking = false) :
    ∃ joined, scene.moves? surroundings [.join, .settle] = some joined ∧
      joined.results = .raised text :: scene.results ∧ joined.engine.thread? = none := by
  have collected :
      scene.engine.collect = some ({ scene.engine with thread? := none }, .raised text) := by
    simp only [Engine.collect, died]
  have joins : scene.move? surroundings .join = some { scene with
      engine := { scene.engine with thread? := none }
      owner := .settling (.raised text) } := by
    simp only [move?, free, collected, died]
    rfl
  refine ⟨{ scene with
    engine := ({ scene.engine with thread? := none } : Engine).stopMetronome
    owner := .free
    results := .raised text :: scene.results }, ?_, rfl, rfl⟩
  refine (run_cons_of_made joins _).trans (run_cons_of_made ?_ [])
  simp only [move?, idle]
  rfl

/-- Behind an exception of the display, whatever was sounding and requested before.

The thread ends with the exception and leaves the machine as the display has left it: it requests no
stop and ends no tone, and neither does the owner's join, which passes the exception on. Once the
thread is collected the engine is lost for good. It counts as ready, and no start, stop or join does
anything any more. Of the tones that were told since the listener was installed, the last has not
been stopped unless the sound timer is zero; a listener that the display keeps has been told all of
them. -/
theorem raised_engine_is_lost {machine : Machine} {happenings : List Happening} {pace : Pace}
    {earlier later : List Move} {scene reached : Scene} {text : String}
    (silent : machine.timers.sound = 0)
    (before :
      (opening (machine.happenAll surroundings happenings) pace).moves? surroundings earlier =
        some scene)
    (raised : scene.engine.ending? = some (.raised text))
    (onward : scene.moves? surroundings later = some reached) :
    (scene.engine.thread? = some (.died text) → scene.engine.state = .stopped ∧
      (scene.owner = .free → scene.ticking = false → ∃ joined,
        scene.moves? surroundings [.join, .settle] = some joined ∧
        joined.results = .raised text :: scene.results ∧ joined.engine.thread? = none)) ∧
    ((∀ move ∈ later, move.Plain) → reached.engine.machine = scene.engine.machine) ∧
    (reached.engine.thread? = none → reached.engine.Lost ∧
      ∀ more last, reached.moves? surroundings more = some last → last.engine.Lost) ∧
    ∃ told, reached.engine.machine.notices = told ++ machine.notices ∧
      (surroundings.KeepsListener → ∀ notice ∈ told, notice.listener = machine.timers.listener) ∧
      (told.map Notice.tone).count .start = (told.map Notice.tone).count .stop +
        if reached.engine.machine.timers.sound = 0 then 0 else 1 := by
  obtain ⟨stage, place, earlierLeads⟩ := leadsTo_of_moves (at_opening _ pace) before
  have behind : stage.Behind (.raised text) := .inl (place.ending.symm.trans raised)
  obtain ⟨_, _, later⟩ := leadsTo_of_moves place onward
  obtain ⟨_, _, after, reachedPlace, stillBehind⟩ := rests_of_behind place behind onward
  refine ⟨?_, ?_, ?_, ?_⟩
  · intro died
    refine ⟨?_, join_of_died died⟩
    rw [place.state, Stage.eq_active_of_thread (place.thread.symm.trans died)]
    rfl
  · intro plain
    exact machine_of_raised place behind plain onward
  · intro absent
    cases lost_of_no_thread reachedPlace stillBehind absent
    refine ⟨reachedPlace.lost, ?_⟩
    intro more last course
    exact (lost_of_moves reachedPlace course).lost
  · have played :=
      (machine.happenAll_leadsTo surroundings happenings).trans (earlierLeads.trans later)
    exact played.tones silent

section

def fragile : Surroundings := { display := fun _ => [.raise "broken"], tone := fun _ => [] }

def loud : Scene :=
  opening ((Machine.fresh .zeros (some 0)).happenAll fragile
    [.load [0x60, 0xFF, 0xF0, 0x18, 0x00, 0xE0]]) .standard

def untilDeath : List Move := .start :: List.replicate 10 .thread

theorem raised_engine_is_lost_in_a_tone :
    ∃ scene reached, loud.moves? fragile untilDeath = some scene ∧
      scene.engine.ending? = some (.raised "broken") ∧
      scene.moves? fragile [.join, .settle] = some reached ∧
      reached.engine.machine = scene.engine.machine ∧ reached.engine.Lost := by
  have courses : (loud.moves? fragile untilDeath).bind
      (fun scene => (scene.moves? fragile [.join, .settle]).map fun reached =>
        (scene.engine.ending?, reached.engine.thread?)) = some (some (.raised "broken"), none) := by
    decide +kernel
  obtain ⟨scene, before, rest⟩ := Option.bind_eq_some_iff.mp courses
  obtain ⟨reached, onward, facts⟩ := Option.map_eq_some_iff.mp rest
  injection facts with raised absent
  have facts := raised_engine_is_lost rfl before raised onward
  exact ⟨scene, reached, before, raised, onward, facts.2.1 (by decide), (facts.2.2.1 absent).1⟩

/-- Neither is the state final, nor are a stop requested and the tone ended behind the exception. -/
theorem stopped_not_final :
    ∃ scene reached, loud.moves? fragile untilDeath = some scene ∧ scene.engine.state = .stopped ∧
      scene.moves? fragile [.join, .settle] = some reached ∧ reached.results = [.raised "broken"] ∧
      reached.engine.state = .ready ∧ reached.engine.machine.keypad.stopRequested = false ∧
      reached.engine.machine.timers.sound = 255 ∧ reached.engine.machine.toneCount .start = 1 ∧
      reached.engine.machine.toneCount .stop = 0 := by
  have courses : (loud.moves? fragile untilDeath).bind
      (fun scene => (scene.moves? fragile [.join, .settle]).map fun reached =>
        (reached.results, [scene.engine.state, reached.engine.state],
          reached.engine.machine.keypad.stopRequested,
          [reached.engine.machine.timers.sound.toNat, reached.engine.machine.toneCount .start,
            reached.engine.machine.toneCount .stop])) =
      some ([.raised "broken"], [.stopped, .ready], false, [255, 1, 0]) := by
    decide +kernel
  obtain ⟨scene, before, rest⟩ := Option.bind_eq_some_iff.mp courses
  obtain ⟨reached, onward, facts⟩ := Option.map_eq_some_iff.mp rest
  simp only [Prod.mk.injEq, List.cons.injEq, and_true] at facts
  obtain ⟨passed, ⟨stopped, ready⟩, unrequested, sound, started, unstopped⟩ := facts
  exact ⟨scene, reached, before, stopped, onward, passed, ready, unrequested,
    UInt8.toNat_inj.mp sound, started, unstopped⟩

end

end Scene

end Chip8Machine
