import Chip8Machine.Engine.Scene
import Chip8Machine.Proofs.PeripheralHistory
import Chip8Machine.Proofs.Runs

/-!
What one step of somebody around an engine does.

`Scene.Step` has a constructor for each way in which a step is possible. `Scene.At` says that the
three places of an engine hold what belongs to one of four stages, and `Scene.Progress` what a step
makes of the stage and of the machine: the thread does its next step, or it is begun or collected,
or somebody reaches the peripherals.
-/

set_option autoImplicit false

namespace Chip8Machine

/-- How far an engine has come. The machine is at hand before the start and again once the thread
was collected with its reason; in between the thread has it, and it is lost with a thread that
dies. -/
inductive Stage where
  | ready
  | active (thread : Thread)
  | settled (halt : Halt)
  | lost
  deriving DecidableEq, Repr

namespace Stage

def atHand : Stage → Bool
  | .ready => true
  | .active _ => false
  | .settled _ => true
  | .lost => false

def thread? : Stage → Option Thread
  | .active thread => some thread
  | _ => none

def halt? : Stage → Option Halt
  | .settled halt => some halt
  | _ => none

def ending? : Stage → Option Ending
  | .active thread => thread.ending?
  | .settled halt => some (.halted halt)
  | _ => none

theorem eq_active_of_thread {stage : Stage} {thread : Thread}
    (present : stage.thread? = some thread) :
    stage = .active thread := by
  cases stage with
  | active other =>
      cases present
      rfl
  | ready | settled halt | lost => cases present

theorem eq_settled_of_halt {stage : Stage} {halt : Halt} (present : stage.halt? = some halt) :
    stage = .settled halt := by
  cases stage with
  | settled other =>
      cases present
      rfl
  | ready | active thread | lost => cases present

theorem eq_ready_of_atHand {stage : Stage} (atHand : stage.atHand = true)
    (fresh : stage.halt? = none) :
    stage = .ready := by
  cases stage with
  | ready => rfl
  | active thread | lost => cases atHand
  | settled halt => cases fresh

end Stage

namespace Engine

/-- How the loop has ended that the engine was running. An engine that has lost its machine does not
know. -/
def ending? (engine : Engine) : Option Ending :=
  match engine.thread?, engine.halt? with
  | some thread, _ => thread.ending?
  | none, some halt => some (.halted halt)
  | none, none => none

inductive Collects (engine : Engine) : Engine → Joined → Prop where
  | nobody (absent : engine.thread? = none) : Collects engine engine engine.report
  | halted (halt : Halt) (ended : engine.thread? = some (.ended halt)) :
      Collects engine { engine with atHand := true, thread? := none, halt? := some halt }
        (.halted halt)
  | raised (text : String) (died : engine.thread? = some (.died text)) :
      Collects engine { engine with thread? := none } (.raised text)

theorem collects_of_collect {engine collected : Engine} {joined : Joined}
    (success : engine.collect = some (collected, joined)) : engine.Collects collected joined := by
  unfold collect at success
  cases place : engine.thread? with
  | none =>
      simp only [place, Option.some.injEq, Prod.mk.injEq] at success
      obtain ⟨rfl, rfl⟩ := success
      exact .nobody place
  | some thread =>
      cases thread <;> simp only [place, reduceCtorEq, Option.some.injEq, Prod.mk.injEq] at success
      case ended halt =>
        obtain ⟨rfl, rfl⟩ := success
        exact .halted halt place
      case died text =>
        obtain ⟨rfl, rfl⟩ := success
        exact .raised text place

theorem state_eq_running_iff (engine : Engine) :
    engine.state = .running ↔
      engine.halt? = none ∧ ∃ thread, engine.thread? = some thread ∧ thread.isOver = false := by
  unfold state
  cases engine.thread? with
  | none => cases engine.halt? <;> simp
  | some thread =>
      cases engine.halt? with
      | some halt => simp
      | none => cases thread.isOver <;> simp

theorem start_of_fresh {engine : Engine} (atHand : engine.atHand = true)
    (fresh : engine.halt? = none) :
    engine.start = { engine with
      atHand := false
      thread? := some (.looping .checkStop)
      calls := .start engine.pace.timer :: engine.calls } := by
  simp only [start, atHand, fresh]

theorem start_of_used {engine : Engine}
    (used : engine.atHand = false ∨ ∃ halt, engine.halt? = some halt) : engine.start = engine := by
  rcases used with away | ⟨halt, settled⟩
  · simp only [start, away]
  · cases atHand : engine.atHand <;> simp only [start, atHand, settled]

end Engine

namespace Scene

inductive Step (surroundings : Surroundings) (scene : Scene) : Move → Scene → Prop where
  | thread (thread : Thread) (active : scene.engine.thread? = some thread) :
      Step surroundings scene .thread { scene with
        engine := { scene.engine with
          thread? := some (thread.advance surroundings scene.engine.machine).1
          machine := (thread.advance surroundings scene.engine.machine).2 } }
  | look (idle : scene.ticking = false) (job : scene.hasJob = true) :
      Step surroundings scene .look
        { scene with ticking := !scene.engine.machine.keypad.stopRequested }
  | tick (ticking : scene.ticking = true) :
      Step surroundings scene .tick { scene with
        engine := { scene.engine with machine := scene.engine.machine.tick surroundings }
        ticking := false }
  | gesture (gesture : Gesture) :
      Step surroundings scene (.gesture gesture)
        { scene with engine := scene.engine.handle gesture }
  | start (free : scene.owner = .free) (atHand : scene.engine.atHand = true)
      (fresh : scene.engine.halt? = none) :
      Step surroundings scene .start { scene with
        engine := { scene.engine with
          atHand := false
          thread? := some (.looping .checkStop)
          calls := .start scene.engine.pace.timer :: scene.engine.calls } }
  | restart (free : scene.owner = .free)
      (used : scene.engine.atHand = false ∨ ∃ halt, scene.engine.halt? = some halt) :
      Step surroundings scene .start scene
  | stop (free : scene.owner = .free) (running : scene.engine.state = .running) :
      Step surroundings scene .stop { scene with owner := .stopping }
  | idleStop (free : scene.owner = .free) (idle : scene.engine.state ≠ .running) :
      Step surroundings scene .stop scene
  | requestStop (stopping : scene.owner = .stopping) :
      Step surroundings scene .requestStop
        { scene with engine := scene.engine.handle .requestStop, owner := .free }
  | join (collected : Engine) (joined : Joined) (free : scene.owner = .free)
      (present : scene.engine.thread? ≠ none) (collects : scene.engine.Collects collected joined) :
      Step surroundings scene .join { scene with engine := collected, owner := .settling joined }
  | report (free : scene.owner = .free) (absent : scene.engine.thread? = none) :
      Step surroundings scene .join
        { scene with results := scene.engine.report :: scene.results }
  | settle (joined : Joined) (settling : scene.owner = .settling joined)
      (idle : scene.ticking = false) :
      Step surroundings scene .settle { scene with
        engine := scene.engine.stopMetronome
        owner := .free
        results := joined :: scene.results }
  | drop (free : scene.owner = .free) :
      Step surroundings scene .drop
        { scene with engine := scene.engine.handle .requestStop, owner := .dropping }
  | collect (collected : Engine) (joined : Joined) (dropping : scene.owner = .dropping)
      (collects : scene.engine.Collects collected joined) :
      Step surroundings scene .collect { scene with engine := collected, owner := .closing }
  | close (closing : scene.owner = .closing) (idle : scene.ticking = false) :
      Step surroundings scene .close { scene with
        engine := scene.engine.stopMetronome.vacate
        owner := .departed }

theorem step_of_move {surroundings : Surroundings} {scene next : Scene} {move : Move}
    (made : scene.move? surroundings move = some next) : Step surroundings scene move next := by
  cases move with
  | thread =>
      simp only [move?] at made
      split at made
      case h_1 thread active =>
        simp only [Engine.advanceThread, active, Option.some.injEq] at made
        subst made
        exact .thread thread active
      case h_2 => cases made
  | look =>
      simp only [move?, Option.ite_none_right_eq_some, Bool.and_eq_true, Bool.not_eq_true',
        Option.some.injEq] at made
      obtain ⟨⟨job, idle⟩, rfl⟩ := made
      exact .look idle job
  | tick =>
      simp only [move?, Option.ite_none_right_eq_some, Option.some.injEq] at made
      obtain ⟨ticking, rfl⟩ := made
      exact .tick ticking
  | gesture gesture =>
      cases made
      exact .gesture gesture
  | start =>
      simp only [move?] at made
      split at made
      case h_1 free =>
        by_cases fresh : scene.engine.atHand = true ∧ scene.engine.halt? = none
        · rw [Engine.start_of_fresh fresh.1 fresh.2] at made
          cases made
          exact .start free fresh.1 fresh.2
        · have used : scene.engine.atHand = false ∨ ∃ halt, scene.engine.halt? = some halt := by
            cases atHand : scene.engine.atHand with
            | false => exact .inl rfl
            | true =>
                apply Or.inr
                apply Option.ne_none_iff_exists'.mp
                exact fun absent => fresh ⟨atHand, absent⟩
          rw [Engine.start_of_used used] at made
          cases made
          exact .restart free used
      case h_2 => cases made
  | stop =>
      simp only [move?] at made
      split at made
      case h_1 free running =>
        cases made
        exact .stop free running
      case h_2 free idle =>
        cases made
        exact .idleStop free idle
      case h_3 => cases made
  | requestStop =>
      simp only [move?] at made
      split at made
      case h_1 stopping =>
        cases made
        exact .requestStop stopping
      case h_2 => cases made
  | join =>
      simp only [move?] at made
      split at made
      case h_1 collected joined free success =>
        have collects := Engine.collects_of_collect success
        cases place : scene.engine.thread? with
        | some thread =>
            rw [place, Option.isSome_some, if_pos rfl] at made
            cases made
            exact .join collected joined free (by rw [place]; exact Option.some_ne_none _) collects
        | none =>
            rw [place, Option.isSome_none, if_neg Bool.false_ne_true] at made
            cases made
            cases collects with
            | nobody absent => exact .report free absent
            | halted halt ended =>
                rw [place] at ended
                cases ended
            | raised text died =>
                rw [place] at died
                cases died
      case h_2 => cases made
  | settle =>
      simp only [move?] at made
      split at made
      case h_1 joined settling =>
        rw [Option.ite_none_left_eq_some] at made
        obtain ⟨idle, same⟩ := made
        cases same
        exact .settle joined settling (Bool.eq_false_iff.mpr idle)
      case h_2 => cases made
  | drop =>
      simp only [move?] at made
      split at made
      case h_1 free =>
        cases made
        exact .drop free
      case h_2 => cases made
  | collect =>
      simp only [move?] at made
      split at made
      case h_1 collected joined dropping success =>
        cases made
        exact .collect collected joined dropping (Engine.collects_of_collect success)
      case h_2 => cases made
  | close =>
      simp only [move?] at made
      split at made
      case h_1 closing =>
        rw [Option.ite_none_left_eq_some] at made
        obtain ⟨idle, same⟩ := made
        cases same
        exact .close closing (Bool.eq_false_iff.mpr idle)
      case h_2 => cases made

structure At (scene : Scene) (stage : Stage) : Prop where
  atHand : scene.engine.atHand = stage.atHand
  thread : scene.engine.thread? = stage.thread?
  halt : scene.engine.halt? = stage.halt?
  closing : scene.owner = .closing → stage.thread? = none

def opening (machine : Machine) (pace : Pace) : Scene :=
  { engine := { machine := machine, pace := pace } }

theorem at_opening (machine : Machine) (pace : Pace) : (opening machine pace).At .ready :=
  ⟨rfl, rfl, rfl, fun closing => by cases closing⟩

theorem At.ending {scene : Scene} {stage : Stage} (place : scene.At stage) :
    scene.engine.ending? = stage.ending? := by
  unfold Engine.ending?
  rw [place.thread, place.halt]
  cases stage with
  | ready | active thread | settled halt | lost => rfl

def Move.gesture? : Move → Option Gesture
  | .gesture used => some used
  | .requestStop => some .requestStop
  | .drop => some .requestStop
  | _ => none

inductive Progress (surroundings : Surroundings) :
    Move → Stage → Machine → Stage → Machine → Prop where
  | thread (thread : Thread) (machine : Machine) :
      Progress surroundings .thread (.active thread) machine
        (.active (thread.advance surroundings machine).1) (thread.advance surroundings machine).2
  | start (machine : Machine) :
      Progress surroundings .start .ready machine (.active (.looping .checkStop)) machine
  | collect (move : Move) (halt : Halt) (machine : Machine)
      (collects : move = .join ∨ move = .collect) :
      Progress surroundings move (.active (.ended halt)) machine (.settled halt) machine
  | lose (move : Move) (text : String) (machine : Machine)
      (collects : move = .join ∨ move = .collect) :
      Progress surroundings move (.active (.died text)) machine .lost machine
  | leave (stage : Stage) (machine : Machine) (idle : stage.thread? = none) :
      Progress surroundings .close stage machine .lost machine
  | gesture (move : Move) (gesture : Gesture) (stage : Stage) (machine : Machine)
      (uses : move.gesture? = some gesture) :
      Progress surroundings move stage machine stage (machine.handle gesture)
  | tick (stage : Stage) (machine : Machine) :
      Progress surroundings .tick stage machine stage (machine.tick surroundings)
  | same (move : Move) (stage : Stage) (machine : Machine) (others : move ≠ .thread)
      (used : move = .start → stage ≠ .ready) (silent : move.gesture? = none) :
      Progress surroundings move stage machine stage machine

theorem At.of_same {scene next : Scene} {stage : Stage} (place : scene.At stage)
    (sameHand : next.engine.atHand = scene.engine.atHand)
    (sameThread : next.engine.thread? = scene.engine.thread?)
    (sameHalt : next.engine.halt? = scene.engine.halt?)
    (closing : next.owner = .closing → scene.owner = .closing) : next.At stage :=
  ⟨sameHand.trans place.atHand, sameThread.trans place.thread, sameHalt.trans place.halt,
    fun nextClosing => place.closing (closing nextClosing)⟩

theorem Progress.unchanged (surroundings : Surroundings) (stage : Stage) (machine : Machine)
    {move : Move} (others : move ≠ .thread) (unstarted : move ≠ .start)
    (silent : move.gesture? = none) :
    Progress surroundings move stage machine stage machine :=
  .same move stage machine others (fun starts => absurd starts unstarted) silent

theorem progress_of_collects (surroundings : Surroundings) {scene : Scene} {stage : Stage}
    {move : Move} {collected : Engine} {joined : Joined} (place : scene.At stage)
    (collects : scene.engine.Collects collected joined)
    (collecting : move = .join ∨ move = .collect) (owner : EngineOwner) :
    ∃ after, ({ scene with engine := collected, owner := owner } : Scene).At after ∧
      Progress surroundings move stage scene.engine.machine after collected.machine := by
  cases collects with
  | nobody absent =>
      have idle : stage.thread? = none := place.thread.symm.trans absent
      refine ⟨stage, ⟨place.atHand, place.thread, place.halt, fun _ => idle⟩, ?_⟩
      rcases collecting with rfl | rfl
      · exact .unchanged surroundings stage _ Move.noConfusion Move.noConfusion rfl
      · exact .unchanged surroundings stage _ Move.noConfusion Move.noConfusion rfl
  | halted halt ended =>
      cases Stage.eq_active_of_thread (place.thread.symm.trans ended)
      exact ⟨.settled halt, ⟨rfl, rfl, rfl, fun _ => rfl⟩, .collect _ _ _ collecting⟩
  | raised text died =>
      cases Stage.eq_active_of_thread (place.thread.symm.trans died)
      exact ⟨.lost, ⟨place.atHand, rfl, place.halt, fun _ => rfl⟩, .lose _ _ _ collecting⟩

theorem progress_of_step {surroundings : Surroundings} {scene next : Scene} {move : Move}
    {stage : Stage} (place : scene.At stage) (step : Step surroundings scene move next) :
    ∃ after, next.At after ∧
      Progress surroundings move stage scene.engine.machine after next.engine.machine := by
  cases step with
  | thread thread active =>
      cases Stage.eq_active_of_thread (place.thread.symm.trans active)
      refine ⟨.active (thread.advance surroundings scene.engine.machine).1,
        ⟨place.atHand, rfl, place.halt, ?_⟩, .thread thread _⟩
      intro closing
      cases place.closing closing
  | tick ticking => exact ⟨stage, place.of_same rfl rfl rfl id, .tick stage _⟩
  | gesture gesture => exact ⟨stage, place.of_same rfl rfl rfl id, .gesture _ _ _ _ rfl⟩
  | start free atHand fresh =>
      cases Stage.eq_ready_of_atHand (place.atHand.symm.trans atHand) (place.halt.symm.trans fresh)
      refine ⟨.active (.looping .checkStop), ⟨rfl, rfl, place.halt, ?_⟩, .start _⟩
      intro closing
      cases free.symm.trans closing
  | restart free used =>
      refine ⟨stage, place, .same _ _ _ Move.noConfusion ?_ rfl⟩
      intro _ fresh
      subst fresh
      rcases used with away | ⟨halt, settled⟩
      · cases away.symm.trans place.atHand
      · cases settled.symm.trans place.halt
  | look | idleStop | report =>
      exact ⟨stage, place.of_same rfl rfl rfl id,
        .unchanged surroundings stage _ Move.noConfusion Move.noConfusion rfl⟩
  | stop | settle =>
      exact ⟨stage, place.of_same rfl rfl rfl EngineOwner.noConfusion,
        .unchanged surroundings stage _ Move.noConfusion Move.noConfusion rfl⟩
  | requestStop | drop =>
      exact ⟨stage, place.of_same rfl rfl rfl EngineOwner.noConfusion, .gesture _ _ _ _ rfl⟩
  | join collected joined free present collects =>
      exact progress_of_collects surroundings place collects (.inl rfl) (.settling joined)
  | collect collected joined dropping collects =>
      exact progress_of_collects surroundings place collects (.inr rfl) .closing
  | close closing idle =>
      exact ⟨.lost, ⟨rfl, rfl, rfl, fun _ => rfl⟩, .leave stage _ (place.closing closing)⟩

theorem progress_of_move {surroundings : Surroundings} {scene next : Scene} {move : Move}
    {stage : Stage} (place : scene.At stage) (made : scene.move? surroundings move = some next) :
    ∃ after, next.At after ∧
      Progress surroundings move stage scene.engine.machine after next.engine.machine :=
  progress_of_step place (step_of_move made)

theorem Progress.leadsTo {surroundings : Surroundings} {move : Move} {stage after : Stage}
    {machine next : Machine} (progress : Progress surroundings move stage machine after next) :
    machine.toPeripherals.LeadsTo surroundings next.toPeripherals := by
  cases progress with
  | thread thread machine => exact thread.advance_leadsTo surroundings machine
  | gesture move gesture stage machine uses => exact Peripherals.leadsTo_handle _ gesture
  | tick stage machine => exact Peripherals.leadsTo_tick _
  | start | collect | lose | leave | same => exact .refl _

theorem leadsTo_of_moves {surroundings : Surroundings} {scene reached : Scene} {stage : Stage}
    {moves : List Move} (place : scene.At stage)
    (course : scene.moves? surroundings moves = some reached) :
    ∃ after, reached.At after ∧ scene.engine.machine.toPeripherals.LeadsTo surroundings
      reached.engine.machine.toPeripherals := by
  refine invariant_of_run
    (fun current => ∃ stage, current.At stage ∧
      scene.engine.machine.toPeripherals.LeadsTo surroundings current.engine.machine.toPeripherals)
    ?_ ⟨stage, place, .refl _⟩ course
  intro current move next holds made
  obtain ⟨stage, place, leads⟩ := holds
  obtain ⟨after, nextPlace, progress⟩ := progress_of_move place made
  exact ⟨after, nextPlace, leads.trans progress.leadsTo⟩

/-- The program goes on in the thread and nowhere else. -/
theorem Progress.toCore {surroundings : Surroundings} {move : Move} {stage after : Stage}
    {machine next : Machine} (progress : Progress surroundings move stage machine after next)
    (others : move ≠ .thread) : next.toCore = machine.toCore := by
  cases progress with
  | thread => exact absurd rfl others
  | start | collect | lose | leave | gesture | tick | same => rfl

end Scene

end Chip8Machine
