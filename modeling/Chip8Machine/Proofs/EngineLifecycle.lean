import Chip8Machine.Proofs.EngineSteps

/-!
The life of an engine that is not dropped, with a display that raises no exception.

The engine goes through three stages and never back: its machine is at hand, then with the thread,
then at hand again together with the reason. `Scene.Standing` is what is known of a scene after a
list of steps: the stage, what the owner is about, what its joins have returned, and that the loop
really ended for the reason that is known.
-/

set_option autoImplicit false

namespace Chip8Machine

def EngineState.rank : EngineState → Nat
  | .ready => 0
  | .running => 1
  | .stopped => 2

namespace Engine

def parts (engine : Engine) : Bool × Bool × Bool :=
  (engine.machine?.isSome, engine.thread?.isSome, engine.halt?.isSome)

/-- The parts of an engine that was not started, of one that was, and of one that was collected. -/
def configurations : List (Bool × Bool × Bool) :=
  [(true, false, false), (false, true, false), (true, false, true)]

end Engine

namespace Stage

def rank : Stage → Nat
  | .ready => 0
  | .active _ => 1
  | .settled _ => 2
  | .lost => 3

def state : Stage → EngineState
  | .ready => .ready
  | .active thread => if thread.isOver then .stopped else .running
  | .settled _ => .stopped
  | .lost => .ready

structure Sound (stage : Stage) : Prop where
  present : stage ≠ .lost
  unraised : ∀ text, stage.ending? ≠ some (.raised text)

structure Forward (stage after : Stage) : Prop where
  rank : stage.rank ≤ after.rank
  state : stage.state.rank ≤ after.state.rank
  halt : ∀ halt, stage.halt? = some halt → after.halt? = some halt

theorem Forward.refl (stage : Stage) : stage.Forward stage :=
  ⟨Nat.le_refl _, Nat.le_refl _, fun _ settled => settled⟩

theorem Forward.trans {first middle last : Stage} (earlier : first.Forward middle)
    (later : middle.Forward last) : first.Forward last :=
  ⟨Nat.le_trans earlier.rank later.rank, Nat.le_trans earlier.state later.state,
    fun halt settled => later.halt halt (earlier.halt halt settled)⟩

theorem Sound.state_eq_ready_iff {stage : Stage} (sound : stage.Sound) :
    stage.state = .ready ↔ stage = .ready := by
  cases stage with
  | ready => exact ⟨fun _ => rfl, fun _ => rfl⟩
  | active thread =>
      constructor
      · intro impossible
        simp only [state] at impossible
        split at impossible <;> cases impossible
      · intro impossible
        cases impossible
  | settled halt =>
      constructor
      · intro impossible
        cases impossible
      · intro impossible
        cases impossible
  | lost => exact absurd rfl sound.present

theorem Sound.idle_cases {stage : Stage} (sound : stage.Sound) (idle : stage.thread? = none) :
    stage = .ready ∨ ∃ halt, stage = .settled halt := by
  cases stage with
  | ready => exact .inl rfl
  | active thread => cases idle
  | settled halt => exact .inr ⟨halt, rfl⟩
  | lost => exact absurd rfl sound.present

end Stage

namespace Scene

/-! ### Stages -/

theorem At.state {scene : Scene} {stage : Stage} (place : scene.At stage) :
    scene.engine.state = stage.state := by
  unfold Engine.state
  rw [place.thread, place.halt]
  cases stage with
  | ready | active thread | settled halt | lost => rfl

theorem At.parts {scene : Scene} {stage : Stage} (place : scene.At stage)
    (present : stage ≠ .lost) :
    Engine.configurations[stage.rank]? = some scene.engine.parts := by
  unfold Engine.parts Engine.machine?
  rw [place.atHand, place.thread, place.halt]
  cases stage with
  | ready | active thread | settled halt => rfl
  | lost => exact absurd rfl present

section

variable {surroundings : Surroundings} {move : Move} {stage after : Stage} {machine next : Machine}

theorem Progress.sound (progress : Progress surroundings move stage machine after next)
    (steady : surroundings.Steady) (stays : move ≠ .close) (sound : stage.Sound) : after.Sound := by
  cases progress with
  | thread thread =>
      exact ⟨Stage.noConfusion, Thread.unraised_advance steady sound.unraised machine⟩
  | start => exact ⟨Stage.noConfusion, fun _ raised => by cases raised⟩
  | collect => exact ⟨Stage.noConfusion, fun _ raised => by cases raised⟩
  | lose move text => exact absurd rfl (sound.unraised text)
  | leave => exact absurd rfl stays
  | gesture | tick | same => exact sound

theorem Progress.forward (progress : Progress surroundings move stage machine after next)
    (stays : move ≠ .close) (sound : stage.Sound) : stage.Forward after := by
  cases progress with
  | thread thread =>
      refine ⟨Nat.le_refl 1, ?_, fun _ settled => by cases settled⟩
      cases finished : thread.isOver with
      | true =>
          simp only [Stage.state, finished, Thread.isOver_advance finished surroundings machine]
          exact Nat.le_refl _
      | false =>
          simp only [Stage.state, finished]
          cases (thread.advance surroundings machine).1.isOver with
          | true => exact Nat.le_succ 1
          | false => exact Nat.le_refl 1
  | start => exact ⟨Nat.zero_le _, Nat.zero_le _, fun _ settled => by cases settled⟩
  | collect => exact ⟨Nat.le_succ 1, Nat.le_refl 2, fun _ settled => by cases settled⟩
  | lose move text => exact absurd rfl (sound.unraised text)
  | leave => exact absurd rfl stays
  | gesture | tick | same => exact .refl stage

theorem Progress.ready_iff (progress : Progress surroundings move stage machine after next)
    (stays : move ≠ .close) : after = .ready ↔ stage = .ready ∧ move ≠ .start := by
  cases progress with
  | thread | collect | lose =>
      constructor
      · intro impossible
        cases impossible
      · intro impossible
        cases impossible.1
  | start =>
      constructor
      · intro impossible
        cases impossible
      · intro impossible
        exact absurd rfl impossible.2
  | leave => exact absurd rfl stays
  | gesture move gesture stage machine uses =>
      refine ⟨fun fresh => ⟨fresh, fun starts => ?_⟩, And.left⟩
      subst starts
      cases uses
  | tick => exact ⟨fun fresh => ⟨fresh, by decide⟩, And.left⟩
  | same move stage machine others used =>
      exact ⟨fun fresh => ⟨fresh, fun starts => used starts fresh⟩, And.left⟩

theorem Progress.ending_cases (progress : Progress surroundings move stage machine after next)
    {ending : Ending} (ended : after.ending? = some ending) :
    stage.ending? = some ending ∨ after = .active (.looping (.ended ending)) := by
  cases progress with
  | thread thread =>
      cases before : thread.ending? with
      | some other =>
          have same := (Thread.ending?_advance before surroundings machine).symm.trans ended
          exact .inl (before.trans same)
      | none => exact .inr (congrArg Stage.active (Thread.ended_of_advance before ended))
  | start | lose | leave => cases ended
  | collect | gesture | tick | same => exact .inl ended

end

/-! ### The owner -/

structure Ledger (scene : Scene) : Prop where
  settling : ∀ joined, scene.owner = .settling joined → scene.engine.thread? = none ∧
    ((∃ halt, joined = .halted halt ∧ scene.engine.halt? = some halt) ∨
      (∃ text, joined = .raised text) ∧ scene.engine.atHand = false)
  results : ∀ halt, .halted halt ∈ scene.results → scene.engine.halt? = some halt ∨
    (scene.engine.thread? = none ∧ scene.engine.atHand = false)

theorem ledger_opening (machine : Machine) (pace : Pace) : (opening machine pace).Ledger := by
  constructor
  · intro joined settling
    cases settling
  · intro halt member
    cases member

theorem Ledger.unreported {scene : Scene} {stage : Stage} {thread : Thread} (ledger : scene.Ledger)
    (place : scene.At stage) (active : scene.engine.thread? = some thread) (halt : Halt) :
    .halted halt ∉ scene.results := by
  intro member
  cases Stage.eq_active_of_thread (place.thread.symm.trans active)
  rcases ledger.results halt member with settled | ⟨absent, _⟩
  · cases settled.symm.trans place.halt
  · cases absent.symm.trans active

theorem Ledger.step {surroundings : Surroundings} {scene next : Scene} {stage : Stage} {move : Move}
    (ledger : scene.Ledger) (place : scene.At stage) (step : Step surroundings scene move next) :
    next.Ledger := by
  cases step with
  | thread thread active =>
      constructor
      · intro joined settling
        cases (ledger.settling joined settling).1.symm.trans active
      · intro halt member
        exact absurd member (ledger.unreported place active halt)
  | look | tick | gesture => exact ⟨ledger.settling, ledger.results⟩
  | start free atHand fresh =>
      constructor
      · intro joined settling
        cases free.symm.trans settling
      · intro halt member
        rcases ledger.results halt member with settled | ⟨_, away⟩
        · cases settled.symm.trans fresh
        · cases away.symm.trans atHand
  | restart | idleStop => exact ledger
  | stop | requestStop | drop =>
      refine ⟨?_, ledger.results⟩
      intro joined settling
      cases settling
  | join collected joined free present collects =>
      cases collects with
      | nobody absent => exact absurd absent present
      | halted halt ended =>
          refine ⟨?_, fun other member => absurd member (ledger.unreported place ended other)⟩
          intro joined settling
          cases settling
          exact ⟨rfl, .inl ⟨halt, rfl, rfl⟩⟩
      | raised text died =>
          refine ⟨?_, fun other member => absurd member (ledger.unreported place died other)⟩
          intro joined settling
          cases settling
          cases Stage.eq_active_of_thread (place.thread.symm.trans died)
          exact ⟨rfl, .inr ⟨⟨text, rfl⟩, place.atHand⟩⟩
  | report free absent =>
      refine ⟨ledger.settling, ?_⟩
      intro halt member
      rcases List.mem_cons.mp member with now | before
      · simp only [Engine.report] at now
        split at now
        · rename_i found settled
          cases now
          exact .inl settled
        · cases now
      · exact ledger.results halt before
  | settle joined settling =>
      constructor
      · intro joined settling
        cases settling
      · intro halt member
        rcases List.mem_cons.mp member with now | before
        · subst now
          rcases (ledger.settling _ settling).2 with
            ⟨found, same, settled⟩ | ⟨⟨text, impossible⟩, _⟩
          · cases same
            exact .inl settled
          · cases impossible
        · exact ledger.results halt before
  | collect collected joined dropping collects =>
      refine ⟨fun joined settling => (by cases settling), ?_⟩
      intro halt member
      cases collects with
      | nobody absent => exact ledger.results halt member
      | halted found ended => exact absurd member (ledger.unreported place ended halt)
      | raised text died => exact absurd member (ledger.unreported place died halt)
  | close =>
      refine ⟨fun joined settling => (by cases settling), ?_⟩
      intro _ _
      exact .inr ⟨rfl, rfl⟩

def Attending (scene : Scene) : Prop :=
  scene.owner = .free ∨ scene.owner = .stopping ∨ ∃ joined, scene.owner = .settling joined

theorem Attending.step {surroundings : Surroundings} {scene next : Scene} {move : Move}
    (attending : scene.Attending) (kept : move ≠ .drop) (step : Step surroundings scene move next) :
    next.Attending ∧ move ≠ .close := by
  cases step with
  | thread | look | tick | gesture | start | restart | idleStop | report =>
      exact ⟨attending, Move.noConfusion⟩
  | stop => exact ⟨.inr (.inl rfl), Move.noConfusion⟩
  | requestStop | settle => exact ⟨.inl rfl, Move.noConfusion⟩
  | join collected joined => exact ⟨.inr (.inr ⟨joined, rfl⟩), Move.noConfusion⟩
  | drop => exact absurd rfl kept
  | collect collected joined dropping =>
      rcases attending with free | stopping | ⟨other, settling⟩
      · cases free.symm.trans dropping
      · cases stopping.symm.trans dropping
      · cases settling.symm.trans dropping
  | close closing =>
      rcases attending with free | stopping | ⟨other, settling⟩
      · cases free.symm.trans closing
      · cases stopping.symm.trans closing
      · cases settling.symm.trans closing

/-! ### What is known after a list of steps -/

/-- At some moment of the history the loop had just ended for the given reason. -/
def Returned (surroundings : Surroundings) (start : Scene) (history : List Move)
    (halt : Halt) : Prop :=
  ∃ first rest scene, history = first ++ rest ∧ start.moves? surroundings first = some scene ∧
    scene.engine.thread? = some (.looping (.ended (.halted halt)))

theorem Returned.append {surroundings : Surroundings} {start : Scene} {history : List Move}
    {halt : Halt} (returned : Returned surroundings start history halt) (later : List Move) :
    Returned surroundings start (history ++ later) halt := by
  obtain ⟨first, rest, scene, split, course, ended⟩ := returned
  exact ⟨first, rest ++ later, scene, by rw [split, List.append_assoc], course, ended⟩

structure Standing (surroundings : Surroundings) (start : Scene) (history : List Move)
    (scene : Scene) (stage : Stage) : Prop where
  course : start.moves? surroundings history = some scene
  place : scene.At stage
  sound : stage.Sound
  ready : stage = .ready ↔ .start ∉ history
  attending : scene.Attending
  ledger : scene.Ledger
  returned : ∀ halt, stage.ending? = some (.halted halt) → Returned surroundings start history halt

theorem standing_opening (surroundings : Surroundings) (machine : Machine) (pace : Pace) :
    Standing surroundings (opening machine pace) [] (opening machine pace) .ready where
  course := rfl
  place := at_opening machine pace
  sound := ⟨Stage.noConfusion, fun _ raised => by cases raised⟩
  ready := ⟨fun _ => List.not_mem_nil, fun _ => rfl⟩
  attending := .inl rfl
  ledger := ledger_opening machine pace
  returned := fun _ ended => by cases ended

section

variable {surroundings : Surroundings} {start scene next : Scene} {history : List Move}
  {stage : Stage}
  {move : Move}

theorem Standing.step (standing : Standing surroundings start history scene stage)
    (steady : surroundings.Steady) (kept : move ≠ .drop)
    (made : scene.move? surroundings move = some next) :
    ∃ after, Standing surroundings start (history ++ [move]) next after ∧ stage.Forward after := by
  obtain ⟨attending, stays⟩ := standing.attending.step kept (step_of_move made)
  obtain ⟨after, place, progress⟩ := progress_of_move standing.place made
  have course : start.moves? surroundings (history ++ [move]) = some next :=
    run_concat standing.course made
  refine ⟨after, ⟨course, place, progress.sound steady stays standing.sound, ?_, attending,
    standing.ledger.step standing.place (step_of_move made), ?_⟩,
    progress.forward stays standing.sound⟩
  · rw [progress.ready_iff stays, standing.ready, List.mem_append, not_or, List.mem_singleton]
    exact and_congr Iff.rfl ne_comm
  · intro halt ended
    rcases progress.ending_cases ended with before | rfl
    · exact (standing.returned halt before).append [move]
    · exact ⟨history ++ [move], [], next, (List.append_nil _).symm, course, place.thread⟩

theorem Standing.run {reached : Scene} {later : List Move}
    (standing : Standing surroundings start history scene stage) (steady : surroundings.Steady)
    (kept : .drop ∉ later) (course : scene.moves? surroundings later = some reached) :
    ∃ after, Standing surroundings start (history ++ later) reached after ∧
      stage.Forward after := by
  induction later generalizing history scene stage with
  | nil =>
      cases course
      rw [List.append_nil]
      exact ⟨stage, standing, .refl stage⟩
  | cons move rest ih =>
      obtain ⟨next, made, onward⟩ := exists_of_run_cons course
      have keptNow := (List.ne_of_not_mem_cons kept).symm
      have keptLater := List.not_mem_of_not_mem_cons kept
      obtain ⟨middle, nextStanding, forward⟩ := standing.step steady keptNow made
      obtain ⟨after, reachedStanding, onwardForward⟩ := ih nextStanding keptLater onward
      have regrouped : history ++ move :: rest = (history ++ [move]) ++ rest := by
        rw [List.append_assoc]
        rfl
      rw [regrouped]
      exact ⟨after, reachedStanding, forward.trans onwardForward⟩

/-! ### Starts and joins -/

theorem Standing.restarts (standing : Standing surroundings start history scene stage)
    (started : .start ∈ history) (made : scene.move? surroundings .start = some next) :
    next = scene := by
  cases step_of_move made with
  | start free atHand fresh =>
      have ready := Stage.eq_ready_of_atHand (standing.place.atHand.symm.trans atHand)
        (standing.place.halt.symm.trans fresh)
      exact absurd started (standing.ready.mp ready)
  | restart => rfl

theorem Standing.spawns (standing : Standing surroundings start history scene stage)
    (made : scene.move? surroundings move = some next) (absent : scene.engine.thread? = none)
    (present : next.engine.thread? ≠ none) : move = .start ∧ .start ∉ history := by
  have gone : ∀ {collected : Engine} {joined : Joined}, scene.engine.Collects collected joined →
      collected.thread? = none := by
    intro collected joined collects
    cases collects with
    | nobody => exact absent
    | halted | raised => rfl
  cases step_of_move made with
  | thread thread active => cases absent.symm.trans active
  | start free atHand fresh =>
      have ready := Stage.eq_ready_of_atHand (standing.place.atHand.symm.trans atHand)
        (standing.place.halt.symm.trans fresh)
      exact ⟨rfl, standing.ready.mp ready⟩
  | join collected joined free some collects => exact absurd (gone collects) present
  | collect collected joined dropping collects => exact absurd (gone collects) present
  | close => exact absurd rfl present
  | _ => exact absurd absent present

theorem results_of_step (step : Step surroundings scene move next) :
    next.results = scene.results ∨ ∃ joined, next.results = joined :: scene.results := by
  cases step with
  | report => exact .inr ⟨_, rfl⟩
  | settle joined => exact .inr ⟨joined, rfl⟩
  | _ => exact .inl rfl

theorem Standing.atHand_of_idle (standing : Standing surroundings start history scene stage)
    (absent : scene.engine.thread? = none) : scene.engine.atHand = true := by
  rw [standing.place.atHand]
  rcases standing.sound.idle_cases (standing.place.thread.symm.trans absent) with rfl | ⟨halt, rfl⟩
  · rfl
  · rfl

theorem Standing.pushed {joined : Joined}
    (standing : Standing surroundings start history scene stage)
    (made : scene.move? surroundings move = some next)
    (pushes : next.results = joined :: scene.results) :
    scene.engine.thread? = none ∧ joined = scene.engine.report := by
  cases step_of_move made with
  | report free absent =>
      cases pushes
      exact ⟨absent, rfl⟩
  | settle other settling idle =>
      cases pushes
      obtain ⟨absent, ⟨halt, rfl, settled⟩ | ⟨_, away⟩⟩ := standing.ledger.settling _ settling
      · refine ⟨absent, ?_⟩
        simp only [Engine.report, settled]
      · cases away.symm.trans (standing.atHand_of_idle absent)
  | _ => exact absurd pushes.symm (List.cons_ne_self _ _)

theorem Standing.joined_cases {joined : Joined}
    (standing : Standing surroundings start history scene stage)
    (made : scene.move? surroundings move = some next)
    (pushes : next.results = joined :: scene.results) :
    (joined = .nothing ∧ .start ∉ history) ∨
      ∃ halt, joined = .halted halt ∧ .start ∈ history ∧
        Returned surroundings start history halt := by
  obtain ⟨absent, reports⟩ := standing.pushed made pushes
  rcases standing.sound.idle_cases (standing.place.thread.symm.trans absent) with
    ready | ⟨halt, settled⟩
  · subst ready
    refine .inl ⟨?_, standing.ready.mp rfl⟩
    rw [reports]
    simp only [Engine.report, standing.place.halt, Stage.halt?]
  · subst settled
    refine .inr ⟨halt, ?_, ?_, standing.returned halt rfl⟩
    · rw [reports]
      simp only [Engine.report, standing.place.halt, Stage.halt?]
    · exact Decidable.of_not_not fun early => Stage.noConfusion (standing.ready.mpr early)

theorem Standing.settled_of_result {halt : Halt}
    (standing : Standing surroundings start history scene stage)
    (member : .halted halt ∈ scene.results) : stage.halt? = some halt := by
  rcases standing.ledger.results halt member with settled | ⟨absent, away⟩
  · exact standing.place.halt.symm.trans settled
  · cases away.symm.trans (standing.atHand_of_idle absent)

theorem Standing.rejoins {reached : Scene} {later : List Move} {halt : Halt}
    (standing : Standing surroundings start history scene stage) (steady : surroundings.Steady)
    (kept : .drop ∉ later) (settled : stage.halt? = some halt)
    (course : scene.moves? surroundings later = some reached) :
    ∃ more, reached.results = more ++ scene.results ∧ ∀ joined ∈ more, joined = .halted halt := by
  induction later generalizing history scene stage with
  | nil =>
      cases course
      exact ⟨[], rfl, fun _ member => by cases member⟩
  | cons move rest ih =>
      obtain ⟨next, made, onward⟩ := exists_of_run_cons course
      have keptNow := (List.ne_of_not_mem_cons kept).symm
      obtain ⟨after, nextStanding, forward⟩ := standing.step steady keptNow made
      obtain ⟨more, grown, same⟩ := ih nextStanding (List.not_mem_of_not_mem_cons kept)
        (forward.halt halt settled) onward
      rcases results_of_step (step_of_move made) with kept | ⟨joined, pushes⟩
      · exact ⟨more, by rw [grown, kept], same⟩
      · obtain ⟨_, reports⟩ := standing.pushed made pushes
        have known : joined = .halted halt := by
          rw [reports]
          simp only [Engine.report, standing.place.halt, settled]
        refine ⟨more ++ [joined], ?_, ?_⟩
        · rw [grown, pushes, List.append_assoc, List.singleton_append]
        · intro other member
          rcases List.mem_append.mp member with later | now
          · exact same other later
          · rw [List.mem_singleton.mp now, known]

theorem exists_settle (surroundings : Surroundings) {joined : Joined}
    (settling : scene.owner = .settling joined) (idle : scene.ticking = false) :
    ∃ reached, scene.move? surroundings .settle = some reached ∧
      reached.results = joined :: scene.results := by
  simp only [move?, settling, idle, Bool.false_eq_true, if_false]
  exact ⟨_, rfl, rfl⟩

/-- An owner who has collected the thread waits for one call of the metronome's job at most. -/
theorem settle_returns (surroundings : Surroundings) {joined : Joined}
    (settling : scene.owner = .settling joined) :
    ∃ finishing reached, finishing ∈ [[.settle], [.tick, .settle]] ∧
      scene.moves? surroundings finishing = some reached ∧
        reached.results = joined :: scene.results := by
  cases ticking : scene.ticking with
  | false =>
      obtain ⟨reached, settles, grown⟩ := exists_settle surroundings settling ticking
      exact ⟨[.settle], reached, List.mem_cons_self, run_cons_of_made settles [], grown⟩
  | true =>
      obtain ⟨ticked, ticks, sameOwner, idle, sameResults⟩ : ∃ ticked,
          scene.move? surroundings .tick = some ticked ∧ ticked.owner = scene.owner ∧
            ticked.ticking = false ∧ ticked.results = scene.results := by
        simp only [move?, ticking, if_true]
        exact ⟨_, rfl, rfl, rfl, rfl⟩
      obtain ⟨reached, settles, grown⟩ := exists_settle surroundings (sameOwner.trans settling) idle
      have course := (run_cons_of_made ticks [.settle]).trans (run_cons_of_made settles [])
      exact ⟨[.tick, .settle], reached, List.mem_cons_of_mem _ List.mem_cons_self, course,
        by rw [grown, sameResults]⟩

theorem Standing.join_returns (standing : Standing surroundings start history scene stage)
    (free : scene.owner = .free)
    (finished : ∀ thread, scene.engine.thread? = some thread → thread.isOver = true) :
    ∃ finishing reached joined, finishing ∈ [[.join], [.join, .settle], [.join, .tick, .settle]] ∧
      scene.moves? surroundings finishing = some reached ∧
        reached.results = joined :: scene.results := by
  cases present : scene.engine.thread? with
  | none =>
      have joins : scene.move? surroundings .join =
          some { scene with results := scene.engine.report :: scene.results } := by
        simp only [move?, free, Engine.collect, present, Option.isSome_none, Bool.false_eq_true,
          if_false]
      exact ⟨[.join], _, _, List.mem_cons_self, run_cons_of_made joins [], rfl⟩
  | some thread =>
      have thisFinished := finished thread present
      cases Stage.eq_active_of_thread (standing.place.thread.symm.trans present)
      cases thread with
      | looping phase | requestStop halt | silence halt => cases thisFinished
      | died text => exact absurd rfl (standing.sound.unraised text)
      | ended halt =>
          obtain ⟨collected, joins, settling, sameResults⟩ : ∃ collected,
              scene.move? surroundings .join = some collected ∧
                collected.owner = .settling (.halted halt) ∧ collected.results = scene.results := by
            simp only [move?, free, Engine.collect, present, Option.isSome_some, if_true]
            exact ⟨_, rfl, rfl, rfl⟩
          obtain ⟨finishing, reached, listed, course, grown⟩ := settle_returns surroundings settling
          exact ⟨.join :: finishing, reached, .halted halt,
            List.mem_cons_of_mem _ (List.mem_map_of_mem listed),
            (run_cons_of_made joins finishing).trans course, by rw [grown, sameResults]⟩

/-! ### Before the start -/

structure Untouched (machine : Machine) (pace : Pace) (history : List Move)
    (scene : Scene) : Prop where
  engine : ∃ keypad, scene.engine = { machine := { machine with keypad := keypad }, pace := pace } ∧
    (.gesture .requestStop ∉ history → keypad.stopRequested = machine.keypad.stopRequested)
  idle : scene.ticking = false
  free : scene.owner = .free

theorem Untouched.step {machine : Machine} {pace : Pace}
    (untouched : Untouched machine pace history scene) (early : move ≠ .start) (kept : move ≠ .drop)
    (step : Step surroundings scene move next) :
    Untouched machine pace (history ++ [move]) next := by
  obtain ⟨⟨keypad, fresh, silent⟩, idle, free⟩ := untouched
  have absent : scene.engine.thread? = none := by rw [fresh]
  have silentBefore : .gesture .requestStop ∉ history ++ [move] →
      keypad.stopRequested = machine.keypad.stopRequested :=
    fun silence => silent (fun member => silence (List.mem_append_left _ member))
  cases step with
  | thread thread active => cases absent.symm.trans active
  | look _ job =>
      rw [hasJob, fresh] at job
      cases job
  | tick ticking => cases idle.symm.trans ticking
  | gesture gesture =>
      refine ⟨⟨keypad.handle gesture, by rw [fresh]; rfl, ?_⟩, idle, free⟩
      intro silence
      have others : gesture ≠ .requestStop := by
        intro same
        rw [same] at silence
        exact silence (List.mem_append_right _ List.mem_cons_self)
      rw [← silentBefore silence, Bool.eq_iff_iff, Keypad.stopRequested_handle]
      exact or_iff_left others
  | start | restart => exact absurd rfl early
  | stop _ running =>
      rw [fresh] at running
      cases running
  | idleStop => exact ⟨⟨keypad, fresh, silentBefore⟩, idle, free⟩
  | requestStop stopping => cases free.symm.trans stopping
  | join _ _ _ present => exact absurd absent present
  | report => exact ⟨⟨keypad, fresh, silentBefore⟩, idle, free⟩
  | settle _ settling => cases free.symm.trans settling
  | drop => exact absurd rfl kept
  | collect _ _ dropping => cases free.symm.trans dropping
  | close closing => cases free.symm.trans closing

theorem untouched_of_moves {machine : Machine} {pace : Pace}
    (course : (opening machine pace).moves? surroundings history = some scene)
    (early : .start ∉ history) (kept : .drop ∉ history) : Untouched machine pace history scene := by
  refine recorded_of_run
    (fun history scene => .start ∉ history → .drop ∉ history → Untouched machine pace history scene)
    ?_ [] ?_ course early kept
  · intro history scene move next untouched made early kept
    simp only [List.mem_append, List.mem_singleton, not_or] at early kept
    exact (untouched early.1 kept.1).step (Ne.symm early.2) (Ne.symm kept.2) (step_of_move made)
  · intro _ _
    exact ⟨⟨machine.keypad, rfl, fun _ => rfl⟩, rfl, rfl⟩

theorem Untouched.stop {machine : Machine} {pace : Pace}
    (untouched : Untouched machine pace history scene)
    (made : scene.move? surroundings .stop = some next) : next = scene := by
  obtain ⟨keypad, fresh, _⟩ := untouched.engine
  cases step_of_move made with
  | stop free running =>
      rw [fresh] at running
      cases running
  | idleStop => rfl

/-- Whatever is done to an engine short of dropping it, and however the steps of its thread and of
the metronome come in between. -/
theorem lifecycle {surroundings : Surroundings} (steady : surroundings.Steady) {machine : Machine}
    {pace : Pace} {earlier later : List Move} {middle reached : Scene}
    (before : (opening machine pace).moves? surroundings earlier = some middle)
    (onward : middle.moves? surroundings later = some reached) (kept : .drop ∉ earlier ++ later) :
    -- It is always in one of three configurations, and goes through them forward.
    (∃ first last : Nat, first ≤ last ∧ Engine.configurations[first]? = some middle.engine.parts ∧
      Engine.configurations[last]? = some reached.engine.parts) ∧
    -- It is ready exactly before the first start, and its state goes forward as well.
    (reached.engine.state = .ready ↔ .start ∉ earlier ++ later) ∧
    middle.engine.state.rank ≤ reached.engine.state.rank ∧
    -- Only the first start begins a thread, and any other changes nothing.
    (.start ∈ earlier → ∀ next, middle.move? surroundings .start = some next → next = middle) ∧
    (∀ move next, reached.move? surroundings move = some next → reached.engine.thread? = none →
      next.engine.thread? ≠ none → move = .start ∧ .start ∉ earlier ++ later) ∧
    -- Before the start, a stop changes nothing, and the engine stays a fresh one with some keys
    -- pressed.
    (.start ∉ earlier → (∀ next, middle.move? surroundings .stop = some next → next = middle) ∧
      ∃ keypad, middle.engine = { machine := { machine with keypad := keypad }, pace := pace } ∧
        (.gesture .requestStop ∉ earlier → keypad.stopRequested = machine.keypad.stopRequested)) ∧
    -- A join returns nothing without a start, and otherwise the reason for which the loop has
    -- ended.
    (∀ move next joined, reached.move? surroundings move = some next →
      next.results = joined :: reached.results →
        (joined = .nothing ↔ .start ∉ earlier ++ later) ∧
        (.start ∈ earlier ++ later → ∃ halt, joined = .halted halt ∧
          Returned surroundings (opening machine pace) (earlier ++ later) halt)) ∧
    -- Later joins return the same.
    (∀ halt, .halted halt ∈ middle.results →
      ∃ more, reached.results = more ++ middle.results ∧ ∀ joined ∈ more, joined = .halted halt) ∧
    -- A join of an engine whose thread is over, or that has none, comes to its end.
    (reached.owner = .free →
      (∀ thread, reached.engine.thread? = some thread → thread.isOver = true) →
      ∃ finishing last joined, finishing ∈ [[.join], [.join, .settle], [.join, .tick, .settle]] ∧
        reached.moves? surroundings finishing = some last ∧
          last.results = joined :: reached.results) := by
  simp only [List.mem_append, not_or] at kept
  obtain ⟨stage, middleStanding, _⟩ :=
    (standing_opening surroundings machine pace).run steady kept.1 before
  obtain ⟨after, standing, forward⟩ := middleStanding.run steady kept.2 onward
  rw [List.nil_append] at middleStanding standing
  refine ⟨⟨stage.rank, after.rank, forward.rank,
    middleStanding.place.parts middleStanding.sound.present,
    standing.place.parts standing.sound.present⟩, ?_, ?_, ?_, ?_, ?_, ?_, ?_, ?_⟩
  · rw [standing.place.state, standing.sound.state_eq_ready_iff, standing.ready]
  · rw [middleStanding.place.state, standing.place.state]
    exact forward.state
  · exact fun started next made => middleStanding.restarts started made
  · exact fun move next made absent present => standing.spawns made absent present
  · intro early
    have untouched := untouched_of_moves before early kept.1
    exact ⟨fun next made => untouched.stop made, untouched.engine⟩
  · intro move next joined made pushes
    rcases standing.joined_cases made pushes with
      ⟨nothing, early⟩ | ⟨halt, halted, started, returned⟩
    · exact ⟨⟨fun _ => early, fun _ => nothing⟩, fun started => absurd started early⟩
    · refine ⟨⟨fun nothing => ?_, fun early => absurd started early⟩,
        fun _ => ⟨halt, halted, returned⟩⟩
      cases halted.symm.trans nothing
  · intro halt member
    exact middleStanding.rejoins steady kept.2 (middleStanding.settled_of_result member) onward
  · exact fun free finished => standing.join_returns free finished

end

/-- A program of nothing, stopped and joined before its start, then run to its end and joined
twice. -/
theorem lifecycle_at_end_of_memory :
    let machine : Machine := { registers := { counter := 4095 } }
    let earlier : List Move :=
      [.stop, .join, .start, .thread, .thread, .thread, .thread, .thread, .join, .settle]
    ∃ middle reached, (opening machine .standard).moves? .quiet earlier = some middle ∧
      middle.moves? .quiet [.start, .join] = some reached ∧
      middle.results = [.halted (.counterOutOfRange 4095), .nothing] ∧
      ∃ more, reached.results = more ++ middle.results ∧
        ∀ joined ∈ more, joined = .halted (.counterOutOfRange 4095) := by
  intro machine earlier
  refine ⟨_, _, rfl, rfl, rfl, ?_⟩
  have steady : Surroundings.quiet.Steady := fun _ _ raises => by cases raises
  have life := @lifecycle .quiet steady machine .standard earlier [.start, .join] _ _ rfl rfl
    (by decide)
  exact life.2.2.2.2.2.2.2.1 _ List.mem_cons_self

end Scene

end Chip8Machine
