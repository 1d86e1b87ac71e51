import Chip8Machine.Proofs.EngineLifecycle

/-!
An engine whose thread has ended is silent, and once it was collected nothing changes but the
keypad.

The thread requests a stop before it ends the tone, so a tick that has already passed its check for
a stop may come before, between or behind the two. Behind them the sound timer is zero, where a tick
has no effect on it; and after the join no such tick is left, because the owner has waited for the
metronome's job.
-/

set_option autoImplicit false

namespace Chip8Machine

namespace Peripherals

theorem silent_setSound (listener : ToneListener) (peripherals : Peripherals) :
    (peripherals.setSound listener 0).timers.sound = 0 := by
  unfold setSound
  rw [timers_settle]
  rfl

theorem tick_of_silent {listener : ToneListener} {peripherals : Peripherals}
    (silent : peripherals.timers.sound = 0) :
    (peripherals.tick listener).timers.sound = 0 ∧
      (peripherals.tick listener).notices = peripherals.notices := by
  have still : ¬ 0 < peripherals.timers.sound := by
    rw [silent]
    decide
  unfold tick
  rw [timers_settle, notices_settle, Timers.tick_eq, if_neg still]
  exact ⟨silent, rfl⟩

end Peripherals

namespace Stage

def hasStopped : Stage → Bool
  | .active (.silence _) => true
  | .active (.ended _) => true
  | .settled _ => true
  | _ => false

def hasSilenced : Stage → Bool
  | .active (.ended _) => true
  | .settled _ => true
  | _ => false

/-- The thread has come to its end, whatever the owner has made of it. -/
def isDone : Stage → Bool
  | .active (.ended _) => true
  | .settled _ => true
  | .lost => true
  | _ => false

structure Hushed (stage : Stage) (machine : Machine) : Prop where
  stopped : stage.hasStopped = true → machine.keypad.stopRequested = true
  silent : stage.hasSilenced = true → machine.timers.sound = 0

end Stage

namespace Scene

section

variable {surroundings : Surroundings} {move : Move} {stage after : Stage} {machine next : Machine}

theorem Progress.hushed (progress : Progress surroundings move stage machine after next)
    (hushed : stage.Hushed machine) : after.Hushed next := by
  have remains := progress.leadsTo.stopRequested
  cases progress with
  | thread thread =>
      cases thread with
      | looping phase =>
          cases phase with
          | ended ending =>
              cases ending with
              | halted halt | raised text => exact ⟨Bool.noConfusion, Bool.noConfusion⟩
          | _ => exact ⟨Bool.noConfusion, Bool.noConfusion⟩
      | requestStop halt =>
          exact ⟨fun _ => (Keypad.stopRequested_handle _ _).mpr (.inr rfl), Bool.noConfusion⟩
      | silence halt =>
          exact ⟨fun _ => remains (hushed.stopped rfl), fun _ => Peripherals.silent_setSound _ _⟩
      | ended halt => exact hushed
      | died text => exact ⟨Bool.noConfusion, Bool.noConfusion⟩
  | start | lose | leave => exact ⟨Bool.noConfusion, Bool.noConfusion⟩
  | collect move halt => exact ⟨fun _ => hushed.stopped rfl, fun _ => hushed.silent rfl⟩
  | gesture => exact ⟨fun stops => remains (hushed.stopped stops), hushed.silent⟩
  | tick =>
      exact ⟨fun stops => remains (hushed.stopped stops),
        fun silences => (Peripherals.tick_of_silent (hushed.silent silences)).1⟩
  | same => exact hushed

theorem Progress.done (progress : Progress surroundings move stage machine after next)
    (done : stage.isDone = true) (silent : machine.timers.sound = 0) :
    after.isDone = true ∧ next.timers.sound = 0 ∧ next.notices = machine.notices := by
  cases progress with
  | thread thread =>
      cases thread with
      | ended halt => exact ⟨rfl, silent, rfl⟩
      | looping phase | requestStop halt | silence halt | died text => cases done
  | start | lose => cases done
  | collect | leave => exact ⟨rfl, silent, rfl⟩
  | gesture | same => exact ⟨done, silent, rfl⟩
  | tick => exact ⟨done, Peripherals.tick_of_silent silent⟩

end

/-! ### Behind the join -/

/-- The thread is gone, no call of the metronome's job is under way, and there will be none that
ticks. -/
structure AtRest (scene : Scene) : Prop where
  stopped : scene.engine.machine.keypad.stopRequested = true
  idle : scene.ticking = false
  absent : scene.engine.thread? = none
  used : scene.engine.atHand = false ∨ ∃ halt, scene.engine.halt? = some halt

theorem AtRest.step {surroundings : Surroundings} {scene next : Scene} {move : Move}
    (rest : scene.AtRest) (step : Step surroundings scene move next) :
    next.AtRest ∧ ∃ keypad,
      next.engine.machine = { scene.engine.machine with keypad := keypad } := by
  obtain ⟨stopped, idle, absent, used⟩ := rest
  cases step with
  | thread thread active => cases absent.symm.trans active
  | look =>
      rw [stopped]
      exact ⟨⟨stopped, rfl, absent, used⟩, _, rfl⟩
  | tick ticking => cases idle.symm.trans ticking
  | gesture gesture =>
      exact ⟨⟨(Keypad.stopRequested_handle _ _).mpr (.inl stopped), idle, absent, used⟩, _, rfl⟩
  | start free atHand fresh =>
      rcases used with away | ⟨halt, settled⟩
      · cases away.symm.trans atHand
      · cases settled.symm.trans fresh
  | restart | stop | idleStop | report | settle => exact ⟨⟨stopped, idle, absent, used⟩, _, rfl⟩
  | requestStop | drop =>
      exact ⟨⟨(Keypad.stopRequested_handle _ _).mpr (.inl stopped), idle, absent, used⟩, _, rfl⟩
  | join collected joined free present => exact absurd absent present
  | collect collected joined dropping collects =>
      cases collects with
      | nobody => exact ⟨⟨stopped, idle, absent, used⟩, _, rfl⟩
      | halted halt ended => cases absent.symm.trans ended
      | raised text died => cases absent.symm.trans died
  | close => exact ⟨⟨stopped, idle, rfl, .inl rfl⟩, _, rfl⟩

theorem AtRest.run {surroundings : Surroundings} {scene reached : Scene} {moves : List Move}
    (rest : scene.AtRest) (course : scene.moves? surroundings moves = some reached) :
    reached.AtRest ∧ ∃ keypad,
      reached.engine.machine = { scene.engine.machine with keypad := keypad } := by
  refine invariant_of_run
    (fun current : Scene => current.AtRest ∧
      ∃ keypad, current.engine.machine = { scene.engine.machine with keypad := keypad })
    ?_ ⟨rest, scene.engine.machine.keypad, rfl⟩ course
  intro current move next holds made
  obtain ⟨currentRest, keypad, changed⟩ := holds
  obtain ⟨nextRest, other, changedAgain⟩ := currentRest.step (step_of_move made)
  refine ⟨nextRest, other, ?_⟩
  rw [changedAgain, changed]

structure Restful (scene : Scene) : Prop where
  settled : ∀ halt, scene.engine.halt? = some halt →
    (∃ joined, scene.owner = .settling joined) ∨ scene.owner = .closing ∨ scene.AtRest
  reported : ∀ halt, .halted halt ∈ scene.results → scene.AtRest

theorem Restful.of_rest {scene : Scene} (rest : scene.AtRest) : scene.Restful :=
  ⟨fun _ _ => .inr (.inr rest), fun _ _ => rest⟩

theorem Restful.of_unsettled {scene : Scene} (unsettled : scene.engine.halt? = none)
    (unreported : ∀ halt, .halted halt ∉ scene.results) : scene.Restful := by
  constructor
  · intro halt settled
    cases unsettled.symm.trans settled
  · exact fun halt member => absurd member (unreported halt)

theorem Restful.of_busy {scene : Scene}
    (busy : (∃ joined, scene.owner = .settling joined) ∨ scene.owner = .closing)
    (unreported : ∀ halt, .halted halt ∉ scene.results) : scene.Restful := by
  constructor
  · intro _ _
    rcases busy with settling | closing
    · exact .inl settling
    · exact .inr (.inl closing)
  · exact fun halt member => absurd member (unreported halt)

/-- The owner of an engine that is not at rest learns the reason in a join, or in a drop, that is
not over yet. -/
theorem Restful.busy_or_unsettled {scene : Scene} (restful : scene.Restful)
    (awake : ¬ scene.AtRest) :
    ((∃ joined, scene.owner = .settling joined) ∨ scene.owner = .closing) ∨
      scene.engine.halt? = none := by
  cases known : scene.engine.halt? with
  | none => exact .inr rfl
  | some halt =>
      rcases restful.settled halt known with settling | closing | rest
      · exact .inl (.inl settling)
      · exact .inl (.inr closing)
      · exact absurd rest awake

theorem Restful.unsettled {scene : Scene} {owner : EngineOwner} (restful : scene.Restful)
    (awake : ¬ scene.AtRest) (same : scene.owner = owner)
    (notSettling : ∀ joined, owner ≠ .settling joined) (notClosing : owner ≠ .closing) :
    scene.engine.halt? = none := by
  rcases restful.busy_or_unsettled awake with (⟨joined, settling⟩ | closing) | unsettled
  · exact absurd (same.symm.trans settling) (notSettling joined)
  · exact absurd (same.symm.trans closing) notClosing
  · exact unsettled

theorem Restful.of_others {scene next : Scene} (restful : scene.Restful) (awake : ¬ scene.AtRest)
    (sameOwner : next.owner = scene.owner) (sameHalt : next.engine.halt? = scene.engine.halt?)
    (sameResults : next.results = scene.results) : next.Restful := by
  have unreported : ∀ halt, .halted halt ∉ next.results := by
    intro halt member
    rw [sameResults] at member
    exact awake (restful.reported halt member)
  rcases restful.busy_or_unsettled awake with busy | unsettled
  · rw [← sameOwner] at busy
    exact .of_busy busy unreported
  · exact .of_unsettled (sameHalt.trans unsettled) unreported

theorem Restful.step {surroundings : Surroundings} {scene next : Scene} {stage : Stage}
    {move : Move} (restful : scene.Restful) (place : scene.At stage)
    (hushed : stage.Hushed scene.engine.machine) (ledger : scene.Ledger)
    (step : Step surroundings scene move next) : next.Restful := by
  -- In a scene that is not at rest no join has returned a reason, so only a result of this step
  -- counts.
  by_cases rest : scene.AtRest
  · exact .of_rest (rest.step step).1
  have unreported : ∀ halt, .halted halt ∉ scene.results := fun halt member =>
    rest (restful.reported halt member)
  cases step with
  | thread | look | tick | gesture => exact restful.of_others rest rfl rfl rfl
  | start free atHand fresh => exact .of_unsettled fresh unreported
  | restart | idleStop => exact restful
  | stop owner | requestStop owner | drop owner =>
      exact .of_unsettled
        (restful.unsettled rest owner (fun _ => EngineOwner.noConfusion) EngineOwner.noConfusion)
        unreported
  | join collected joined => exact .of_busy (.inl ⟨joined, rfl⟩) unreported
  | report free absent =>
      have unsettled :=
        restful.unsettled rest free (fun _ => EngineOwner.noConfusion) EngineOwner.noConfusion
      refine .of_unsettled unsettled (fun halt member => ?_)
      simp only [Engine.report, unsettled, List.mem_cons, reduceCtorEq, false_or] at member
      exact unreported halt member
  | settle joined settling idle =>
      obtain ⟨absent, ⟨halt, _, settled⟩ | ⟨⟨text, rfl⟩, away⟩⟩ := ledger.settling joined settling
      · have stopped : scene.engine.machine.keypad.stopRequested = true := by
          apply hushed.stopped
          rw [Stage.eq_settled_of_halt (place.halt.symm.trans settled)]
          rfl
        exact .of_rest ⟨stopped, idle, absent, .inr ⟨halt, settled⟩⟩
      · have unsettled : scene.engine.halt? = none := by
          cases known : scene.engine.halt? with
          | none => rfl
          | some halt =>
              cases Stage.eq_settled_of_halt (place.halt.symm.trans known)
              cases away.symm.trans place.atHand
        refine .of_unsettled unsettled (fun halt member => ?_)
        simp only [List.mem_cons, reduceCtorEq, false_or] at member
        exact unreported halt member
  | collect collected joined dropping collects => exact .of_busy (.inr rfl) unreported
  | close => exact .of_unsettled rfl unreported

/-! ### Every run -/

theorem rest_of_moves {surroundings : Surroundings} {machine : Machine} {pace : Pace}
    {moves : List Move} {scene : Scene}
    (course : (opening machine pace).moves? surroundings moves = some scene) :
    ∃ stage, scene.At stage ∧ stage.Hushed scene.engine.machine ∧ scene.Ledger ∧ scene.Restful := by
  refine invariant_of_run
    (fun current : Scene => ∃ stage, current.At stage ∧ stage.Hushed current.engine.machine ∧
      current.Ledger ∧ current.Restful) ?_ ?_ course
  · intro current move next holds made
    obtain ⟨stage, place, hushed, ledger, restful⟩ := holds
    have step := step_of_move made
    obtain ⟨after, nextPlace, progress⟩ := progress_of_step place step
    exact ⟨after, nextPlace, progress.hushed hushed, ledger.step place step,
      restful.step place hushed ledger step⟩
  · refine ⟨.ready, at_opening machine pace, ⟨Bool.noConfusion, Bool.noConfusion⟩,
      ledger_opening machine pace, .of_unsettled rfl (fun _ => List.not_mem_nil)⟩

theorem silent_of_moves {surroundings : Surroundings} {scene reached : Scene} {stage : Stage}
    {moves : List Move} (place : scene.At stage) (done : stage.isDone = true)
    (silent : scene.engine.machine.timers.sound = 0)
    (course : scene.moves? surroundings moves = some reached) :
    reached.engine.machine.timers.sound = 0 ∧
      reached.engine.machine.notices = scene.engine.machine.notices := by
  have holds := invariant_of_run
    (fun current : Scene => (∃ stage, current.At stage ∧ stage.isDone = true) ∧
      current.engine.machine.timers.sound = 0 ∧
      current.engine.machine.notices = scene.engine.machine.notices) ?_
    ⟨⟨stage, place, done⟩, silent, rfl⟩ course
  · exact holds.2
  · intro current move next holds made
    obtain ⟨⟨stage, place, done⟩, silent, untold⟩ := holds
    obtain ⟨after, nextPlace, progress⟩ := progress_of_move place made
    obtain ⟨stillDone, stillSilent, stillUntold⟩ := progress.done done silent
    exact ⟨⟨after, nextPlace, stillDone⟩, stillSilent, stillUntold.trans untold⟩

/-- A machine whose listener was installed while the sound timer was zero, in an engine whose thread
has ended for whatever reason. From then on a stop is requested and the sound timer is zero. As many
stops as starts have been told, and nothing more is told. All of it was told to the listener, unless
a display has replaced it. Once a join has returned the reason, only the keypad can still change. -/
theorem ended_engine_rests {surroundings : Surroundings} {machine : Machine}
    {happenings : List Happening} {pace : Pace} {earlier later : List Move} {scene reached : Scene}
    {halt : Halt} (silent : machine.timers.sound = 0)
    (before :
      (opening (machine.happenAll surroundings happenings) pace).moves? surroundings earlier =
        some scene)
    (ended : scene.engine.thread? = some (.ended halt))
    (onward : scene.moves? surroundings later = some reached) :
    reached.engine.machine.keypad.stopRequested = true ∧ reached.engine.machine.timers.sound = 0 ∧
    reached.engine.machine.notices = scene.engine.machine.notices ∧
    (∃ told, reached.engine.machine.notices = told ++ machine.notices ∧
      (surroundings.KeepsListener → ∀ notice ∈ told, notice.listener = machine.timers.listener) ∧
      (told.map Notice.tone).count .start = (told.map Notice.tone).count .stop) ∧
    ∀ returned, .halted returned ∈ reached.results →
      ∀ more last, reached.moves? surroundings more = some last →
        ∃ keypad, last.engine.machine = { reached.engine.machine with keypad := keypad } := by
  obtain ⟨stage, place, hushed, _, _⟩ := rest_of_moves before
  cases Stage.eq_active_of_thread (place.thread.symm.trans ended)
  obtain ⟨reachedSilent, untold⟩ := silent_of_moves place rfl (hushed.silent rfl) onward
  obtain ⟨_, _, earlierLeads⟩ := leadsTo_of_moves (at_opening _ pace) before
  obtain ⟨_, _, laterLeads⟩ := leadsTo_of_moves place onward
  have played :=
    (machine.happenAll_leadsTo surroundings happenings).trans (earlierLeads.trans laterLeads)
  obtain ⟨told, notices, listener, balance⟩ := played.tones silent
  rw [if_pos reachedSilent] at balance
  refine ⟨laterLeads.stopRequested (hushed.stopped rfl), reachedSilent, untold,
    ⟨told, notices, listener, balance⟩, ?_⟩
  intro returned member more last course
  obtain ⟨_, _, _, _, restful⟩ := rest_of_moves (run_of_parts before onward)
  exact ((restful.reported returned member).run course).2

/-- A program that starts a tone and then faults. A tick that has passed its check comes between the
thread's request to stop and the end of the tone. -/
theorem ended_engine_rests_after_fault :
    let machine := Machine.fresh .zeros (some 3)
    let happenings : List Happening := [.write 0x200 [0x60, 0x02, 0xF0, 0x18, 0x00, 0xEE]]
    let earlier : List Move := [.start, .thread, .thread, .thread, .thread, .thread, .thread, .look,
      .thread, .thread, .thread, .thread, .thread, .tick, .thread]
    ∃ scene reached,
      (opening (machine.happenAll .quiet happenings) .standard).moves? .quiet earlier = some scene ∧
      scene.engine.thread? = some (.ended (.fault (.stack .underflow))) ∧
      scene.moves? .quiet [.join, .settle] = some reached ∧
      reached.engine.machine.notices.length = 2 ∧ reached.engine.machine.timers.sound = 0 ∧
      ∀ more last, reached.moves? .quiet more = some last →
        ∃ keypad, last.engine.machine = { reached.engine.machine with keypad := keypad } := by
  intro machine happenings earlier
  have courses :
      ((opening (machine.happenAll .quiet happenings) .standard).moves? .quiet earlier).bind
        (fun scene => (scene.moves? .quiet [.join, .settle]).map fun reached =>
          (scene.engine.thread?, reached.results, reached.engine.machine.notices.length)) =
        some (some (.ended (.fault (.stack .underflow))),
          [.halted (.fault (.stack .underflow))], 2) := by
    decide +kernel
  obtain ⟨scene, before, rest⟩ := Option.bind_eq_some_iff.mp courses
  obtain ⟨reached, onward, facts⟩ := Option.map_eq_some_iff.mp rest
  injection facts with ended others
  injection others with returned told
  have rests := ended_engine_rests rfl before ended onward
  have member : .halted (.fault (.stack .underflow)) ∈ reached.results := by
    rw [returned]
    exact List.mem_cons_self
  exact ⟨scene, reached, before, ended, onward, told, rests.2.1, rests.2.2.2.2 _ member⟩

end Scene

end Chip8Machine
