import Chip8Machine.History
import Chip8Machine.Proofs.EngineSteps
import Chip8Machine.Proofs.Halting

/-!
What a stop request does to a loop that is running, at whatever phase the request finds it.

The loop looks for a request once a turn, and in a wait for a key. So a turn that is past its first
check is the last one: it can execute its instruction, be refused, or leave memory, and a wait that
it begins ends at once. The steps of the others around the engine do not matter. The induction is on
these steps, and carries the phase at which the loop is.
-/

set_option autoImplicit false

namespace Chip8Machine

namespace Phase

/-- The instruction that a step of the loop executes, or brings to its end by putting a key into its
register. -/
def executed? (surroundings : Surroundings) (phase : Phase) (machine : Machine) :
    Option Instruction :=
  match phase with
  | .cycle => machine.executed? surroundings
  | .receive register _ => some (.awaitKey register)
  | _ => none

/-- How many instructions the loop may still execute or end once a stop has been requested. -/
def instructionsLeft : Phase → Nat
  | .checkCounter => 1
  | .cycle => 1
  | .receive _ _ => 1
  | _ => 0

def stepsLeft : Phase → Nat
  | .checkStop => 1
  | .checkCounter => 3
  | .cycle => 2
  | .enterWait _ => 1
  | .sleep _ _ => 1
  | .receive _ _ => 2
  | .ended _ => 0

theorem instructionsLeft_le_one (phase : Phase) : phase.instructionsLeft ≤ 1 := by
  cases phase with
  | checkCounter | cycle | receive register key => exact Nat.le_refl 1
  | _ => exact Nat.zero_le 1

theorem stepsLeft_le_three (phase : Phase) : phase.stepsLeft ≤ 3 := by
  cases phase with
  | _ => exact Nat.le_of_ble_eq_true rfl

theorem stepsLeft_pos {phase : Phase} (running : ∀ ending, phase ≠ .ended ending) :
    0 < phase.stepsLeft := by
  cases phase with
  | ended ending => exact absurd rfl (running ending)
  | _ => exact Nat.zero_lt_succ _

inductive EndsStopped (surroundings : Surroundings) (machine : Machine) : Phase → Ending → Prop
  | requested (phase : Phase) : EndsStopped surroundings machine phase (.halted .requested)
  | outside (outside : Layout.memorySize ≤ machine.registers.counter + 1) :
      EndsStopped surroundings machine .checkCounter
        (.halted (.counterOutOfRange machine.registers.counter))
  | refused {phase : Phase} {fault : Fault} (committed : phase = .checkCounter ∨ phase = .cycle)
      (refuses : machine.CycleRefuses fault) :
      EndsStopped surroundings machine phase (.halted (.fault fault))
  | raised {phase : Phase} (text : String) (committed : phase = .checkCounter ∨ phase = .cycle)
      (unsteady : ¬ surroundings.Steady) : EndsStopped surroundings machine phase (.raised text)

section

variable {surroundings : Surroundings} {machine after : Machine} {phase next : Phase}

theorem EndsStopped.of_toCore {other : Machine} {ending : Ending}
    (same : machine.toCore = other.toCore) (ends : EndsStopped surroundings machine phase ending) :
    EndsStopped surroundings other phase ending := by
  cases ends with
  | requested => exact .requested phase
  | outside outside =>
      have counter : machine.registers.counter = other.registers.counter :=
        congrArg (fun core : Core => core.registers.counter) same
      rw [counter] at outside ⊢
      exact .outside outside
  | refused committed refuses =>
      exact .refused committed (Machine.cycleRefuses_of_toCore same refuses)
  | raised text committed unsteady => exact .raised text committed unsteady

/-- A loop that has not passed the check of its turn, or is past its instruction, can end in one way
only. -/
theorem EndsStopped.eq_requested {ending : Ending}
    (ends : EndsStopped surroundings machine phase ending) (ahead : phase ≠ .checkCounter)
    (behind : phase ≠ .cycle) : ending = .halted .requested := by
  cases ends with
  | requested => rfl
  | outside outside => exact absurd rfl ahead
  | refused committed refuses => exact (committed.elim ahead behind).elim
  | raised text committed unsteady => exact (committed.elim ahead behind).elim

theorem Step.instructionsLeft_le (step : Step surroundings machine phase next after)
    (stop : machine.keypad.stopRequested = true) :
    (phase.executed? surroundings machine).toList.length + next.instructionsLeft ≤
      phase.instructionsLeft := by
  cases step with
  | proceed noStop =>
      rw [stop] at noStop
      cases noStop
  | refused fault refuses =>
      have failed := Machine.next_of_refused surroundings refuses
      have nothing : Phase.cycle.executed? surroundings machine = none :=
        Machine.executed?_of_fault failed
      rw [nothing]
      exact Nat.zero_le 1
  | raised | again | await => exact Option.length_toList_le
  | begin | look =>
      rw [Keypad.poll_of_stop stop]
      exact Nat.le_refl 0
  | stop => exact Nat.le_refl 0
  | outside => exact Nat.zero_le 1
  | inside | receive => exact Nat.le_refl 1

theorem Step.stepsLeft_lt (step : Step surroundings machine phase next after)
    (stop : machine.keypad.stopRequested = true) : next.stepsLeft < phase.stepsLeft := by
  cases step with
  | proceed noStop =>
      rw [stop] at noStop
      cases noStop
  | begin | look =>
      rw [Keypad.poll_of_stop stop]
      exact Nat.zero_lt_one
  | stop | outside | refused | raised => exact Nat.zero_lt_succ _
  | inside | again | await | receive => exact Nat.lt_succ_self _

theorem Step.toCore_of_no_instructionsLeft (step : Step surroundings machine phase next after)
    (nothing : phase.instructionsLeft = 0) : after.toCore = machine.toCore := by
  cases step with
  | stop | proceed | begin | look => rfl
  | outside | inside | refused | raised | again | await | receive => cases nothing

theorem Step.endsStopped {ending : Ending}
    (step : Step surroundings machine phase (.ended ending) after)
    (stop : machine.keypad.stopRequested = true) :
    EndsStopped surroundings machine phase ending := by
  generalize ended : Phase.ended ending = next at step
  cases step with
  | stop =>
      cases ended
      exact .requested _
  | outside outside =>
      cases ended
      exact .outside outside
  | refused fault refuses =>
      cases ended
      exact .refused (.inr rfl) refuses
  | raised text after cycled =>
      cases ended
      exact .raised text (.inr rfl) (Machine.not_steady_of_next cycled)
  | begin | look =>
      rw [Keypad.poll_of_stop stop] at ended
      cases ended
      exact .requested _
  | proceed | inside | again | await | receive => cases ended

/-- What the next phase allows the phase before it allowed already. -/
theorem EndsStopped.of_step {ending : Ending} (ends : EndsStopped surroundings after next ending)
    (step : Step surroundings machine phase next after) (stop : machine.keypad.stopRequested = true)
    (running : ∀ ending, next ≠ .ended ending) : EndsStopped surroundings machine phase ending := by
  cases step with
  | inside =>
      cases ends with
      | requested => exact .requested _
      | refused committed refuses => exact .refused (.inl rfl) refuses
      | raised text committed unsteady => exact .raised text (.inl rfl) unsteady
  | again | await | receive =>
      rw [ends.eq_requested Phase.noConfusion Phase.noConfusion]
      exact .requested _
  | proceed noStop =>
      rw [stop] at noStop
      cases noStop
  | begin | look =>
      rw [Keypad.poll_of_stop stop] at running
      exact absurd rfl (running _)
  | stop | outside | refused | raised => exact absurd rfl (running _)

end

end Phase

namespace Stage

def Behind (stage : Stage) (ending : Ending) : Prop :=
  stage.ending? = some ending ∨ stage = .lost

end Stage

namespace Scene

def executedBy? (surroundings : Surroundings) (scene : Scene) : Move → Option Instruction
  | .thread =>
      match scene.engine.thread? with
      | some (.looping phase) => phase.executed? surroundings scene.engine.machine
      | _ => none
  | _ => none

def executedAll (surroundings : Surroundings) (scene : Scene) : List Move → List Instruction
  | [] => []
  | move :: rest =>
      (scene.executedBy? surroundings move).toList ++
        match scene.move? surroundings move with
        | some next => next.executedAll surroundings rest
        | none => []

theorem executedAll_cons {surroundings : Surroundings} {scene next : Scene} {move : Move}
    (made : scene.move? surroundings move = some next) (rest : List Move) :
    scene.executedAll surroundings (move :: rest) =
      (scene.executedBy? surroundings move).toList ++ next.executedAll surroundings rest := by
  simp only [executedAll, made]

theorem executedBy?_of_looping (surroundings : Surroundings) {scene : Scene} {phase : Phase}
    (looping : scene.engine.thread? = some (.looping phase)) :
    scene.executedBy? surroundings .thread = phase.executed? surroundings scene.engine.machine := by
  simp only [executedBy?, looping]

theorem executedBy?_of_ne_thread (surroundings : Surroundings) (scene : Scene) {move : Move}
    (others : move ≠ .thread) : scene.executedBy? surroundings move = none := by
  cases move with
  | thread => exact absurd rfl others
  | _ => rfl

theorem executedBy?_of_behind {surroundings : Surroundings} {scene : Scene} {stage : Stage}
    {ending : Ending} (place : scene.At stage) (behind : stage.Behind ending) (move : Move) :
    scene.executedBy? surroundings move = none := by
  cases move with
  | thread =>
      simp only [executedBy?, place.thread]
      split
      · rename_i phase looping
        cases Stage.eq_active_of_thread looping
        rcases behind with ended | lost
        · cases phase with
          | ended other => rfl
          | _ => cases ended
        · cases lost
      · rfl
  | _ => rfl

theorem Progress.behind {surroundings : Surroundings} {move : Move} {stage after : Stage}
    {machine next : Machine} {ending : Ending}
    (progress : Progress surroundings move stage machine after next)
    (behind : stage.Behind ending) : after.Behind ending ∧ next.toCore = machine.toCore := by
  rcases behind with ended | rfl
  · cases progress with
    | thread thread =>
        exact ⟨.inl (Thread.ending?_advance ended surroundings machine),
          Thread.toCore_advance ended surroundings machine⟩
    | start => cases ended
    | lose | leave => exact ⟨.inr rfl, rfl⟩
    | collect | gesture | tick | same => exact ⟨.inl ended, rfl⟩
  · cases progress with
    | leave | gesture | tick | same => exact ⟨.inr rfl, rfl⟩

/-- Behind the end of the loop nothing of the program changes. -/
theorem rests_of_behind {surroundings : Surroundings} {scene reached : Scene} {stage : Stage}
    {ending : Ending} {later : List Move} (place : scene.At stage) (behind : stage.Behind ending)
    (course : scene.moves? surroundings later = some reached) :
    scene.executedAll surroundings later = [] ∧
      reached.engine.machine.toCore = scene.engine.machine.toCore ∧
      ∃ after, reached.At after ∧ after.Behind ending := by
  induction later generalizing scene stage with
  | nil =>
      cases course
      exact ⟨rfl, rfl, stage, place, behind⟩
  | cons move rest ih =>
      obtain ⟨next, made, onward⟩ := exists_of_run_cons course
      obtain ⟨after, nextPlace, progress⟩ := progress_of_move place made
      obtain ⟨stillBehind, sameCore⟩ := progress.behind behind
      obtain ⟨nothing, restCore, reachedBehind⟩ := ih nextPlace stillBehind onward
      refine ⟨?_, restCore.trans sameCore, reachedBehind⟩
      rw [executedAll_cons made, executedBy?_of_behind place behind, nothing]
      rfl

structure WindsDown (surroundings : Surroundings) (scene : Scene) (phase : Phase)
    (later : List Move) (reached : Scene) : Prop where
  few : (scene.executedAll surroundings later).length ≤ phase.instructionsLeft
  kept : phase.instructionsLeft = 0 → reached.engine.machine.toCore = scene.engine.machine.toCore
  ending : ∀ ending, reached.engine.ending? = some ending →
    phase.EndsStopped surroundings scene.engine.machine ending
  ends : phase.stepsLeft ≤ later.count .thread → ∃ first rest middle ending, later = first ++ rest ∧
    scene.moves? surroundings first = some middle ∧
    middle.engine.thread? = some (.looping (.ended ending))

theorem Progress.looping_cases {surroundings : Surroundings} {move : Move} {phase : Phase}
    {after : Stage} {machine next : Machine}
    (progress : Progress surroundings move (.active (.looping phase)) machine after next)
    (running : ∀ ending, phase ≠ .ended ending) :
    move = .thread ∧ after = .active (.looping (phase.advance surroundings machine).1) ∧
        next = (phase.advance surroundings machine).2 ∨
      move ≠ .thread ∧ after = .active (.looping phase) := by
  cases progress with
  | thread =>
      rw [Thread.advance_looping surroundings machine running]
      exact .inl ⟨rfl, rfl, rfl⟩
  | leave stage machine idle => cases idle
  | gesture move gesture stage machine uses =>
      refine .inr ⟨fun same => ?_, rfl⟩
      subst same
      cases uses
  | tick => exact .inr ⟨by decide, rfl⟩
  | same move stage machine others => exact .inr ⟨others, rfl⟩

theorem WindsDown.of_end {surroundings : Surroundings} {scene next reached : Scene} {phase : Phase}
    {rest : List Move} {ending : Ending} (stop : scene.engine.machine.keypad.stopRequested = true)
    (looping : scene.engine.thread? = some (.looping phase))
    (made : scene.move? surroundings .thread = some next)
    (place : next.At (.active (.looping (.ended ending))))
    (step : phase.Step surroundings scene.engine.machine (.ended ending) next.engine.machine)
    (onward : next.moves? surroundings rest = some reached) :
    WindsDown surroundings scene phase (.thread :: rest) reached := by
  obtain ⟨nothing, sameCore, after, reachedPlace, behind⟩ := rests_of_behind place (.inl rfl) onward
  refine ⟨?_, ?_, ?_, ?_⟩
  · rw [executedAll_cons made, executedBy?_of_looping surroundings looping, nothing,
      List.append_nil]
    exact Nat.le_trans (Nat.le_add_right _ _) (step.instructionsLeft_le stop)
  · intro none
    exact sameCore.trans (step.toCore_of_no_instructionsLeft none)
  · intro other ended
    rw [reachedPlace.ending] at ended
    rcases behind with same | lost
    · cases same.symm.trans ended
      exact step.endsStopped stop
    · rw [lost] at ended
      cases ended
  · intro _
    exact ⟨[.thread], rest, next, ending, rfl, run_cons_of_made made [], place.thread⟩

theorem WindsDown.of_step {surroundings : Surroundings} {scene next reached : Scene}
    {phase after : Phase} {rest : List Move}
    (stop : scene.engine.machine.keypad.stopRequested = true)
    (looping : scene.engine.thread? = some (.looping phase))
    (made : scene.move? surroundings .thread = some next)
    (running : ∀ ending, after ≠ .ended ending)
    (step : phase.Step surroundings scene.engine.machine after next.engine.machine)
    (onward : WindsDown surroundings next after rest reached) :
    WindsDown surroundings scene phase (.thread :: rest) reached := by
  have bound := step.instructionsLeft_le stop
  refine ⟨?_, ?_, ?_, ?_⟩
  · rw [executedAll_cons made, executedBy?_of_looping surroundings looping, List.length_append]
    exact Nat.le_trans (Nat.add_le_add_left onward.few _) bound
  · intro none
    exact (onward.kept (by omega)).trans (step.toCore_of_no_instructionsLeft none)
  · intro ending ended
    exact (onward.ending ending ended).of_step step stop running
  · intro enough
    have fewer := step.stepsLeft_lt stop
    rw [List.count_cons_self] at enough
    obtain ⟨first, others, middle, ending, split, course, ended⟩ := onward.ends (by omega)
    exact ⟨.thread :: first, others, middle, ending, by rw [split, List.cons_append],
      (run_cons_of_made made first).trans course, ended⟩

theorem WindsDown.of_others {surroundings : Surroundings} {scene next reached : Scene}
    {phase : Phase} {move : Move} {rest : List Move} (others : move ≠ .thread)
    (made : scene.move? surroundings move = some next)
    (same : next.engine.machine.toCore = scene.engine.machine.toCore)
    (onward : WindsDown surroundings next phase rest reached) :
    WindsDown surroundings scene phase (move :: rest) reached := by
  refine ⟨?_, ?_, ?_, ?_⟩
  · rw [executedAll_cons made, executedBy?_of_ne_thread surroundings scene others]
    exact onward.few
  · intro none
    exact (onward.kept none).trans same
  · intro ending ended
    exact (onward.ending ending ended).of_toCore same
  · intro enough
    rw [List.count_cons_of_ne others] at enough
    obtain ⟨first, left, middle, ending, split, course, ended⟩ := onward.ends enough
    exact ⟨move :: first, left, middle, ending, by rw [split, List.cons_append],
      (run_cons_of_made made first).trans course, ended⟩

theorem windsDown_of_moves {surroundings : Surroundings} {scene reached : Scene} {phase : Phase}
    {later : List Move} (place : scene.At (.active (.looping phase)))
    (running : ∀ ending, phase ≠ .ended ending)
    (stop : scene.engine.machine.keypad.stopRequested = true)
    (course : scene.moves? surroundings later = some reached) :
    WindsDown surroundings scene phase later reached := by
  -- Only a step of the thread brings the loop to its next phase; the steps of the others leave the
  -- phase alone.
  induction later generalizing scene phase with
  | nil =>
      cases course
      refine ⟨Nat.zero_le _, fun _ => rfl, ?_, ?_⟩
      · intro ending ended
        rw [place.ending] at ended
        cases (Thread.ending?_looping_eq_none running).symm.trans ended
      · intro enough
        exact absurd enough (Nat.not_le_of_lt (Phase.stepsLeft_pos running))
  | cons move rest ih =>
      obtain ⟨next, made, onward⟩ := exists_of_run_cons course
      obtain ⟨after, nextPlace, progress⟩ := progress_of_move place made
      have nextStop := progress.leadsTo.stopRequested stop
      rcases progress.looping_cases running with ⟨rfl, rfl, advanced⟩ | ⟨others, rfl⟩
      · have step := Phase.step_of_running surroundings scene.engine.machine running
        rw [← advanced] at step
        by_cases finished : ∃ ending,
          (phase.advance surroundings scene.engine.machine).1 = .ended ending
        · obtain ⟨ending, ended⟩ := finished
          rw [ended] at step nextPlace
          exact .of_end stop place.thread made nextPlace step onward
        · have goesOn := fun ending same => finished ⟨ending, same⟩
          exact .of_step stop place.thread made goesOn step (ih nextPlace goesOn nextStop onward)
      · exact .of_others others made (progress.toCore others) (ih nextPlace running nextStop onward)

theorem move?_stop_of_running (surroundings : Surroundings) {scene : Scene}
    (free : scene.owner = .free) (running : scene.engine.state = .running) :
    scene.move? surroundings .stop = some { scene with owner := .stopping } := by
  simp only [move?, free, running]

theorem requests_of_move {surroundings : Surroundings} {scene stopped : Scene} {move : Move}
    (requests : move.gesture? = some .requestStop)
    (made : scene.move? surroundings move = some stopped) :
    stopped.engine = scene.engine.handle .requestStop := by
  cases step_of_move made with
  | gesture gesture =>
      cases requests
      rfl
  | requestStop | drop => rfl
  | _ => cases requests

/-- A request to stop that finds the loop of a started engine at any phase, be it made by the
owner, by somebody at the keypad, or by dropping the engine. In whatever order things happen from
then on, at most one more instruction is executed or brought to its end, and none if the loop is
at the start of a turn or waits for a key. Three more steps of the thread end the loop, and it
ends on request unless the turn that was under way ends it. A loop that waits for a key leaves
the registers as they are. The request stays, so that every later run of the machine halts before
its first instruction. -/
theorem stop_takes_effect {surroundings : Surroundings} {machine : Machine} {pace : Pace}
    {earlier : List Move} {scene : Scene} {phase : Phase}
    (before : (opening machine pace).moves? surroundings earlier = some scene)
    (looping : scene.engine.thread? = some (.looping phase))
    (running : ∀ ending, phase ≠ .ended ending) :
    (scene.owner = .free →
      scene.move? surroundings .stop = some { scene with owner := .stopping }) ∧
    (∀ move stopped, move.gesture? = some .requestStop →
      scene.move? surroundings move = some stopped →
      stopped.engine.machine.keypad.stopRequested = true ∧
        stopped.engine.thread? = some (.looping phase) ∧
        stopped.engine.machine.toCore = scene.engine.machine.toCore) ∧
    (scene.engine.machine.keypad.stopRequested = true →
      ∀ later reached, scene.moves? surroundings later = some reached →
        reached.engine.machine.keypad.stopRequested = true ∧
        (scene.executedAll surroundings later).length ≤ phase.instructionsLeft ∧
        phase.instructionsLeft ≤ 1 ∧
        (∀ ending, reached.engine.ending? = some ending →
          phase.EndsStopped surroundings scene.engine.machine ending) ∧
        (3 ≤ later.count .thread → ∃ first rest middle ending, later = first ++ rest ∧
          scene.moves? surroundings first = some middle ∧
          middle.engine.thread? = some (.looping (.ended ending))) ∧
        (∀ register, (phase = .enterWait register ∨ ∃ seen, phase = .sleep register seen) →
          reached.engine.machine.toCore = scene.engine.machine.toCore ∧
            ∀ ending, reached.engine.ending? = some ending → ending = .halted .requested) ∧
        ∀ others answers fuel, reached.engine.machine.run others answers (fuel + 3) =
          some (.halted .requested, reached.engine.machine, answers)) := by
  obtain ⟨stage, place, _⟩ := leadsTo_of_moves (at_opening machine pace) before
  cases Stage.eq_active_of_thread (place.thread.symm.trans looping)
  refine ⟨?_, ?_, ?_⟩
  · intro free
    have engineRuns := (Engine.state_eq_running_iff _).mpr ⟨place.halt, _, place.thread, rfl⟩
    exact move?_stop_of_running surroundings free engineRuns
  · intro move stopped requests made
    rw [requests_of_move requests made]
    exact ⟨(Keypad.stopRequested_handle _ _).mpr (.inr rfl), looping, rfl⟩
  · intro stop later reached course
    have windsDown := windsDown_of_moves place running stop course
    obtain ⟨_, _, leads⟩ := leadsTo_of_moves place course
    have reachedStop := leads.stopRequested stop
    refine ⟨reachedStop, windsDown.few, phase.instructionsLeft_le_one, windsDown.ending, ?_, ?_,
      Machine.run_of_stop reachedStop⟩
    · intro enough
      exact windsDown.ends (Nat.le_trans phase.stepsLeft_le_three enough)
    · intro register waiting
      have spent : phase.instructionsLeft = 0 ∧ phase ≠ .checkCounter ∧ phase ≠ .cycle := by
        rcases waiting with rfl | ⟨seen, rfl⟩ <;>
          exact ⟨rfl, Phase.noConfusion, Phase.noConfusion⟩
      refine ⟨windsDown.kept spent.1, ?_⟩
      intro ending ended
      exact (windsDown.ending ending ended).eq_requested spent.2.1 spent.2.2

/-- A stop that finds the loop between its checks and its cycle. -/
theorem stop_takes_effect_before_cycle :
    ∃ scene,
      (opening .initial .standard).moves? .quiet
        [.start, .thread, .thread, .stop, .requestStop] = some scene ∧
      scene.engine.thread? = some (.looping .cycle) ∧
      ∀ later reached, scene.moves? .quiet later = some reached →
        (scene.executedAll .quiet later).length ≤ 1 := by
  refine ⟨_, rfl, rfl, ?_⟩
  intro later reached course
  have running : ∀ ending, Phase.cycle ≠ .ended ending := fun _ => Phase.noConfusion
  have effect := @stop_takes_effect .quiet .initial .standard
    [.start, .thread, .thread, .stop, .requestStop] _ _ rfl rfl running
  exact (effect.2.2 rfl later reached course).2.1

end Scene

end Chip8Machine
