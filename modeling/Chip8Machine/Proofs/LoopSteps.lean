import Chip8Machine.Engine
import Chip8Machine.Proofs.Cycle

/-!
What one step of the loop, or of the thread around it, can do.

`Phase.Step` has a constructor for each outcome of a step, with the condition under which it comes
about. A thread whose loop has ended only tidies up behind it: it keeps the ending, and what belongs
to the program.
-/

set_option autoImplicit false

namespace Chip8Machine

theorem Peripherals.raise_mem_of_react {listener : ToneListener} {peripherals : Peripherals}
    {reactions : List Reaction} {text : String}
    (raised : (peripherals.react listener reactions).2 = some text) : .raise text ∈ reactions := by
  induction reactions generalizing peripherals with
  | nil => cases raised
  | cons reaction rest ih =>
      cases reaction with
      | raise other =>
          cases raised
          exact List.mem_cons_self
      | gesture gesture => exact List.mem_cons_of_mem _ (ih raised)
      | change change => exact List.mem_cons_of_mem _ (ih raised)
      | beat => exact List.mem_cons_of_mem _ (ih raised)

namespace Machine

/-- The exception of a cycle is one of the display. -/
theorem not_steady_of_next {machine after : Machine} {surroundings : Surroundings} {text : String}
    (raised : machine.next surroundings = (after, .raised text)) : ¬ surroundings.Steady := by
  intro steady
  rcases machine.next_cases surroundings with
    ⟨fault, failed⟩ | ⟨word, executed, _, _, concluded⟩
  · rw [failed] at raised
    cases raised
  · rw [concluded] at raised
    cases demand : (Instruction.decode word).demand with
    | nothing | awaitKey register =>
        rw [demand] at raised
        cases raised
    | draw =>
        rw [demand] at raised
        simp only [conclude] at raised
        split at raised
        · cases raised
        · rename_i shown other presented
          have reacted : (executed.present surroundings).2 = some other := by rw [presented]
          exact steady _ other (Peripherals.raise_mem_of_react reacted)

theorem cycleRefuses_of_toCore {machine other : Machine} {fault : Fault}
    (same : machine.toCore = other.toCore) (refuses : machine.CycleRefuses fault) :
    other.CycleRefuses fault := by
  cases machine
  cases other
  cases same
  rcases refuses with outside | ⟨word, fetched, refused⟩
  · exact .inl outside
  · refine .inr ⟨word, fetched, ?_⟩
    cases refused with
    | underflow isRet empty => exact .underflow isRet empty
    | overflow isCall full => exact .overflow isCall full
    | draw isDraw outside => exact .draw isDraw outside
    | decimal isDevice low outside => exact .decimal isDevice low outside
    | through isDevice low outside => exact .through isDevice low outside

end Machine

namespace Phase

inductive Step (surroundings : Surroundings) (machine : Machine) :
    Phase → Phase → Machine → Prop where
  | stop (stop : machine.keypad.stopRequested = true) :
      Step surroundings machine .checkStop (.ended (.halted .requested)) machine
  | proceed (noStop : machine.keypad.stopRequested = false) :
      Step surroundings machine .checkStop .checkCounter machine
  | outside (outside : Layout.memorySize ≤ machine.registers.counter + 1) :
      Step surroundings machine .checkCounter
        (.ended (.halted (.counterOutOfRange machine.registers.counter))) machine
  | inside (inside : machine.registers.counter + 1 < Layout.memorySize) :
      Step surroundings machine .checkCounter .cycle machine
  | refused (fault : Fault) (refuses : machine.CycleRefuses fault) :
      Step surroundings machine .cycle (.ended (.halted (.fault fault))) machine
  | raised (text : String) (after : Machine)
      (cycled : machine.next surroundings = (after, .raised text)) :
      Step surroundings machine .cycle (.ended (.raised text)) after
  | again (demand : Demand) (after : Machine)
      (cycled : machine.next surroundings = (after, .done demand))
      (others : ∀ register, demand ≠ .awaitKey register) :
      Step surroundings machine .cycle .checkStop after
  | await (register : Register) (after : Machine)
      (cycled : machine.next surroundings = (after, .done (.awaitKey register))) :
      Step surroundings machine .cycle (.enterWait register) after
  | begin (register : Register) :
      Step surroundings machine (.enterWait register)
        (ofWait register machine.keypad.presses (machine.keypad.poll machine.keypad.presses))
        machine
  | look (register : Register) (seen : UInt64) :
      Step surroundings machine (.sleep register seen)
        (ofWait register seen (machine.keypad.poll seen)) machine
  | receive (register : Register) (key : Key) :
      Step surroundings machine (.receive register key) .checkStop (machine.receive register key)

theorem step_of_running (surroundings : Surroundings) {phase : Phase} (machine : Machine)
    (running : ∀ ending, phase ≠ .ended ending) :
    Step surroundings machine phase (phase.advance surroundings machine).1
      (phase.advance surroundings machine).2 := by
  cases phase with
  | checkStop =>
      cases stop : machine.keypad.stopRequested with
      | true =>
          simp only [advance, stop, if_true]
          exact .stop stop
      | false =>
          simp only [advance, stop, Bool.false_eq_true, if_false]
          exact .proceed stop
  | checkCounter =>
      by_cases outside : Layout.memorySize ≤ machine.registers.counter + 1
      · simp only [advance, if_pos outside]
        exact .outside outside
      · simp only [advance, if_neg outside]
        exact .inside (by omega)
  | cycle =>
      simp only [advance]
      cases cycled : machine.next surroundings with
      | mk after outcome =>
        cases outcome with
        | fault fault =>
            cases Machine.unchanged_of_fault cycled
            exact .refused fault (Machine.cycleRefuses_of_next (by rw [cycled]))
        | raised text => exact .raised text after cycled
        | done demand =>
            cases demand with
            | awaitKey register => exact .await register after cycled
            | nothing | draw =>
                exact .again _ after cycled (fun _ impossible => by cases impossible)
  | enterWait register => exact .begin register
  | sleep register seen => exact .look register seen
  | receive register key => exact .receive register key
  | ended ending => exact absurd rfl (running ending)

theorem ofWait_ne_raised (register : Register) (seen : UInt64) (wait : Wait) (text : String) :
    ofWait register seen wait ≠ .ended (.raised text) := by
  intro same
  cases wait with
  | pending => cases same
  | ended key =>
      cases key with
      | none | some key => cases same

theorem Step.not_steady {surroundings : Surroundings} {machine after : Machine} {phase : Phase}
    {text : String} (step : Step surroundings machine phase (.ended (.raised text)) after) :
    ¬ surroundings.Steady := by
  generalize same : Phase.ended (.raised text) = next at step
  cases step with
  | raised other after cycled => exact Machine.not_steady_of_next cycled
  | begin | look => exact absurd same.symm (ofWait_ne_raised _ _ _ text)
  | _ => cases same

end Phase

namespace Thread

/-- As long as the loop has not ended, the thread does a step of the loop. -/
theorem advance_looping (surroundings : Surroundings) {phase : Phase} (machine : Machine)
    (running : ∀ ending, phase ≠ .ended ending) :
    (looping phase).advance surroundings machine =
      (.looping (phase.advance surroundings machine).1,
        (phase.advance surroundings machine).2) := by
  cases phase with
  | ended ending => exact absurd rfl (running ending)
  | _ => rfl

def ending? : Thread → Option Ending
  | .looping (.ended ending) => some ending
  | .looping _ => none
  | .requestStop halt => some (.halted halt)
  | .silence halt => some (.halted halt)
  | .ended halt => some (.halted halt)
  | .died text => some (.raised text)

theorem ending?_looping_eq_none {phase : Phase} (running : ∀ ending, phase ≠ .ended ending) :
    (looping phase).ending? = none := by
  cases phase with
  | ended ending => exact absurd rfl (running ending)
  | _ => rfl

theorem ending?_advance {thread : Thread} {ending : Ending} (ended : thread.ending? = some ending)
    (surroundings : Surroundings) (machine : Machine) :
    (thread.advance surroundings machine).1.ending? = some ending := by
  cases thread with
  | looping phase =>
      cases phase with
      | ended other =>
          cases ended
          cases ending <;> rfl
      | _ => cases ended
  | requestStop halt | silence halt | ended halt | died text => exact ended

theorem toCore_advance {thread : Thread} {ending : Ending} (ended : thread.ending? = some ending)
    (surroundings : Surroundings) (machine : Machine) :
    (thread.advance surroundings machine).2.toCore = machine.toCore := by
  cases thread with
  | looping phase =>
      cases phase with
      | ended other => cases other <;> rfl
      | _ => cases ended
  | requestStop halt | silence halt | ended halt | died text => rfl

theorem looping_of_no_ending {thread : Thread} (unended : thread.ending? = none) :
    ∃ phase, thread = .looping phase ∧ ∀ ending, phase ≠ .ended ending := by
  cases thread with
  | looping phase =>
      refine ⟨phase, rfl, fun ending same => ?_⟩
      rw [same] at unended
      cases unended
  | requestStop halt | silence halt | ended halt | died text => cases unended

/-- A thread that gets an ending gets it from the loop. -/
theorem ended_of_advance {thread : Thread} {surroundings : Surroundings} {machine : Machine}
    {ending : Ending} (unended : thread.ending? = none)
    (ended : (thread.advance surroundings machine).1.ending? = some ending) :
    (thread.advance surroundings machine).1 = .looping (.ended ending) := by
  obtain ⟨phase, rfl, running⟩ := looping_of_no_ending unended
  rw [advance_looping surroundings machine running] at ended ⊢
  cases next : (phase.advance surroundings machine).1 with
  | ended other =>
      simp only [next] at ended
      cases ended
      rfl
  | _ =>
      simp only [next] at ended
      cases ended

theorem unraised_advance {surroundings : Surroundings} (steady : surroundings.Steady)
    {thread : Thread} (unraised : ∀ text, thread.ending? ≠ some (.raised text)) (machine : Machine)
    (text : String) :
    (thread.advance surroundings machine).1.ending? ≠ some (.raised text) := by
  intro raised
  cases before : thread.ending? with
  | some ending =>
      rw [ending?_advance before] at raised
      exact unraised text (before.trans raised)
  | none =>
      have advanced := ended_of_advance before raised
      obtain ⟨phase, rfl, running⟩ := looping_of_no_ending before
      have step := Phase.step_of_running surroundings machine running
      rw [advance_looping surroundings machine running] at advanced
      injection advanced with ended
      rw [ended] at step
      exact step.not_steady steady

theorem isOver_advance {thread : Thread} (finished : thread.isOver = true)
    (surroundings : Surroundings) (machine : Machine) :
    (thread.advance surroundings machine).1.isOver = true := by
  cases thread with
  | looping phase | requestStop halt | silence halt => cases finished
  | ended halt | died text => rfl

end Thread

end Chip8Machine
