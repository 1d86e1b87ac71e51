import Chip8Machine.Proofs.Footprint
import Chip8Machine.Proofs.Turns

/-!
What the display is given, and that the last of it is the current frame.

A cycle gives the display a frame exactly if it executes a word that clears the screen or draws a
sprite, and nothing but a cycle does. So the record of a machine grows by the frames behind these
words, in their order, whether its cycles are done one by one or in runs.
-/

set_option autoImplicit false

namespace Chip8Machine

def Word.Draws (word : Word) : Prop := word.toNat = 0x00E0 ∨ word.lead = 0xD

instance (word : Word) : Decidable word.Draws :=
  inferInstanceAs (Decidable (word.toNat = 0x00E0 ∨ word.lead = 0xD))

def Frame.Loses (before after : Frame) : Prop :=
  ∃ column row, before.pixel column row = true ∧ after.pixel column row = false

theorem Frame.loses_overlay_iff (frame stamp : Frame) :
    frame.Loses (frame.overlay stamp) ↔ frame.meets stamp = true := by
  rw [Frame.meets_iff]
  constructor
  · rintro ⟨column, row, lit, dark⟩
    rw [Frame.pixel_overlay, lit, Bool.true_xor, Bool.not_eq_false'] at dark
    exact ⟨column, row, lit, dark⟩
  · rintro ⟨column, row, lit, stamped⟩
    refine ⟨column, row, lit, ?_⟩
    rw [Frame.pixel_overlay, lit, stamped]
    rfl

inductive Deed where
  | happen (happening : Happening)
  | run (answers : List Answer) (fuel : Nat)
  deriving DecidableEq, Repr

/-- The machines that begin a cycle within at most `fuel` steps, in their order. -/
def AttendedRun.cycles (surroundings : Surroundings) : Nat → AttendedRun → List Machine
  | 0, _ => []
  | fuel + 1, run =>
      match run.phase with
      | .ended _ => []
      | .cycle => run.machine :: cycles surroundings fuel (run.advance surroundings)
      | _ => cycles surroundings fuel (run.advance surroundings)

namespace Machine

/-- The next cycle executes the word, which makes the second machine of the first. -/
def Executes (surroundings : Surroundings) (machine : Machine) (word : Word)
    (executed : Machine) : Prop :=
  machine.memory.fetch machine.registers.counter = .ok word ∧
    ∃ demand, machine.perform surroundings.tone word = (executed, .ok demand)

/-- The frame behind the next cycle, if the cycle executes a word that draws. -/
def drawn? (surroundings : Surroundings) (machine : Machine) : Option Frame :=
  match machine.memory.fetch machine.registers.counter with
  | .error _ => none
  | .ok word =>
      match machine.perform surroundings.tone word with
      | (_, .error _) => none
      | (executed, .ok _) => if word.Draws then some executed.frame else none

def act (surroundings : Surroundings) (machine : Machine) : Deed → Machine
  | .happen happening => machine.happen surroundings happening
  | .run answers fuel =>
      (AttendedRun.finish surroundings fuel { machine := machine, answers := answers }).machine

def actAll (surroundings : Surroundings) (machine : Machine) (deeds : List Deed) : Machine :=
  deeds.foldl (act surroundings) machine

def cycles (surroundings : Surroundings) (machine : Machine) : Deed → List Machine
  | .happen .cycle => [machine]
  | .happen _ => []
  | .run answers fuel =>
      AttendedRun.cycles surroundings fuel { machine := machine, answers := answers }

def cyclesAll (surroundings : Surroundings) (machine : Machine) : List Deed → List Machine
  | [] => []
  | deed :: rest =>
      machine.cycles surroundings deed ++
        (machine.act surroundings deed).cyclesAll surroundings rest

/-! ### Words that draw -/

def stamped (machine : Machine) (stamp : Frame) : Machine :=
  ({ machine with
    frame := machine.frame.overlay stamp
    registers := machine.registers.setFlag (machine.frame.meets stamp) } : Machine).advance .next

theorem pixel_stamped (machine : Machine) (stamp : Frame) (column : Fin Layout.frameWidth)
    (row : Fin Layout.frameHeight) :
    (machine.stamped stamp).frame.pixel column row =
      (machine.frame.pixel column row ^^ stamp.pixel column row) :=
  machine.frame.pixel_overlay stamp column row

theorem flag_stamped (machine : Machine) (stamp : Frame) :
    (machine.stamped stamp).registers.flag = if machine.frame.meets stamp then 1 else 0 :=
  (machine.registers.get_setFlag _ Register.flag).trans (if_pos rfl)

theorem get_stamped (machine : Machine) (stamp : Frame) {register : Register}
    (other : register ≠ Register.flag) :
    (machine.stamped stamp).registers.get register = machine.registers.get register :=
  (machine.registers.get_setFlag _ register).trans (if_neg other)

section

variable {machine drawn : Machine} {surroundings : Surroundings} {listener : ToneListener}
  {word : Word} {demand : Demand}

theorem perform_of_sprite {sprite : List UInt8} (isDraw : word.lead = 0xD) (listener : ToneListener)
    (read : machine.memory.read machine.registers.index.toNat word.n.val = .ok sprite) :
    machine.perform listener word =
      (machine.stamped
        (Sprite.stamp sprite (machine.registers.get word.x) (machine.registers.get word.y)),
        .ok .draw) := by
  rw [machine.perform_of_encodes listener (.draw _ _ _) ⟨isDraw, rfl, rfl, rfl⟩]
  simp only [execute, read]
  rfl

/-- A drawing that succeeds has read a sprite, and puts its stamp on the frame. -/
theorem perform_draw (isDraw : word.lead = 0xD)
    (succeeds : machine.perform listener word = (drawn, .ok demand)) :
    ∃ sprite, machine.memory.read machine.registers.index.toNat word.n.val = .ok sprite ∧
      drawn = machine.stamped
        (Sprite.stamp sprite (machine.registers.get word.x) (machine.registers.get word.y)) := by
  cases read : machine.memory.read machine.registers.index.toNat word.n.val with
  | ok sprite =>
      rw [perform_of_sprite isDraw listener read] at succeeds
      cases succeeds
      exact ⟨sprite, rfl, rfl⟩
  | error cause =>
      rw [machine.perform_of_encodes listener (.draw _ _ _) ⟨isDraw, rfl, rfl, rfl⟩] at succeeds
      simp only [execute, read] at succeeds
      cases succeeds

theorem perform_clear (isClear : word.toNat = 0x00E0)
    (succeeds : machine.perform listener word = (drawn, .ok demand)) :
    drawn = ({ machine with frame := Frame.blank }).advance .next := by
  rw [machine.perform_of_encodes listener .clearScreen isClear] at succeeds
  cases succeeds
  rfl

theorem counter_of_draws (draws : word.Draws)
    (succeeds : machine.perform listener word = (drawn, .ok demand)) :
    drawn.registers.counter = machine.registers.counter + 2 := by
  rcases draws with isClear | isDraw
  · cases perform_clear isClear succeeds
    rfl
  · obtain ⟨sprite, _, rfl⟩ := perform_draw isDraw succeeds
    rfl

/-- The flag tells whether the drawing has turned a pixel off. -/
theorem flag_of_draw (isDraw : word.lead = 0xD)
    (succeeds : machine.perform listener word = (drawn, .ok demand)) :
    machine.frame.Loses drawn.frame ∧ drawn.registers.flag = 1 ∨
      ¬ machine.frame.Loses drawn.frame ∧ drawn.registers.flag = 0 := by
  obtain ⟨sprite, _, rfl⟩ := perform_draw isDraw succeeds
  generalize Sprite.stamp sprite _ _ = stamp
  have loses :
      machine.frame.Loses (machine.stamped stamp).frame ↔ machine.frame.meets stamp = true :=
    machine.frame.loses_overlay_iff stamp
  rw [loses, machine.flag_stamped stamp]
  cases machine.frame.meets stamp with
  | true => exact Or.inl ⟨rfl, rfl⟩
  | false => exact Or.inr ⟨Bool.false_ne_true, rfl⟩

theorem shown_perform (succeeds : machine.perform listener word = (drawn, .ok demand)) :
    drawn.shown = machine.shown :=
  (execute_effect succeeds).unchanged .shown id

theorem frame_perform (succeeds : machine.perform listener word = (drawn, .ok demand))
    (others : ¬ word.Draws) : drawn.frame = machine.frame := by
  refine (execute_effect succeeds).unchanged .frame ?_
  intro touches
  exact others (Instruction.touches_of_encodes (Instruction.encodes_decode word) touches)

end

/-! ### One cycle -/

section

variable {machine drawn : Machine} {surroundings : Surroundings} {word : Word}

/-- The display is called behind the whole instruction. -/
theorem next_of_draws (executes : machine.Executes surroundings word drawn) (draws : word.Draws) :
    (machine.next surroundings).1 = (drawn.present surroundings).1 := by
  obtain ⟨fetched, demand, succeeds⟩ := executes
  have asks := (perform_draw_iff succeeds).mpr draws
  subst asks
  rw [next_of_success surroundings fetched succeeds]
  unfold conclude
  cases presented : drawn.present surroundings with
  | mk shown raised =>
      cases raised with
      | none => rfl
      | some text => rfl

theorem drawn?_of_draws (executes : machine.Executes surroundings word drawn) (draws : word.Draws) :
    machine.drawn? surroundings = some drawn.frame := by
  obtain ⟨fetched, demand, succeeds⟩ := executes
  simp only [drawn?, fetched, succeeds, if_pos draws]

theorem drawn?_of_others
    (others : ∀ word executed, machine.Executes surroundings word executed → ¬ word.Draws) :
    machine.drawn? surroundings = none := by
  unfold drawn?
  split
  · rfl
  · rename_i word fetched
    split
    · rfl
    · rename_i executed demand succeeds
      exact if_neg (others word executed ⟨fetched, demand, succeeds⟩)

end

/-- The display was given the frames, in their order, on the way from the first machine to the
second, and the last of them is the frame of the second. -/
structure Shows (machine after : Machine) (frames : List Frame) : Prop where
  shown : after.shown = frames.reverse ++ machine.shown
  frame : after.frame = frames.getLast?.getD machine.frame

theorem Shows.of_same {machine after : Machine} (sameShown : after.shown = machine.shown)
    (sameFrame : after.frame = machine.frame) : machine.Shows after [] :=
  ⟨sameShown, sameFrame⟩

theorem Shows.append {machine middle last : Machine} {earlier later : List Frame}
    (first : machine.Shows middle earlier) (second : middle.Shows last later) :
    machine.Shows last (earlier ++ later) := by
  constructor
  · rw [second.shown, first.shown, List.reverse_append, List.append_assoc]
  · rw [second.frame, first.frame, List.getLast?_append]
    cases later.getLast? with
    | none => rfl
    | some frame => rfl

section

variable (surroundings : Surroundings) (machine : Machine)

theorem next_shows_nothing
    (others : ∀ word executed, machine.Executes surroundings word executed → ¬ word.Draws) :
    machine.Shows (machine.next surroundings).1 [] := by
  rcases next_cases machine surroundings with
    ⟨fault, failed⟩ | ⟨word, executed, fetched, succeeds, concluded⟩
  · rw [failed]
    exact .of_same rfl rfl
  · have plain := others word executed ⟨fetched, _, succeeds⟩
    have silent := mt (perform_draw_iff succeeds).mp plain
    have same : executed.conclude surroundings (Instruction.decode word).demand =
        (executed, .done (Instruction.decode word).demand) := by
      cases asks : (Instruction.decode word).demand with
      | draw => exact absurd asks silent
      | nothing => rfl
      | awaitKey register => rfl
    rw [concluded, same]
    exact .of_same (shown_perform succeeds) (frame_perform succeeds plain)

theorem next_shows :
    machine.Shows (machine.next surroundings).1 (machine.drawn? surroundings).toList := by
  by_cases draws : ∃ word executed, machine.Executes surroundings word executed ∧ word.Draws
  · obtain ⟨word, drawn, executes, draws⟩ := draws
    rw [next_of_draws executes draws, drawn?_of_draws executes draws]
    refine ⟨?_, rfl⟩
    obtain ⟨_, demand, succeeds⟩ := executes
    change drawn.frame :: drawn.shown = drawn.frame :: machine.shown
    rw [shown_perform succeeds]
  · have others : ∀ word executed, machine.Executes surroundings word executed → ¬ word.Draws :=
      fun word executed executes plain => draws ⟨word, executed, executes, plain⟩
    rw [drawn?_of_others others]
    exact next_shows_nothing surroundings machine others

/-- Whatever happens outside of the cycles does not reach the display. -/
theorem happen_shows (happening : Happening) :
    machine.Shows (machine.happen surroundings happening)
      ((machine.cycles surroundings (.happen happening)).filterMap (drawn? surroundings)) := by
  cases happening with
  | cycle =>
      have shows := next_shows surroundings machine
      simp only [cycles, List.filterMap_cons, List.filterMap_nil]
      cases drawn : machine.drawn? surroundings with
      | none =>
          rw [drawn] at shows
          exact shows
      | some frame =>
          rw [drawn] at shows
          exact shows
  | receive | tick | gesture => exact .of_same rfl rfl
  | write start data =>
      simp only [happen, write]
      cases machine.memory.write start data <;> exact .of_same rfl rfl
  | load program =>
      simp only [happen, load]
      cases machine.memory.load program <;> exact .of_same rfl rfl

end

end Machine

/-! ### Runs -/

namespace AttendedRun

theorem machine_leaveWait (run : AttendedRun) : run.leaveWait.machine = run.machine := by
  unfold leaveWait
  split
  · rfl
  · rfl

variable (surroundings : Surroundings)

theorem machine_advance_cycle (machine : Machine) (answers : List Answer) :
    (AttendedRun.advance ⟨.cycle, machine, answers⟩ surroundings).machine =
      machine.happen surroundings .cycle := by
  simp only [advance, advanceAlone, Phase.advance, Machine.happen]
  split
  all_goals
    rename_i cycled
    rw [cycled]

/-- What the loop does outside of its cycles does not reach the display either. -/
theorem advance_shows_nothing {run : AttendedRun} (others : run.phase ≠ .cycle) :
    run.machine.Shows (run.advance surroundings).machine [] := by
  obtain ⟨phase, machine, answers⟩ := run
  cases phase with
  | cycle => exact absurd rfl others
  | checkStop | checkCounter =>
      simp only [advance, advanceAlone, Phase.advance]
      split
      · exact .of_same rfl rfl
      · exact .of_same rfl rfl
  | enterWait register =>
      simp only [advance]
      split
      all_goals
        rw [machine_leaveWait]
        exact .of_same rfl rfl
  | sleep register seen =>
      simp only [advance]
      split
      · exact .of_same rfl rfl
      · rw [machine_leaveWait]
        exact .of_same rfl rfl
  | receive | ended => exact .of_same rfl rfl

theorem finish_shows (fuel : Nat) (run : AttendedRun) :
    run.machine.Shows (finish surroundings fuel run).machine
      ((cycles surroundings fuel run).filterMap (Machine.drawn? surroundings)) := by
  induction fuel generalizing run with
  | zero => exact .of_same rfl rfl
  | succ fuel ih =>
      rw [finish_succ]
      have onward := ih (run.advance surroundings)
      by_cases begins : run.phase = .cycle
      · obtain ⟨phase, machine, answers⟩ := run
        cases begins
        rw [machine_advance_cycle] at onward
        have shows := (Machine.happen_shows surroundings machine .cycle).append onward
        rw [← List.filterMap_append] at shows
        exact shows
      · have first := advance_shows_nothing surroundings begins
        cases phase : run.phase with
        | cycle => exact absurd phase begins
        | ended ending =>
            rw [advance_of_ended surroundings phase, finish_of_ended surroundings phase]
            simp only [cycles, phase]
            exact .of_same rfl rfl
        | _ =>
            simp only [cycles, phase]
            exact first.append onward

end AttendedRun

namespace Machine

theorem act_shows (surroundings : Surroundings) (machine : Machine) (deed : Deed) :
    machine.Shows (machine.act surroundings deed)
      ((machine.cycles surroundings deed).filterMap (drawn? surroundings)) := by
  cases deed with
  | happen happening => exact happen_shows surroundings machine happening
  | run answers fuel =>
      exact AttendedRun.finish_shows surroundings fuel { machine := machine, answers := answers }

theorem actAll_shows (surroundings : Surroundings) (machine : Machine) (deeds : List Deed) :
    machine.Shows (machine.actAll surroundings deeds)
      ((machine.cyclesAll surroundings deeds).filterMap (drawn? surroundings)) := by
  induction deeds generalizing machine with
  | nil => exact .of_same rfl rfl
  | cons deed rest ih =>
      have shows :=
        (act_shows surroundings machine deed).append (ih (machine.act surroundings deed))
      rw [← List.filterMap_append] at shows
      exact shows

/-- The bound of a run that ends does not matter: the machine is the one that the run leaves. -/
theorem act_run_of_ended {surroundings : Surroundings} {machine last : Machine}
    {answers left : List Answer} {fuel : Nat} {ending : Ending}
    (ended : machine.run surroundings answers fuel = some (ending, last, left)) :
    machine.act surroundings (.run answers fuel) = last := by
  have finished := (run_eq_some_iff _ _ _ _ _ _).mp ended
  change (AttendedRun.finish surroundings fuel { machine := machine, answers := answers }).machine
    = last
  rw [finished]

/-- The display is always up to date.

Whatever is done with a machine from power on, by single cycles or by runs, the display has been
given the frames behind the words that clear the screen or draw a sprite, one for each, in their
order. The last of them is the frame of the machine; without any, the frame is blank. The display is
called behind the whole instruction, when the counter has moved on and the flag tells of the
drawing. -/
theorem display_up_to_date (random : RandomBytes) (listener : Listener)
    (surroundings : Surroundings) (deeds : List Deed) :
    ((fresh random listener).actAll surroundings deeds).shown.reverse =
      ((fresh random listener).cyclesAll surroundings deeds).filterMap (drawn? surroundings) ∧
    ((fresh random listener).actAll surroundings deeds).frame =
      ((fresh random listener).actAll surroundings deeds).shown.head?.getD Frame.blank ∧
    (∀ (machine drawn : Machine) (word : Word), machine.Executes surroundings word drawn →
      word.Draws →
      machine.drawn? surroundings = some drawn.frame ∧
      (machine.next surroundings).1 = (drawn.present surroundings).1 ∧
      (drawn.present surroundings).1.shown = drawn.frame :: machine.shown ∧
      (drawn.present surroundings).1.toCore = drawn.toCore ∧
      drawn.registers.counter = machine.registers.counter + 2 ∧
      (word.lead = 0xD →
        machine.frame.Loses drawn.frame ∧ drawn.registers.flag = 1 ∨
          ¬ machine.frame.Loses drawn.frame ∧ drawn.registers.flag = 0)) ∧
    (∀ machine : Machine,
      (∀ (word : Word) (executed : Machine), machine.Executes surroundings word executed →
        ¬ word.Draws) →
      machine.drawn? surroundings = none ∧
      (machine.next surroundings).1.shown = machine.shown ∧
      (machine.next surroundings).1.frame = machine.frame) ∧
    (∀ (machine last : Machine) (answers left : List Answer) (fuel : Nat) (ending : Ending),
      machine.run surroundings answers fuel = some (ending, last, left) →
      machine.act surroundings (.run answers fuel) = last) := by
  have shows := actAll_shows surroundings (fresh random listener) deeds
  refine ⟨?_, ?_, ?_, ?_, ?_⟩
  · rw [shows.shown, List.reverse_append, List.reverse_reverse]
    rfl
  · rw [shows.frame, shows.shown, List.head?_append, List.head?_reverse]
    cases (((fresh random listener).cyclesAll surroundings deeds).filterMap
        (drawn? surroundings)).getLast? with
    | none => rfl
    | some frame => rfl
  · intro machine drawn word executes draws
    have given := drawn?_of_draws executes draws
    have behind := next_of_draws executes draws
    obtain ⟨_, demand, succeeds⟩ := executes
    refine ⟨given, behind, ?_, rfl, counter_of_draws draws succeeds, ?_⟩
    · change drawn.frame :: drawn.shown = drawn.frame :: machine.shown
      rw [shown_perform succeeds]
    · intro isDraw
      exact flag_of_draw isDraw succeeds
  · intro machine others
    have nothing := next_shows_nothing surroundings machine others
    exact ⟨drawn?_of_others others, nothing.shown, nothing.frame⟩
  · intro machine last answers left fuel ending ended
    exact act_run_of_ended ended

end Machine

end Chip8Machine
