import Chip8Machine.History
import Chip8Machine.Proofs.KeyHistory
import Chip8Machine.Proofs.LoopSteps
import Chip8Machine.Proofs.ToneEdges

/-!
What becomes of the peripherals, whoever reaches them and in whatever order.

An instruction, a display, a listener, the metronome and the users of the keypad have only gestures
and changes of the timers at their disposal. So a stop request stays, and the tones that are told
belong to the sound timer. Nobody but a display replaces the listener: one that the display keeps is
told all of them.
-/

set_option autoImplicit false

namespace Chip8Machine

namespace Peripherals

/-- Gestures and changes of the timers lead from one to the other. If the display keeps the
listener, then none of them replaces it. -/
inductive LeadsTo (surroundings : Surroundings) : Peripherals → Peripherals → Prop
  | refl (peripherals : Peripherals) : LeadsTo surroundings peripherals peripherals
  | gesture {peripherals reached : Peripherals} (gesture : Gesture)
      (onward : LeadsTo surroundings (peripherals.handle gesture) reached) :
      LeadsTo surroundings peripherals reached
  | change {peripherals reached : Peripherals} (change : Timers.Change)
      (kept : surroundings.KeepsListener → ∀ replacement, change ≠ .setListener replacement)
      (onward : LeadsTo surroundings (peripherals.change surroundings.tone change) reached) :
      LeadsTo surroundings peripherals reached

variable {surroundings : Surroundings}

theorem LeadsTo.trans {first middle last : Peripherals}
    (earlier : LeadsTo surroundings first middle) (later : LeadsTo surroundings middle last) :
    LeadsTo surroundings first last := by
  induction earlier with
  | refl peripherals => exact later
  | gesture gesture _ ih => exact .gesture gesture (ih later)
  | change change kept _ ih => exact .change change kept (ih later)

theorem leadsTo_handle (peripherals : Peripherals) (gesture : Gesture) :
    LeadsTo surroundings peripherals (peripherals.handle gesture) := .gesture gesture (.refl _)

theorem leadsTo_setDelay (peripherals : Peripherals) (value : UInt8) :
    LeadsTo surroundings peripherals (peripherals.setDelay value) :=
  .change (.setDelay value) (fun _ _ same => by cases same) (.refl _)

theorem leadsTo_setSound (peripherals : Peripherals) (value : UInt8) :
    LeadsTo surroundings peripherals (peripherals.setSound surroundings.tone value) :=
  .change (.setSound value) (fun _ _ same => by cases same) (.refl _)

theorem leadsTo_tick (peripherals : Peripherals) :
    LeadsTo surroundings peripherals (peripherals.tick surroundings.tone) :=
  .change .tick (fun _ _ same => by cases same) (.refl _)

theorem leadsTo_beat (peripherals : Peripherals) :
    LeadsTo surroundings peripherals (peripherals.beat surroundings.tone) := by
  unfold beat
  split
  · exact .refl _
  · exact leadsTo_tick peripherals

theorem leadsTo_react (peripherals : Peripherals) (reactions : List Reaction)
    (kept : surroundings.KeepsListener → ∀ listener, .change (.setListener listener) ∉ reactions) :
    LeadsTo surroundings peripherals (peripherals.react surroundings.tone reactions).1 := by
  induction reactions generalizing peripherals with
  | nil => exact .refl _
  | cons reaction rest ih =>
      have onward (changed : Peripherals) := ih changed fun keeps listener member =>
        kept keeps listener (List.mem_cons_of_mem reaction member)
      cases reaction with
      | gesture gesture => exact (leadsTo_handle peripherals gesture).trans (onward _)
      | change change =>
          refine .change change (fun keeps replacement same => ?_) (onward _)
          exact kept keeps replacement (same ▸ List.mem_cons_self)
      | beat => exact (leadsTo_beat peripherals).trans (onward _)
      | raise text => exact .refl _

theorem stopRequested_settle {listener : ToneListener} {peripherals : Peripherals}
    (change : Timers × Option Notice) (stop : peripherals.keypad.stopRequested = true) :
    (peripherals.settle listener change).keypad.stopRequested = true := by
  rcases peripherals.keypad_settle listener change with same | ⟨notice, _, answered⟩
  · rw [same]
    exact stop
  · rw [answered]
    exact (Keypad.stopRequested_after_gestures _ _).mpr (.inl stop)

/-- Nobody can take a stop request back. -/
theorem LeadsTo.stopRequested {first last : Peripherals} (leads : LeadsTo surroundings first last)
    (stop : first.keypad.stopRequested = true) : last.keypad.stopRequested = true := by
  induction leads with
  | refl peripherals => exact stop
  | gesture gesture _ ih => exact ih ((Keypad.stopRequested_handle _ gesture).mpr (.inl stop))
  | change change _ _ ih => exact ih (stopRequested_settle _ stop)

/-- The timers, and what has been told, are those of a list of changes. -/
theorem LeadsTo.exists_changes {first last : Peripherals}
    (leads : LeadsTo surroundings first last) :
    ∃ changes : List Timers.Change,
      (surroundings.KeepsListener → ∀ replacement, .setListener replacement ∉ changes) ∧
      last.timers = first.timers.behind changes ∧
      last.notices = (first.timers.told changes).reverse ++ first.notices := by
  induction leads with
  | refl peripherals => exact ⟨[], fun _ _ => List.not_mem_nil, rfl, rfl⟩
  | gesture gesture _ ih => exact ih
  | @change peripherals reached change kept _ ih =>
      obtain ⟨changes, absent, sameTimers, sameNotices⟩ := ih
      rw [Peripherals.change, timers_settle] at sameTimers sameNotices
      rw [notices_settle] at sameNotices
      refine ⟨change :: changes, ?_, sameTimers, ?_⟩
      · intro keeps replacement member
        rcases List.mem_cons.mp member with now | later
        · exact kept keeps replacement now.symm
        · exact absent keeps replacement later
      · rw [sameNotices, Timers.told_cons, List.reverse_append, List.append_assoc]
        congr 1
        cases (peripherals.timers.apply change).2 with
        | none => rfl
        | some notice => rfl

/-- The notices since the sound timer was zero: as many stops as starts, but for a tone that still
sounds. A listener that the display keeps is told all of them. -/
theorem LeadsTo.tones {first last : Peripherals} (leads : LeadsTo surroundings first last)
    (silent : first.timers.sound = 0) :
    ∃ told, last.notices = told ++ first.notices ∧
      (surroundings.KeepsListener → ∀ notice ∈ told, notice.listener = first.timers.listener) ∧
      (told.map Notice.tone).count .start =
        (told.map Notice.tone).count .stop + if last.timers.sound = 0 then 0 else 1 := by
  obtain ⟨changes, kept, sameTimers, sameNotices⟩ := leads.exists_changes
  have balance := first.timers.count_tones changes
  rw [if_pos silent, ← sameTimers] at balance
  refine ⟨_, sameNotices, ?_, ?_⟩
  · intro keeps notice member
    exact first.timers.listener_told changes (kept keeps) notice (List.mem_reverse.mp member)
  · rw [List.map_reverse, List.count_reverse, List.count_reverse]
    exact balance

end Peripherals

/-! ### The program -/

namespace Machine

theorem peripherals_succeed (machine : Machine) (move : Advance) (demand : Demand) :
    (machine.succeed move demand).1.toPeripherals = machine.toPeripherals := rfl

theorem peripherals_update (machine : Machine) (registers : Registers) :
    (machine.update registers).1.toPeripherals = machine.toPeripherals := rfl

theorem execute_leadsTo (surroundings : Surroundings) (machine : Machine)
    (instruction : Instruction) :
    machine.toPeripherals.LeadsTo surroundings
      (machine.execute surroundings.tone instruction).1.toPeripherals := by
  cases instruction with
  | setDelay register => exact Peripherals.leadsTo_setDelay _ _
  | setSound register => exact Peripherals.leadsTo_setSound _ _
  | call target | ret | draw column row rows | storeDecimal register | storeThrough last
  | loadThrough last =>
      simp only [execute]
      split
      · simp only [peripherals_succeed, peripherals_update]
        exact .refl _
      · exact .refl _
  | _ => exact .refl _

theorem present_leadsTo (machine : Machine) (surroundings : Surroundings) :
    machine.toPeripherals.LeadsTo surroundings (machine.present surroundings).1.toPeripherals :=
  Peripherals.leadsTo_react _ _ fun keeps => keeps _

theorem conclude_leadsTo (machine : Machine) (surroundings : Surroundings) (demand : Demand) :
    machine.toPeripherals.LeadsTo surroundings
      (machine.conclude surroundings demand).1.toPeripherals := by
  cases demand with
  | nothing => exact .refl _
  | awaitKey register => exact .refl _
  | draw =>
      have shows := machine.present_leadsTo surroundings
      unfold conclude
      cases presented : machine.present surroundings with
      | mk shown raised =>
          rw [presented] at shows
          cases raised with
          | none => exact shows
          | some text => exact shows

theorem next_leadsTo (machine : Machine) (surroundings : Surroundings) :
    machine.toPeripherals.LeadsTo surroundings (machine.next surroundings).1.toPeripherals := by
  rcases machine.next_cases surroundings with
    ⟨fault, failed⟩ | ⟨word, after, _, succeeds, concluded⟩
  · rw [failed]
    exact .refl _
  · have executes := machine.execute_leadsTo surroundings (Instruction.decode word)
    rw [succeeds] at executes
    rw [concluded]
    exact executes.trans (after.conclude_leadsTo surroundings _)

theorem happen_leadsTo (machine : Machine) (surroundings : Surroundings) (happening : Happening) :
    machine.toPeripherals.LeadsTo surroundings
      (machine.happen surroundings happening).toPeripherals := by
  cases happening with
  | cycle => exact machine.next_leadsTo surroundings
  | receive register key => exact .refl _
  | tick => exact Peripherals.leadsTo_tick _
  | gesture gesture => exact Peripherals.leadsTo_handle _ gesture
  | write start data =>
      simp only [happen, write]
      cases machine.memory.write start data <;> exact .refl _
  | load program =>
      simp only [happen, load]
      cases machine.memory.load program <;> exact .refl _

theorem happenAll_leadsTo (machine : Machine) (surroundings : Surroundings)
    (happenings : List Happening) :
    machine.toPeripherals.LeadsTo surroundings
      (machine.happenAll surroundings happenings).toPeripherals := by
  induction happenings generalizing machine with
  | nil => exact .refl _
  | cons happening rest ih => exact (machine.happen_leadsTo surroundings happening).trans (ih _)

end Machine

theorem Phase.advance_leadsTo (surroundings : Surroundings) (phase : Phase) (machine : Machine) :
    machine.toPeripherals.LeadsTo surroundings
      (phase.advance surroundings machine).2.toPeripherals := by
  cases phase with
  | checkStop | checkCounter =>
      simp only [advance]
      split
      · exact .refl _
      · exact .refl _
  | cycle =>
      have cycles := machine.next_leadsTo surroundings
      simp only [advance]
      cases cycled : machine.next surroundings with
      | mk after outcome =>
          rw [cycled] at cycles
          cases outcome with
          | done demand => cases demand <;> exact cycles
          | fault fault => exact cycles
          | raised text => exact cycles
  | enterWait register | sleep register seen | receive register key | ended ending => exact .refl _

theorem Thread.advance_leadsTo (surroundings : Surroundings) (thread : Thread) (machine : Machine) :
    machine.toPeripherals.LeadsTo surroundings
      (thread.advance surroundings machine).2.toPeripherals := by
  cases thread with
  | looping phase =>
      by_cases finished : ∃ ending, phase = .ended ending
      · obtain ⟨ending, rfl⟩ := finished
        cases ending <;> exact .refl _
      · rw [advance_looping surroundings machine (fun ending same => finished ⟨ending, same⟩)]
        exact phase.advance_leadsTo surroundings machine
  | requestStop halt => exact Peripherals.leadsTo_handle _ _
  | silence halt => exact Peripherals.leadsTo_setSound _ _
  | ended halt | died text => exact .refl _

end Chip8Machine
