import Chip8Machine.Proofs.ToneEdges
import Chip8Machine.Sharing

/-!
What the timers read, whoever has set them and let them tick.

A timer reads the value that it was last set to, less the ticks since then, and no less than zero.
Both timers count down in this way, each by changes of its own, and it makes no difference through
which handle a change is made. What a program sets and reads is the same as anybody else.
-/

set_option autoImplicit false

namespace Chip8Machine

namespace Timers

def changed (timers : Timers) (change : Change) : Timers := (timers.apply change).1

def Change.delay? : Change → Option UInt8
  | .setDelay value => some value
  | _ => none

def Change.sound? : Change → Option UInt8
  | .setSound value => some value
  | _ => none

/-- The value that a timer was last set to, or zero if it never was. -/
def lastSet (set? : Change → Option UInt8) (changes : List Change) : Nat :=
  ((changes.filterMap set?).getLast?.getD 0).toNat

/-- How many ticks there were since a timer was last set, or at all if it never was. -/
def ticksSince (set? : Change → Option UInt8) (changes : List Change) : Nat :=
  (changes.reverse.takeWhile fun change => (set? change).isNone).count .tick

def concerns (set? : Change → Option UInt8) (change : Change) : Bool :=
  change == .tick || (set? change).isSome

structure Counted (timers : Timers) (changes : List Change) : Prop where
  delay : timers.delay.toNat = lastSet Change.delay? changes - ticksSince Change.delay? changes
  sound : timers.sound.toNat = lastSet Change.sound? changes - ticksSince Change.sound? changes

/-- One of the two timers: what it reads, and which changes set it. A tick counts it down, and any
other change leaves it alone. -/
structure CountsDown (reading : Timers → UInt8) (set? : Change → Option UInt8) : Prop where
  initial : ∀ listener, reading (initial listener) = 0
  tick : set? .tick = none
  set : ∀ (timers : Timers) change value, set? change = some value →
    reading (timers.changed change) = value
  ticked : ∀ timers : Timers, reading (timers.changed .tick) = countDown (reading timers)
  kept : ∀ (timers : Timers) change, set? change = none → change ≠ .tick →
    reading (timers.changed change) = reading timers

theorem delay_countsDown : CountsDown Timers.delay Change.delay? where
  initial := fun _ => rfl
  tick := rfl
  set := by
    intro timers change value sets
    cases change with
    | setDelay found =>
        cases sets
        rfl
    | setSound | setListener | tick => cases sets
  ticked := fun _ => rfl
  kept := by
    intro timers change others noTick
    cases change with
    | setDelay => cases others
    | setSound | setListener => rfl
    | tick => exact absurd rfl noTick

theorem sound_countsDown : CountsDown Timers.sound Change.sound? where
  initial := fun _ => rfl
  tick := rfl
  set := by
    intro timers change value sets
    cases change with
    | setSound found =>
        cases sets
        rfl
    | setDelay | setListener | tick => cases sets
  ticked := fun _ => rfl
  kept := by
    intro timers change others noTick
    cases change with
    | setSound => cases others
    | setDelay | setListener => rfl
    | tick => exact absurd rfl noTick

/-! ### Lists of changes -/

theorem behind_eq_foldl (timers : Timers) (changes : List Change) :
    timers.behind changes = changes.foldl changed timers := by
  induction changes generalizing timers with
  | nil => rfl
  | cons change rest ih => exact ih (timers.changed change)

theorem behind_concat (timers : Timers) (changes : List Change) (change : Change) :
    timers.behind (changes ++ [change]) = (timers.behind changes).changed change :=
  timers.behind_append changes [change]

section

variable {set? : Change → Option UInt8} {change : Change}

theorem lastSet_of_set {value : UInt8} (sets : set? change = some value) (changes : List Change) :
    lastSet set? (changes ++ [change]) = value.toNat := by
  unfold lastSet
  rw [List.filterMap_append, List.filterMap_cons_some sets, List.filterMap_nil,
    List.getLast?_concat]
  rfl

theorem ticksSince_of_set {value : UInt8} (sets : set? change = some value)
    (changes : List Change) :
    ticksSince set? (changes ++ [change]) = 0 := by
  unfold ticksSince
  rw [List.reverse_concat, List.takeWhile_cons, sets]
  rfl

theorem lastSet_of_others (others : set? change = none) (changes : List Change) :
    lastSet set? (changes ++ [change]) = lastSet set? changes := by
  unfold lastSet
  rw [List.filterMap_append, List.filterMap_cons_none others, List.filterMap_nil, List.append_nil]

theorem ticksSince_of_others (others : set? change = none) (changes : List Change) :
    ticksSince set? (changes ++ [change]) =
      ticksSince set? changes + if change = .tick then 1 else 0 := by
  unfold ticksSince
  rw [List.reverse_concat, List.takeWhile_cons, others, Option.isNone_none, if_pos rfl,
    List.count_cons]
  simp only [beq_iff_eq]

end

/-! ### The law of counting down -/

namespace CountsDown

variable {reading : Timers → UInt8} {set? : Change → Option UInt8}

theorem law (counts : CountsDown reading set?) (listener : Listener) (changes : List Change) :
    (reading ((Timers.initial listener).behind changes)).toNat =
      lastSet set? changes - ticksSince set? changes := by
  -- The last change decides, so the induction is on the changes from the last to the first.
  obtain ⟨recent, rfl⟩ : ∃ recent, changes = recent.reverse :=
    ⟨changes.reverse, changes.reverse_reverse.symm⟩
  induction recent with
  | nil => exact congrArg UInt8.toNat (counts.initial listener)
  | cons change earlier ih =>
      rw [List.reverse_cons, behind_concat]
      cases sets : set? change with
      | some value =>
          rw [counts.set _ change value sets, lastSet_of_set sets, ticksSince_of_set sets,
            Nat.sub_zero]
      | none =>
          rw [lastSet_of_others sets, ticksSince_of_others sets]
          by_cases isTick : change = .tick
          · subst isTick
            rw [counts.ticked, toNat_countDown, ih, if_pos rfl, Nat.sub_sub]
          · rw [counts.kept _ change sets isTick, ih, if_neg isTick, Nat.add_zero]

theorem reading_of_concerns (counts : CountsDown reading set?) {first second : Timers}
    (same : reading first = reading second) (changes : List Change) :
    reading (first.behind (changes.filter (concerns set?))) = reading (second.behind changes) := by
  induction changes generalizing first second with
  | nil => exact same
  | cons change rest ih =>
      cases sets : set? change with
      | some value =>
          have concerned : concerns set? change = true := by
            rw [concerns, sets, Option.isSome_some, Bool.or_true]
          rw [List.filter_cons_of_pos concerned]
          apply ih
          exact (counts.set first change value sets).trans
            (counts.set second change value sets).symm
      | none =>
          by_cases isTick : change = .tick
          · subst isTick
            rw [List.filter_cons_of_pos rfl]
            apply ih
            exact (counts.ticked first).trans
              ((congrArg countDown same).trans (counts.ticked second).symm)
          · have unconcerned : ¬ concerns set? change = true := by
              rw [concerns, sets, Option.isSome_none, Bool.or_false, beq_iff_eq]
              exact isTick
            rw [List.filter_cons_of_neg unconcerned]
            apply ih
            exact same.trans (counts.kept second change sets isTick).symm

/-- Changes that do not concern a timer have no influence on it. -/
theorem reading_eq (counts : CountsDown reading set?) (timers : Timers) {first second : List Change}
    (same : first.filter (concerns set?) = second.filter (concerns set?)) :
    reading (timers.behind first) = reading (timers.behind second) := by
  rw [← counts.reading_of_concerns rfl first, same, counts.reading_of_concerns rfl second]

end CountsDown

theorem counted_behind (listener : Listener) (changes : List Change) :
    ((initial listener).behind changes).Counted changes :=
  ⟨delay_countsDown.law listener changes, sound_countsDown.law listener changes⟩

theorem counted_of_changed {listener : Listener} {changes : List Change} {change : Change}
    {timers after : Timers} (holds : timers = (initial listener).behind changes)
    (once : after = timers.changed change) :
    after.Counted (changes ++ [change]) := by
  rw [once, holds, ← behind_concat]
  exact counted_behind listener _

end Timers

/-! ### Programs -/

namespace Machine

variable {machine : Machine} {word : Word}

theorem perform_readDelay (isDevice : word.lead = 0xF) (low : word.kk.toNat = 0x07)
    (listener : ToneListener) :
    machine.perform listener word =
      machine.update (machine.registers.set word.x machine.timers.delay) := by
  rw [machine.perform_of_encodes listener (.readDelay _) ⟨isDevice, low, rfl⟩]
  rfl

theorem perform_setDelay (isDevice : word.lead = 0xF) (low : word.kk.toNat = 0x15)
    (listener : ToneListener) :
    ∃ after, machine.perform listener word = (after, .ok .nothing) ∧
      after.timers = machine.timers.changed (.setDelay (machine.registers.get word.x)) := by
  rw [machine.perform_of_encodes listener (.setDelay _) ⟨isDevice, low, rfl⟩]
  exact ⟨_, rfl, rfl⟩

end Machine

namespace Timers

/-- Through every handle to new timers one reads values that have been counted down.

The changes in question are those that were made through any of these handles, in whichever order. A
timer does not depend on the changes that set the other. A machine that holds the timers reads its
delay by `Fx07` as everybody reads it, and what it sets by `Fx15` and `Fx18` counts as any other
setting. -/
theorem count_down (holders : Shared Timers) (listener : Listener)
    (uses : List (Shared.Use Timers Change)) :
    let place := holders.states.length
    let created := holders.create (initial listener)
    let reached := created.actAll changed uses
    let changes := created.changesTo changed place uses
    ∀ handle, reached.Refers handle place →
      ∃ timers, reached.read? handle = some timers ∧ timers.Counted changes ∧
        (∀ others : List Change,
          others.filter (concerns Change.delay?) = changes.filter (concerns Change.delay?) →
          ((initial listener).behind others).delay = timers.delay) ∧
        (∀ others : List Change,
          others.filter (concerns Change.sound?) = changes.filter (concerns Change.sound?) →
          ((initial listener).behind others).sound = timers.sound) ∧
        ∀ (machine : Machine) (answers : ToneListener) (word : Word), machine.timers = timers →
          word.lead = 0xF →
          (word.kk.toNat = 0x07 →
            ∃ value : UInt8,
              machine.perform answers word = machine.update (machine.registers.set word.x value) ∧
              value.toNat = lastSet Change.delay? changes - ticksSince Change.delay? changes) ∧
          (word.kk.toNat = 0x15 →
            ∃ after, machine.perform answers word = (after, .ok .nothing) ∧
              after.timers.Counted (changes ++ [.setDelay (machine.registers.get word.x)])) ∧
          (word.kk.toNat = 0x18 →
            ∃ after, machine.perform answers word = (after, .ok .nothing) ∧
              after.timers.Counted (changes ++ [.setSound (machine.registers.get word.x)])) := by
  intro place created reached changes handle refers
  have read := Shared.read_of_actAll (holders.getElem?_create (initial listener)) uses refers
  rw [← behind_eq_foldl] at read
  have counted := counted_behind listener changes
  refine ⟨_, read, counted, fun others same => delay_countsDown.reading_eq _ same,
    fun others same => sound_countsDown.reading_eq _ same, ?_⟩
  intro machine answers word holds isDevice
  refine ⟨?_, ?_, ?_⟩
  · intro low
    refine ⟨machine.timers.delay, machine.perform_readDelay isDevice low answers, ?_⟩
    rw [holds]
    exact counted.delay
  · intro low
    obtain ⟨after, performs, sets⟩ := machine.perform_setDelay isDevice low answers
    exact ⟨after, performs, counted_of_changed holds sets⟩
  · intro low
    obtain ⟨after, performs, sets, _⟩ := machine.perform_setSound answers word ⟨isDevice, low⟩
    exact ⟨after, performs, counted_of_changed holds sets⟩

/-- The clone of a clone reads what was set through the first handle and has ticked through all
three. -/
theorem count_down_through_clones :
    let holders : Shared Timers := { states := [], handles := [], placed := by decide }
    let uses : List (Shared.Use Timers Change) :=
      [.clone 0, .change 1 .tick, .change 0 (.setDelay 5), .change 1 .tick, .clone 1,
        .change 0 (.setSound 1), .change 2 .tick, .change 0 .tick]
    let reached := (holders.create (initial none)).actAll changed uses
    reached.Refers 2 0 ∧
      ∃ timers, reached.read? 2 = some timers ∧ timers.delay.toNat = 2 ∧ timers.sound.toNat = 0 ∧
        ∃ value : UInt8, value.toNat = 2 ∧
          ({ timers := timers } : Machine).perform Surroundings.quiet.tone 0xF307 =
            ({ timers := timers } : Machine).update (Registers.initial.set 3 value) := by
  intro holders uses reached
  have refers : reached.Refers 2 0 := by decide
  obtain ⟨timers, read, counted, _, _, words⟩ := count_down holders none uses 2 refers
  have isDevice : Word.lead 0xF307 = 0xF := by decide
  have target : Word.x 0xF307 = 3 := by decide
  obtain ⟨value, reads, same⟩ :=
    (words { timers := timers } Surroundings.quiet.tone 0xF307 rfl isDevice).1 (by decide)
  rw [target] at reads
  exact ⟨refers, timers, read, counted.delay.trans (by decide),
    counted.sound.trans (by decide), value, same.trans (by decide), reads⟩

end Timers

end Chip8Machine
