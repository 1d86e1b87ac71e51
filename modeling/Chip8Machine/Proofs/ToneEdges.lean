import Chip8Machine.Proofs.Footprint
import Chip8Machine.Sharing

/-!
The listener is told the edges of the sound timer, and nothing else.

A change comes with a notice exactly if it takes the timer from zero to above zero or back. So the
notices of any list of changes are by turns a start and a stop, and a listener that stays is told
one start and one stop for every stretch of time that the timer is above zero. It makes no
difference through which handle a change is made.
-/

set_option autoImplicit false

namespace Chip8Machine

theorem Peripherals.notices_settle (peripherals : Peripherals) (listener : ToneListener)
    (change : Timers × Option Notice) :
    (peripherals.settle listener change).notices = change.2.toList ++ peripherals.notices := by
  obtain ⟨timers, notice⟩ := change
  cases notice with
  | none => rfl
  | some notice => rfl

namespace Tone

def other : Tone → Tone
  | .start => .stop
  | .stop => .start

/-- The tones are by turns one and the other, and `first` is the first of them. -/
def Alternates (first : Tone) : List Tone → Prop
  | [] => True
  | tone :: rest => tone = first ∧ Alternates first.other rest

/-- The next tone that can be told while the sound timer has this value. -/
def due (sound : UInt8) : Tone := if sound = 0 then .start else .stop

theorem between_self (sound : UInt8) : between sound sound = none := by
  unfold between
  by_cases silent : sound = 0
  · rw [if_pos silent, if_pos silent]
  · rw [if_neg silent, if_neg silent]

theorem between_eq_none_iff (before after : UInt8) :
    between before after = none ↔ (before = 0 ↔ after = 0) := by
  unfold between
  by_cases before = 0 <;> by_cases after = 0 <;> simp_all

theorem between_cases (before after : UInt8) :
    (between before after = none ∧ due after = due before) ∨
      (between before after = some (due before) ∧ due after = (due before).other) := by
  unfold between due
  by_cases silent : before = 0
  · by_cases still : after = 0
    · exact .inl ⟨by rw [if_pos silent, if_pos still], by rw [silent, still]⟩
    · exact .inr ⟨by simp [silent, still], by simp [silent, still, other]⟩
  · by_cases fallen : after = 0
    · exact .inr ⟨by simp [silent, fallen], by simp [silent, fallen, other]⟩
    · exact .inl ⟨by simp [silent, fallen], by simp [silent, fallen]⟩

theorem count_between (before after : UInt8) :
    (between before after).toList.count .start + (if before = 0 then 0 else 1) =
      (between before after).toList.count .stop + (if after = 0 then 0 else 1) := by
  unfold between
  by_cases silent : before = 0
  · by_cases still : after = 0
    · rw [if_pos silent, if_pos still, if_pos silent, if_pos still]
      rfl
    · rw [if_pos silent, if_neg still, if_pos silent, if_neg still]
      rfl
  · by_cases fallen : after = 0
    · rw [if_neg silent, if_pos fallen, if_neg silent, if_pos fallen]
      rfl
    · rw [if_neg silent, if_neg fallen, if_neg silent, if_neg fallen]
      rfl

end Tone

namespace Timers

def behind (timers : Timers) (changes : List Change) : Timers := (timers.applyAll changes).1

def told (timers : Timers) (changes : List Change) : List Notice := (timers.applyAll changes).2

theorem behind_cons (timers : Timers) (change : Change) (rest : List Change) :
    timers.behind (change :: rest) = (timers.apply change).1.behind rest := rfl

theorem told_cons (timers : Timers) (change : Change) (rest : List Change) :
    timers.told (change :: rest) =
      (timers.apply change).2.toList ++ (timers.apply change).1.told rest := rfl

theorem behind_append (timers : Timers) (earlier later : List Change) :
    timers.behind (earlier ++ later) = (timers.behind earlier).behind later := by
  induction earlier generalizing timers with
  | nil => rfl
  | cons change rest ih => exact ih (timers.apply change).1

theorem told_append (timers : Timers) (earlier later : List Change) :
    timers.told (earlier ++ later) = timers.told earlier ++ (timers.behind earlier).told later := by
  induction earlier generalizing timers with
  | nil => rfl
  | cons change rest ih =>
      rw [List.cons_append, told_cons, told_cons, ih, List.append_assoc]
      rfl

def recorded (record : Timers × List Notice) (change : Change) : Timers × List Notice :=
  ((record.1.apply change).1, record.2 ++ (record.1.apply change).2.toList)

theorem foldl_recorded (timers : Timers) (notices : List Notice) (changes : List Change) :
    changes.foldl recorded (timers, notices) =
      (timers.behind changes, notices ++ timers.told changes) := by
  induction changes generalizing timers notices with
  | nil => exact congrArg (Prod.mk timers) (List.append_nil notices).symm
  | cons change rest ih =>
      rw [List.foldl_cons, recorded, ih, told_cons, List.append_assoc]
      rfl

/-- What a change tells depends on the sound timer before and after it only. -/
theorem notice_of_apply (timers : Timers) (change : Change) :
    (timers.apply change).2 = timers.noticeOf? (timers.apply change).1.sound := by
  cases change with
  | setDelay value =>
      change none = (Tone.between timers.sound timers.sound).map _
      rw [Tone.between_self]
      rfl
  | setListener listener =>
      change none = (Tone.between timers.sound timers.sound).map _
      rw [Tone.between_self]
      rfl
  | setSound value => rfl
  | tick => rfl

theorem notice_of_apply_eq_none_iff (timers : Timers) (change : Change) :
    (timers.apply change).2 = none ↔ (timers.sound = 0 ↔ (timers.apply change).1.sound = 0) := by
  rw [notice_of_apply, noticeOf?, Option.map_eq_none_iff, Tone.between_eq_none_iff]

theorem start_of_apply (timers : Timers) (change : Change) (silent : timers.sound = 0)
    (risen : (timers.apply change).1.sound ≠ 0) :
    (timers.apply change).2 = some ⟨timers.listener, .start⟩ := by
  rw [notice_of_apply, noticeOf?, (Tone.between_eq_start_iff _ _).mpr ⟨silent, risen⟩]
  rfl

theorem stop_of_apply (timers : Timers) (change : Change) (loud : timers.sound ≠ 0)
    (fallen : (timers.apply change).1.sound = 0) :
    (timers.apply change).2 = some ⟨timers.listener, .stop⟩ := by
  rw [notice_of_apply, noticeOf?, (Tone.between_eq_stop_iff _ _).mpr ⟨loud, fallen⟩]
  rfl

theorem falls_of_stop (timers : Timers) (change : Change) (listener : Listener)
    (stop : (timers.apply change).2 = some ⟨listener, .stop⟩) :
    timers.sound ≠ 0 ∧ (timers.apply change).1.sound = 0 := by
  rw [notice_of_apply, noticeOf?, Option.map_eq_some_iff] at stop
  obtain ⟨tone, between, same⟩ := stop
  cases same
  exact (Tone.between_eq_stop_iff _ _).mp between

theorem listener_of_notice (timers : Timers) (change : Change) (notice : Notice)
    (told : (timers.apply change).2 = some notice) : notice.listener = timers.listener := by
  rw [notice_of_apply, noticeOf?, Option.map_eq_some_iff] at told
  obtain ⟨tone, _, same⟩ := told
  rw [← same]

def tones (timers : Timers) (changes : List Change) : List Tone :=
  (timers.told changes).map Notice.tone

theorem tones_cons (timers : Timers) (change : Change) (rest : List Change) :
    timers.tones (change :: rest) =
      (Tone.between timers.sound (timers.apply change).1.sound).toList ++
        (timers.apply change).1.tones rest := by
  unfold tones
  rw [told_cons, List.map_append, notice_of_apply, noticeOf?]
  cases Tone.between timers.sound (timers.apply change).1.sound with
  | none => rfl
  | some tone => rfl

theorem tones_alternate (timers : Timers) (changes : List Change) :
    Tone.Alternates (Tone.due timers.sound) (timers.tones changes) := by
  induction changes generalizing timers with
  | nil => trivial
  | cons change rest ih =>
      have onward := ih (timers.apply change).1
      rw [tones_cons]
      rcases Tone.between_cases timers.sound (timers.apply change).1.sound with
        ⟨nothing, same⟩ | ⟨edge, turned⟩
      · rw [nothing, ← same]
        exact onward
      · rw [edge]
        rw [turned] at onward
        exact ⟨rfl, onward⟩

theorem count_tones (timers : Timers) (changes : List Change) :
    (timers.tones changes).count .start + (if timers.sound = 0 then 0 else 1) =
      (timers.tones changes).count .stop +
        (if (timers.behind changes).sound = 0 then 0 else 1) := by
  induction changes generalizing timers with
  | nil => rfl
  | cons change rest ih =>
      have edge := Tone.count_between timers.sound (timers.apply change).1.sound
      have onward := ih (timers.apply change).1
      rw [tones_cons, behind_cons, List.count_append, List.count_append]
      omega

def Change.listener? : Change → Option Listener
  | .setListener listener => some listener
  | .setDelay _ => none
  | .setSound _ => none
  | .tick => none

/-- The listener that is there after a list of changes, if `listener` was there before them. -/
def installed (listener : Listener) (changes : List Change) : Listener :=
  (changes.filterMap Change.listener?).getLast?.getD listener

theorem listener_apply (timers : Timers) (change : Change) :
    (timers.apply change).1.listener = change.listener?.getD timers.listener := by
  cases change with
  | setDelay value => rfl
  | setListener listener => rfl
  | setSound value => rfl
  | tick => rfl

theorem listener_behind (timers : Timers) (changes : List Change) :
    (timers.behind changes).listener = installed timers.listener changes := by
  induction changes generalizing timers with
  | nil => rfl
  | cons change rest ih =>
      rw [behind_cons, ih, listener_apply]
      unfold installed
      cases replaced : change.listener? with
      | none => rw [List.filterMap_cons_none replaced, Option.getD_none]
      | some listener =>
          rw [List.filterMap_cons_some replaced, List.getLast?_cons, Option.getD_some,
            Option.getD_some]

theorem installed_of_stays (listener : Listener) (changes : List Change)
    (stays : ∀ listener, .setListener listener ∉ changes) :
    installed listener changes = listener := by
  have none : changes.filterMap Change.listener? = [] := by
    rw [List.filterMap_eq_nil_iff]
    intro change member
    cases change with
    | setListener replaced => exact absurd member (stays replaced)
    | setDelay value => rfl
    | setSound value => rfl
    | tick => rfl
  unfold installed
  rw [none]
  rfl

theorem listener_told (timers : Timers) (changes : List Change)
    (stays : ∀ listener, .setListener listener ∉ changes) (notice : Notice)
    (member : notice ∈ timers.told changes) : notice.listener = timers.listener := by
  induction changes generalizing timers with
  | nil => cases member
  | cons change rest ih =>
      have same : (timers.apply change).1.listener = timers.listener := by
        refine (listener_behind timers [change]).trans (installed_of_stays _ _ ?_)
        intro listener replaced
        rw [List.mem_singleton] at replaced
        exact stays listener (replaced ▸ List.mem_cons_self)
      rw [told_cons] at member
      rcases List.mem_append.mp member with now | later
      · exact timers.listener_of_notice change notice (Option.mem_toList.mp now)
      · rw [← same]
        exact ih (timers.apply change).1
          (fun listener replaced => stays listener (List.mem_cons_of_mem change replaced)) later

def Sounds (timers : Timers) : List Change → Prop
  | [] => True
  | change :: rest => (timers.apply change).1.sound ≠ 0 ∧ (timers.apply change).1.Sounds rest

/-- A stretch of changes that takes the timer from zero to above zero, keeps it there, and ends with
the change that brings it back to zero. -/
inductive Period (timers : Timers) : List Change → Prop where
  | complete (sounding : List Change) (last : Change) (silent : timers.sound = 0)
      (nonempty : sounding ≠ []) (sounds : timers.Sounds sounding)
      (ended : (timers.behind (sounding ++ [last])).sound = 0) : Period timers (sounding ++ [last])

theorem told_of_sounds (timers : Timers) (changes : List Change) (loud : timers.sound ≠ 0)
    (sounds : timers.Sounds changes) :
    timers.told changes = [] ∧ (timers.behind changes).sound ≠ 0 := by
  induction changes generalizing timers with
  | nil => exact ⟨rfl, loud⟩
  | cons change rest ih =>
      obtain ⟨stays, onward⟩ := sounds
      obtain ⟨nothing, end_⟩ := ih (timers.apply change).1 stays onward
      have none : (timers.apply change).2 = none :=
        (timers.notice_of_apply_eq_none_iff change).mpr ⟨fun silent => absurd silent loud,
          fun silent => absurd silent stays⟩
      rw [told_cons, none, nothing]
      exact ⟨rfl, end_⟩

theorem told_of_period (timers : Timers) (period : List Change)
    (stays : ∀ listener, .setListener listener ∉ period) (finished : timers.Period period) :
    timers.told period = [⟨timers.listener, .start⟩, ⟨timers.listener, .stop⟩] := by
  cases finished with
  | complete sounding last silent nonempty sounds ended =>
      cases sounding with
      | nil => exact absurd rfl nonempty
      | cons first rest =>
          obtain ⟨risen, onward⟩ := sounds
          obtain ⟨nothing, loud⟩ := told_of_sounds (timers.apply first).1 rest risen onward
          have same : ((timers.apply first).1.behind rest).listener = timers.listener := by
            refine (listener_behind timers (first :: rest)).trans (installed_of_stays _ _ ?_)
            intro listener replaced
            exact stays listener (List.mem_append_left [last] replaced)
          have start := timers.start_of_apply first silent risen
          have fallen : (((timers.apply first).1.behind rest).apply last).1.sound = 0 := by
            rw [behind_append] at ended
            exact ended
          have stop := ((timers.apply first).1.behind rest).stop_of_apply last loud fallen
          rw [same] at stop
          rw [told_append, told_cons, nothing, start]
          change [_] ++ [] ++ ((((timers.apply first).1.behind rest).apply last).2.toList ++ []) = _
          rw [stop]
          rfl

theorem told_of_period_within (timers : Timers) (silence period rest : List Change)
    (stays : ∀ listener, .setListener listener ∉ silence ++ period ++ rest)
    (finished : (timers.behind silence).Period period) :
    (timers.behind silence).told period =
      [⟨timers.listener, .start⟩, ⟨timers.listener, .stop⟩] := by
  have same : (timers.behind silence).listener = timers.listener := by
    refine (listener_behind timers silence).trans (installed_of_stays _ silence ?_)
    intro listener replaced
    exact stays listener (List.mem_append_left rest (List.mem_append_left period replaced))
  rw [told_of_period (timers.behind silence) period ?_ finished, same]
  intro listener replaced
  exact stays listener (List.mem_append_left rest (List.mem_append_right silence replaced))

theorem sounds_or_began (timers : Timers) (changes : List Change)
    (loud : (timers.behind changes).sound ≠ 0) :
    timers.Sounds changes ∨ ∃ silence sounding, changes = silence ++ sounding ∧ sounding ≠ [] ∧
      (timers.behind silence).sound = 0 ∧ (timers.behind silence).Sounds sounding := by
  induction changes generalizing timers with
  | nil => exact .inl trivial
  | cons change rest ih =>
      rcases ih (timers.apply change).1 loud with
        sounds | ⟨silence, sounding, split, nonempty, silent, sounds⟩
      · by_cases silent : (timers.apply change).1.sound = 0
        · refine .inr ⟨[change], rest, rfl, ?_, silent, sounds⟩
          intro none
          rw [none] at loud
          exact loud silent
        · exact .inl ⟨silent, sounds⟩
      · exact .inr ⟨change :: silence, sounding, by rw [split]; rfl, nonempty, silent, sounds⟩

/-- Where a tone is told to stop, a stretch of sound ends that began before. -/
theorem period_of_stop (timers : Timers) (changes : List Change) (last : Change)
    (listener : Listener) (silent : timers.sound = 0)
    (stop : ((timers.behind changes).apply last).2 = some ⟨listener, .stop⟩) :
    ∃ silence period, changes ++ [last] = silence ++ period ∧
      (timers.behind silence).Period period := by
  obtain ⟨loud, fallen⟩ := (timers.behind changes).falls_of_stop last listener stop
  have ended : ∀ silence sounding, changes = silence ++ sounding →
      ((timers.behind silence).behind (sounding ++ [last])).sound = 0 := by
    intro silence sounding split
    rw [← behind_append, ← List.append_assoc, ← split, behind_append]
    exact fallen
  rcases sounds_or_began timers changes loud with
    sounds | ⟨silence, sounding, split, nonempty, quiet, sounds⟩
  · refine ⟨[], changes ++ [last], rfl,
      .complete changes last silent ?_ sounds (ended [] changes rfl)⟩
    intro none
    rw [none] at loud
    exact loud silent
  · refine ⟨silence, sounding ++ [last], ?_,
      .complete sounding last quiet nonempty sounds (ended _ _ split)⟩
    rw [split, List.append_assoc]

end Timers

/-- `Fx18` sets the sound timer as anybody else does. -/
theorem Machine.perform_setSound (machine : Machine) (listener : ToneListener) (word : Word)
    (isSound : word.lead = 0xF ∧ word.kk.toNat = 0x18) :
    ∃ after, machine.perform listener word = (after, .ok .nothing) ∧
      after.timers = (machine.timers.apply (.setSound (machine.registers.get word.x))).1 ∧
      after.notices =
        (machine.timers.apply (.setSound (machine.registers.get word.x))).2.toList ++
          machine.notices := by
  rw [machine.perform_of_encodes listener (.setSound _) ⟨isSound.1, isSound.2, rfl⟩]
  refine ⟨_, rfl, machine.toPeripherals.timers_settle listener _, ?_⟩
  exact machine.toPeripherals.notices_settle listener _

namespace Timers

/-- The notices of new timers follow the sound timer, whichever handles it is changed through. -/
theorem tones_follow_sound (holders : Shared (Timers × List Notice)) (listener : Listener)
    (uses : List (Shared.Use (Timers × List Notice) Change)) :
    let place := holders.states.length
    let created := holders.create (initial listener, [])
    let reached := created.actAll recorded uses
    -- Through each handle one finds the timers, and the notices of all changes through any of the
    -- handles.
    (∀ handle, reached.Refers handle place →
      reached.read? handle =
        some ((initial listener).behind (created.changesTo recorded place uses),
          (initial listener).told (created.changesTo recorded place uses))) ∧
    -- The tones are by turns a start and a stop, and the timer tells which of them was the last.
    (∀ changes,
      Tone.Alternates .start ((initial listener).tones changes) ∧
      ((initial listener).tones changes).count .start =
        ((initial listener).tones changes).count .stop +
          if ((initial listener).behind changes).sound = 0 then 0 else 1) ∧
    -- A change tells at most one tone, to the listener of that moment, and only if the timer
    -- crosses.
    (∀ before change later,
      (initial listener).told (before ++ change :: later) =
        (initial listener).told before ++
          (((initial listener).behind before).apply change).2.toList ++
          ((initial listener).behind (before ++ [change])).told later ∧
      ((((initial listener).behind before).apply change).2 = none ↔
        (((initial listener).behind before).sound = 0 ↔
          ((initial listener).behind (before ++ [change])).sound = 0)) ∧
      (∀ notice, (((initial listener).behind before).apply change).2 = some notice →
        notice.listener = installed listener before) ∧
      (∀ replacement, change = .setListener replacement →
        (((initial listener).behind before).apply change).2 = none)) ∧
    -- A listener that is there in silence and stays is told the beginning and the end of each
    -- stretch of sound.
    (∀ earlier later, ((initial listener).behind earlier).sound = 0 →
      (∀ replacement, .setListener replacement ∉ later) →
      (∀ notice ∈ ((initial listener).behind earlier).told later,
        notice.listener = installed listener earlier) ∧
      (((initial listener).behind earlier).tones later).count .start =
        (((initial listener).behind earlier).tones later).count .stop +
          (if ((initial listener).behind (earlier ++ later)).sound = 0 then 0 else 1) ∧
      (∀ silence period rest, later = silence ++ period ++ rest →
        ((initial listener).behind (earlier ++ silence)).Period period →
        ((initial listener).behind (earlier ++ silence)).told period =
          [⟨installed listener earlier, .start⟩, ⟨installed listener earlier, .stop⟩]) ∧
      (∀ stretch last rest, later = stretch ++ last :: rest →
        (((initial listener).behind (earlier ++ stretch)).apply last).2 =
          some ⟨installed listener earlier, .stop⟩ →
        ∃ silence period, stretch ++ [last] = silence ++ period ∧
          ((initial listener).behind (earlier ++ silence)).Period period)) ∧
    -- It makes no difference whether a program sets the timer or somebody else.
    (∀ (machine : Machine) (answers : ToneListener) (word : Word),
      word.lead = 0xF ∧ word.kk.toNat = 0x18 →
      ∃ after, machine.perform answers word = (after, .ok .nothing) ∧
        after.timers = (machine.timers.apply (.setSound (machine.registers.get word.x))).1 ∧
        after.notices =
          (machine.timers.apply (.setSound (machine.registers.get word.x))).2.toList ++
            machine.notices) := by
  intro place created reached
  refine ⟨?_, ?_, ?_, ?_,
    fun machine answers word isSound => machine.perform_setSound answers word isSound⟩
  · intro handle refers
    have read := Shared.read_of_actAll (holders.getElem?_create (initial listener, [])) uses refers
    rw [foldl_recorded] at read
    exact read
  · intro changes
    exact ⟨tones_alternate (initial listener) changes, count_tones (initial listener) changes⟩
  · intro before change later
    refine ⟨?_, ?_, ?_, ?_⟩
    · rw [told_append, told_cons, List.append_assoc, behind_append]
      rfl
    · rw [behind_append]
      exact notice_of_apply_eq_none_iff _ change
    · intro notice told
      rw [listener_of_notice ((initial listener).behind before) change notice told]
      exact listener_behind (initial listener) before
    · intro replacement same
      rw [same]
      rfl
  · intro earlier later silent stays
    have listens : ((initial listener).behind earlier).listener = installed listener earlier :=
      listener_behind (initial listener) earlier
    refine ⟨?_, ?_, ?_, ?_⟩
    · intro notice member
      rw [← listens]
      exact listener_told _ later stays notice member
    · have balance := count_tones ((initial listener).behind earlier) later
      rw [if_pos silent, ← behind_append] at balance
      exact balance
    · intro silence period rest split finished
      rw [behind_append] at finished ⊢
      rw [split] at stays
      rw [told_of_period_within _ silence period rest stays finished, listens]
    · intro stretch last rest split stop
      rw [behind_append] at stop
      obtain ⟨silence, period, regrouped, finished⟩ :=
        period_of_stop ((initial listener).behind earlier) stretch last _ silent stop
      refine ⟨silence, period, regrouped, ?_⟩
      rw [behind_append]
      exact finished

/-- A listener is installed through a clone in silence. A tone that is started through the first
handle ends by ticks through the clone and through the clone of the clone. -/
theorem tones_follow_sound_through_clones :
    let holders : Shared (Timers × List Notice) :=
      { states := [], handles := [], placed := by decide }
    let uses : List (Shared.Use (Timers × List Notice) Change) :=
      [.clone 0, .change 1 (.setListener (some 4)), .change 0 (.setSound 2), .clone 1,
        .change 2 .tick, .change 0 (.setDelay 3), .change 1 .tick]
    let reached := (holders.create (initial none, [])).actAll recorded uses
    let earlier : List Change := [.setListener (some 4)]
    let period : List Change := [.setSound 2, .tick, .setDelay 3, .tick]
    reached.Refers 2 0 ∧ ((initial none).behind earlier).Period period ∧
      ((initial none).behind earlier).told period = [⟨some 4, .start⟩, ⟨some 4, .stop⟩] ∧
      ∃ timers notices, reached.read? 2 = some (timers, notices) ∧ timers.sound = 0 ∧
        notices = [⟨some 4, .start⟩, ⟨some 4, .stop⟩] := by
  intro holders uses reached earlier period
  have refers : reached.Refers 2 0 := by decide
  have finished : ((initial none).behind earlier).Period period :=
    .complete [.setSound 2, .tick, .setDelay 3] .tick rfl (List.cons_ne_nil _ _)
      ⟨by decide, by decide, by decide, trivial⟩ (by decide)
  have stays : ∀ replacement, .setListener replacement ∉ period := by
    intro replacement member
    simp [period] at member
  obtain ⟨read, _, _, stretches, _⟩ := tones_follow_sound holders none uses
  have told := (stretches earlier period rfl stays).2.2.1 [] period [] rfl finished
  exact ⟨refers, finished, told, _, _, read 2 refers, by decide, by decide⟩

example : (initial none).tones [.setSound 2, .setSound 5, .setSound 0, .setSound 1, .tick, .tick] =
    [.start, .stop, .start, .stop] := by decide

end Timers

end Chip8Machine
