import Chip8Machine.Keypad.Waiting
import Chip8Machine.Proofs.KeyHistory

/-!
A wait for a key loses no wake-up and takes no stale key, in whatever order the steps happen.

`Since` is what is known of a wait after any list of steps since it began: while the thread is
asleep nothing has happened that would end the wait at a look, or else a notification is still to
come, and a wait that has ended did so at a look with a reason. One step preserves it, and therefore
every list of steps does.
-/

set_option autoImplicit false

namespace Chip8Machine

namespace Waiting

def Move.gesture? : Move → Option Gesture
  | .press number => some (.press number)
  | .release number => some (.release number)
  | .raiseStop => some .requestStop
  | .begin => none
  | .look => none
  | .stir => none
  | .notify => none

def keysPressed (moves : List Move) : List Key :=
  (moves.filterMap Move.gesture?).filterMap Gesture.key?

/-- A stop has been requested, be it before the steps or by one of them. -/
def StopRaised (keypad : Keypad) (moves : List Move) : Prop :=
  keypad.stopRequested = true ∨ .raiseStop ∈ moves

inductive Step (state : Waiting) : Move → Waiting → Prop where
  | begin (outside : state.waiter = .outside) :
      Step state .begin { state with
        waiter := behindLook state.keypad.presses (state.keypad.poll state.keypad.presses) }
  | look (seen : UInt64) (awake : state.waiter = .awake seen) :
      Step state .look { state with waiter := behindLook seen (state.keypad.poll seen) }
  | stir (seen : UInt64) (asleep : state.waiter = .asleep seen) :
      Step state .stir { state with waiter := .awake seen }
  | press (number : UInt8) (key : Key) (known : Key.ofByte number = .ok key) :
      Step state (.press number) { state with
        keypad := state.keypad.handle (.press number)
        waiter := wake state.waiter }
  | miss (number : UInt8) (fault : KeyFault) (unknown : Key.ofByte number = .error fault) :
      Step state (.press number) state
  | release (number : UInt8) :
      Step state (.release number) { state with keypad := state.keypad.handle (.release number) }
  | raiseStop :
      Step state .raiseStop { state with
        keypad := state.keypad.handle .requestStop
        notices := state.notices + 1 }
  | notify (left : Nat) (raised : state.notices = left + 1) :
      Step state .notify { state with waiter := wake state.waiter, notices := left }

theorem step_of_move (state next : Waiting) (move : Move) (made : state.move? move = some next) :
    Step state move next := by
  cases move with
  | begin =>
      unfold move? at made
      cases waiter : state.waiter <;> simp only [waiter, reduceCtorEq, Option.some.injEq] at made
      subst made
      exact .begin waiter
  | look =>
      unfold move? at made
      cases waiter : state.waiter <;> simp only [waiter, reduceCtorEq, Option.some.injEq] at made
      subst made
      exact .look _ waiter
  | stir =>
      unfold move? at made
      cases waiter : state.waiter <;> simp only [waiter, reduceCtorEq, Option.some.injEq] at made
      subst made
      exact .stir _ waiter
  | press number =>
      cases known : Key.ofByte number with
      | ok key =>
          have pressed : Step state (.press number) _ := .press number key known
          rw [Keypad.handle_press_of_key _ _ _ known] at pressed
          simp only [move?, Keypad.press_of_key _ _ _ known, Option.some.injEq] at made
          subst made
          exact pressed
      | error fault =>
          simp only [move?, Keypad.press_of_no_key _ _ _ known, Option.some.injEq] at made
          subst made
          exact .miss number fault known
  | release number =>
      cases made
      exact .release number
  | raiseStop =>
      cases made
      exact .raiseStop
  | notify =>
      unfold move? at made
      cases notices : state.notices with
      | zero => simp only [notices, reduceCtorEq] at made
      | succ left =>
          simp only [notices, Option.some.injEq] at made
          subst made
          exact .notify left notices

theorem moves_append (state : Waiting) (earlier later : List Move) :
    state.moves? (earlier ++ later) =
      (state.moves? earlier).bind fun middle => middle.moves? later :=
  List.foldlM_append

theorem moves_cons (state : Waiting) (move : Move) (rest : List Move) :
    state.moves? (move :: rest) = (state.move? move).bind fun next => next.moves? rest :=
  List.foldlM_cons

theorem moves_concat_of_move (start state next : Waiting) (history : List Move) (move : Move)
    (course : start.moves? history = some state) (made : state.move? move = some next) :
    start.moves? (history ++ [move]) = some next := by
  rw [moves_append, course]
  change state.moves? [move] = some next
  rw [moves_cons, made]
  rfl

theorem keypad_of_move (state next : Waiting) (move : Move) (made : state.move? move = some next) :
    next.keypad = move.gesture?.toList.foldl Keypad.handle state.keypad := by
  cases step_of_move state next move made with
  | begin outside => rfl
  | look seen awake => rfl
  | stir seen asleep => rfl
  | press number key known => rfl
  | miss number fault unknown =>
      exact (Keypad.handle_press_of_no_key state.keypad number fault unknown).symm
  | release number => rfl
  | raiseStop => rfl
  | notify left raised => rfl

theorem keypad_of_moves (state reached : Waiting) (moves : List Move)
    (course : state.moves? moves = some reached) :
    reached.keypad = (moves.filterMap Move.gesture?).foldl Keypad.handle state.keypad := by
  induction moves generalizing state with
  | nil =>
      cases course
      rfl
  | cons move rest ih =>
      rw [moves_cons] at course
      obtain ⟨next, made, onward⟩ := Option.bind_eq_some_iff.mp course
      rw [ih next onward, keypad_of_move state next move made]
      cases gesture : move.gesture? with
      | none =>
          rw [List.filterMap_cons_none gesture]
          rfl
      | some done =>
          rw [List.filterMap_cons_some gesture]
          rfl

theorem requestStop_mem_gestures (moves : List Move) :
    .requestStop ∈ moves.filterMap Move.gesture? ↔ .raiseStop ∈ moves := by
  rw [List.mem_filterMap]
  constructor
  · rintro ⟨move, member, gesture⟩
    cases move with
    | raiseStop => exact member
    | press number => cases gesture
    | release number => cases gesture
    | begin => cases gesture
    | look => cases gesture
    | stir => cases gesture
    | notify => cases gesture
  · intro member
    exact ⟨.raiseStop, member, rfl⟩

theorem stopRequested_of_moves (state reached : Waiting) (moves : List Move)
    (course : state.moves? moves = some reached) :
    reached.keypad.stopRequested = true ↔ StopRaised state.keypad moves := by
  rw [keypad_of_moves state reached moves course, Keypad.stopRequested_after_gestures,
    requestStop_mem_gestures]
  rfl

theorem keysPressed_append (earlier later : List Move) :
    keysPressed (earlier ++ later) = keysPressed earlier ++ keysPressed later := by
  unfold keysPressed
  rw [List.filterMap_append, List.filterMap_append]

/-- There are fewer than 2^64 presses for as long as the wait lasts. -/
def FewPresses (begun : Waiting) (during : List Move) : Prop :=
  ∀ earlier later state, during = earlier ++ later → begun.moves? earlier = some state →
    (∀ key, state.waiter ≠ .returned key) → (keysPressed earlier).length < UInt64.size

theorem fewPresses_of_length (begun : Waiting) (during : List Move)
    (few : (keysPressed during).length < UInt64.size) : FewPresses begun during := by
  intro earlier later state split course lasts
  rw [split, keysPressed_append, List.length_append] at few
  omega

theorem FewPresses.now {begun state : Waiting} {history : List Move}
    (few : FewPresses begun history) (course : begun.moves? history = some state) (seen : UInt64)
    (awake : state.waiter = .awake seen) :
    (keysPressed history).length < UInt64.size := by
  apply few history [] state (List.append_nil history).symm course
  intro key finished
  rw [awake] at finished
  cases finished

inductive Ends (start : Keypad) (since : List Move) : Option Key → Prop where
  | key (key : Key) (latest : (keysPressed since).getLast? = some key)
      (calm : ¬ StopRaised start since) : Ends start since (some key)
  | stop (raised : StopRaised start since) : Ends start since none

theorem ends_of_poll (begun state : Waiting) (since : List Move) (key : Option Key)
    (course : begun.moves? since = some state) (few : (keysPressed since).length < UInt64.size)
    (ended : state.keypad.poll begun.keypad.presses = .ended key) :
    Ends begun.keypad since key := by
  have stopped := stopRequested_of_moves begun state since course
  unfold Keypad.poll at ended
  by_cases stop : state.keypad.stopRequested = true
  · rw [if_pos stop] at ended
    cases ended
    exact .stop (stopped.mp stop)
  · rw [if_neg stop] at ended
    by_cases same : state.keypad.presses = begun.keypad.presses
    · rw [if_neg (not_not_intro same)] at ended
      cases ended
    · rw [if_pos same] at ended
      cases ended
      have calm : ¬ StopRaised begun.keypad since := fun raised => stop (stopped.mpr raised)
      rw [keypad_of_moves begun state since course] at same ⊢
      rw [Keypad.presses_after_gestures_eq_iff _ _ few] at same
      rw [Keypad.last_after_gestures]
      cases latest : (keysPressed since).getLast? with
      | none => exact absurd (List.getLast?_eq_none_iff.mp latest) same
      | some key =>
          rw [← keysPressed, latest]
          exact .key key latest calm

theorem poll_of_moves_eq_pending_iff (begun state : Waiting) (since : List Move)
    (course : begun.moves? since = some state) (few : (keysPressed since).length < UInt64.size) :
    state.keypad.poll begun.keypad.presses = .pending ↔
      keysPressed since = [] ∧ ¬ StopRaised begun.keypad since := by
  rw [Keypad.poll_eq_pending_iff, ← stopRequested_of_moves begun state since course,
    Bool.not_eq_true, keypad_of_moves begun state since course,
    Keypad.presses_after_gestures_eq_iff _ _ few, and_comm]
  rfl

structure Heard (history : List Move) (state : Waiting) : Prop where
  raised : state.notices ≠ 0 → state.keypad.stopRequested = true
  notified : .notify ∈ history → state.keypad.stopRequested = true
  owed : .raiseStop ∈ history → .notify ∈ history ∨ state.notices ≠ 0

theorem stopRequested_of_move (state next : Waiting) (move : Move)
    (made : state.move? move = some next) (stop : state.keypad.stopRequested = true) :
    next.keypad.stopRequested = true :=
  (stopRequested_of_moves state next [move]
    (moves_concat_of_move state state next [] move rfl made)).mpr (.inl stop)

theorem notices_of_move (state next : Waiting) (move : Move) (made : state.move? move = some next)
    (other : move ≠ .notify) : state.notices ≤ next.notices := by
  cases step_of_move state next move made with
  | begin outside => exact Nat.le_refl _
  | look seen awake => exact Nat.le_refl _
  | stir seen asleep => exact Nat.le_refl _
  | press number key known => exact Nat.le_refl _
  | miss number fault unknown => exact Nat.le_refl _
  | release number => exact Nat.le_refl _
  | raiseStop => exact Nat.le_succ _
  | notify left raised => exact absurd rfl other

theorem raised_of_move (state next : Waiting) (move : Move) (made : state.move? move = some next)
    (raised : state.notices ≠ 0 → state.keypad.stopRequested = true)
    (pending : next.notices ≠ 0) : next.keypad.stopRequested = true := by
  have keeps := stopRequested_of_move state next move made
  cases step_of_move state next move made with
  | begin outside => exact raised pending
  | look seen awake => exact raised pending
  | stir seen asleep => exact raised pending
  | press number key known => exact keeps (raised pending)
  | miss number fault unknown => exact raised pending
  | release number => exact keeps (raised pending)
  | raiseStop => rfl
  | notify left owed => exact raised (by omega)

theorem heard_of_move (history : List Move) (state next : Waiting) (move : Move)
    (heard : Heard history state) (made : state.move? move = some next) :
    Heard (history ++ [move]) next := by
  refine ⟨raised_of_move state next move made heard.raised, ?_, ?_⟩
  · intro member
    rcases List.mem_append.mp member with before | now
    · exact stopRequested_of_move state next move made (heard.notified before)
    · rw [List.mem_singleton] at now
      subst now
      cases step_of_move state next .notify made with
      | notify left owed => exact heard.raised (by omega)
  · intro member
    by_cases notifies : move = .notify
    · exact .inl (List.mem_append_right history (List.mem_singleton.mpr notifies.symm))
    · have grows := notices_of_move state next move made notifies
      rcases List.mem_append.mp member with before | now
      · rcases heard.owed before with told | pending
        · exact .inl (List.mem_append_left [move] told)
        · exact .inr (by omega)
      · rw [List.mem_singleton] at now
        subst now
        cases made
        exact .inr (Nat.succ_ne_zero _)

theorem heard_of_moves (history moves : List Move) (state reached : Waiting)
    (heard : Heard history state) (course : state.moves? moves = some reached) :
    Heard (history ++ moves) reached := by
  induction moves generalizing history state with
  | nil =>
      cases course
      rw [List.append_nil]
      exact heard
  | cons move rest ih =>
      rw [moves_cons] at course
      obtain ⟨next, made, onward⟩ := Option.bind_eq_some_iff.mp course
      have further :=
        ih (history ++ [move]) next (heard_of_move history state next move heard made) onward
      rw [List.append_assoc] at further
      exact further

inductive Account (begun : Waiting) (history : List Move) : Waiter → Prop where
  | asleep (nothing : keysPressed history = []) (unheard : .notify ∉ history)
      (calm : begun.keypad.stopRequested ≠ true) :
      Account begun history (.asleep begun.keypad.presses)
  | awake (calm : begun.keypad.stopRequested ≠ true) :
      Account begun history (.awake begun.keypad.presses)
  | refused (stop : begun.keypad.stopRequested = true) : Account begun history (.returned none)
  | returned (earlier later : List Move) (ended : Waiting) (key : Option Key)
      (calm : begun.keypad.stopRequested ≠ true)
      (split : history = earlier ++ .look :: later)
      (course : begun.moves? (earlier ++ [.look]) = some ended)
      (result : ended.waiter = .returned key) (reason : Ends begun.keypad earlier key) :
      Account begun history (.returned key)

theorem Account.wake {begun : Waiting} {history : List Move} {waiter : Waiter}
    (account : Account begun history waiter) (move : Move) :
    Account begun (history ++ [move]) (wake waiter) := by
  cases account with
  | asleep nothing unheard calm => exact .awake calm
  | awake calm => exact .awake calm
  | refused stop => exact .refused stop
  | returned earlier later ended key calm split course result reason =>
      refine .returned earlier (later ++ [move]) ended key calm ?_ course result reason
      rw [split, List.append_assoc, List.cons_append]

/-- A step that neither presses a key nor notifies can leave the thread asleep. -/
theorem Account.extend {begun : Waiting} {history : List Move} {waiter : Waiter}
    (account : Account begun history waiter) (move : Move) (silent : keysPressed [move] = [])
    (mute : move ≠ .notify) : Account begun (history ++ [move]) waiter := by
  cases account with
  | asleep nothing unheard calm =>
      refine .asleep ?_ ?_ calm
      · rw [keysPressed_append, nothing, silent]
        rfl
      · intro member
        rcases List.mem_append.mp member with before | now
        · exact unheard before
        · exact mute (List.mem_singleton.mp now).symm
  | awake calm => exact .awake calm
  | refused stop => exact .refused stop
  | returned earlier later ended key calm split course result reason =>
      exact (Account.returned earlier later ended key calm split course result reason).wake move

structure Since (begun : Waiting) (history : List Move) (state : Waiting) : Prop where
  course : begun.moves? history = some state
  heard : Heard history state
  account : Account begun history state.waiter

theorem nothing_of_pending (begun state : Waiting) (history : List Move)
    (since : Since begun history state) (few : (keysPressed history).length < UInt64.size)
    (pending : state.keypad.poll begun.keypad.presses = .pending) :
    keysPressed history = [] ∧ .notify ∉ history := by
  obtain ⟨nothing, unraised⟩ :=
    (poll_of_moves_eq_pending_iff begun state history since.course few).mp pending
  refine ⟨nothing, ?_⟩
  intro notified
  -- Whoever notifies has raised the request first, and the look would have seen it.
  exact unraised ((stopRequested_of_moves begun state history since.course).mp
    (since.heard.notified notified))

theorem account_of_look (begun state next : Waiting) (history : List Move) (seen : UInt64)
    (since : Since begun history state) (few : (keysPressed history).length < UInt64.size)
    (awake : state.waiter = .awake seen) (made : state.move? .look = some next)
    (looked : next = { state with waiter := behindLook seen (state.keypad.poll seen) }) :
    Account begun (history ++ [.look]) next.waiter := by
  have account := since.account
  rw [awake] at account
  cases account with
  | awake calm =>
      have waiter : next.waiter =
          behindLook begun.keypad.presses (state.keypad.poll begun.keypad.presses) := by
        rw [looked]
      cases found : state.keypad.poll begun.keypad.presses with
      | pending =>
          obtain ⟨nothing, unheard⟩ := nothing_of_pending begun state history since few found
          rw [waiter, found]
          exact (Account.asleep nothing unheard calm).extend .look rfl (by decide)
      | ended key =>
          have result : next.waiter = .returned key := by
            rw [waiter, found]
            rfl
          rw [result]
          exact .returned history [] next key calm rfl
            (moves_concat_of_move begun state next history .look since.course made) result
            (ends_of_poll begun state history key since.course few found)

theorem since_of_move (begun state next : Waiting) (history : List Move) (move : Move)
    (since : Since begun history state) (few : FewPresses begun history)
    (made : state.move? move = some next) : Since begun (history ++ [move]) next := by
  refine ⟨moves_concat_of_move begun state next history move since.course made,
    heard_of_move history state next move since.heard made, ?_⟩
  have account := since.account
  cases step_of_move state next move made with
  | begin outside =>
      rw [outside] at account
      cases account
  | look seen awake =>
      exact account_of_look begun state _ history seen since (few.now since.course seen awake) awake
        made rfl
  | stir seen asleep =>
      have woken := account.wake .stir
      rw [asleep] at woken
      exact woken
  | press number key known => exact account.wake (.press number)
  | miss number fault unknown =>
      refine account.extend (.press number) ?_ (by intro same; cases same)
      simp only [keysPressed, List.filterMap_cons, Move.gesture?, Gesture.key?, unknown,
        Except.toOption, List.filterMap_nil]
  | release number => exact account.extend (.release number) rfl (by intro same; cases same)
  | raiseStop => exact account.extend .raiseStop rfl (by decide)
  | notify left raised => exact account.wake .notify

theorem since_of_moves (begun state reached : Waiting) (history moves : List Move)
    (since : Since begun history state) (few : FewPresses begun (history ++ moves))
    (course : state.moves? moves = some reached) : Since begun (history ++ moves) reached := by
  -- `history` grows by each step that is taken off `moves`, so that `FewPresses` stays the same.
  induction moves generalizing history state with
  | nil =>
      cases course
      rw [List.append_nil]
      exact since
  | cons move rest ih =>
      rw [moves_cons] at course
      obtain ⟨next, made, onward⟩ := Option.bind_eq_some_iff.mp course
      have fewBefore : FewPresses begun history := fun earlier later middle split =>
        few earlier (later ++ move :: rest) middle (by rw [split, List.append_assoc])
      have regrouped : history ++ move :: rest = (history ++ [move]) ++ rest := by
        rw [List.append_assoc]
        rfl
      rw [regrouped] at few ⊢
      exact ih next (history ++ [move])
        (since_of_move begun state next history move since fewBefore made) few onward

theorem since_of_begin (state begun : Waiting) (heard : Heard [] state)
    (made : state.move? .begin = some begun) : Since begun [] begun := by
  cases step_of_move state begun .begin made with
  | begin outside =>
      refine ⟨rfl, ⟨heard.raised, heard.notified, heard.owed⟩, ?_⟩
      unfold Keypad.poll
      by_cases stop : state.keypad.stopRequested = true
      · rw [if_pos stop]
        exact .refused stop
      · rw [if_neg stop, if_neg (not_not_intro rfl)]
        exact .asleep rfl (List.not_mem_nil) stop

inductive Alert (state : Waiting) : Prop where
  | returned (key : Option Key) (finished : state.waiter = .returned key) : Alert state
  | awake (seen : UInt64) (key : Option Key) (next : Waiting) (awake : state.waiter = .awake seen)
      (looked : state.move? .look = some next) (finished : next.waiter = .returned key) :
      Alert state

theorem alert_of_since (begun state : Waiting) (history : List Move)
    (since : Since begun history state) (few : FewPresses begun history)
    (cause : keysPressed history ≠ [] ∨ .notify ∈ history) : Alert state := by
  have account := since.account
  generalize waiter : state.waiter = doing at account
  cases account with
  | asleep nothing unheard calm => exact absurd cause (by simp [nothing, unheard])
  | awake calm =>
      have looked : state.move? .look = some { state with
          waiter := behindLook begun.keypad.presses (state.keypad.poll begun.keypad.presses) } := by
        simp only [move?, waiter]
      cases found : state.keypad.poll begun.keypad.presses with
      | pending =>
          have fewYet := few.now since.course _ waiter
          obtain ⟨nothing, unheard⟩ := nothing_of_pending begun state history since fewYet found
          exact absurd cause (by simp [nothing, unheard])
      | ended key =>
          rw [found] at looked
          exact .awake _ key _ waiter looked rfl
  | refused stop => exact .returned none waiter
  | returned earlier later ended key calm split course result reason => exact .returned key waiter

theorem owed_of_since (begun state : Waiting) (history : List Move) (seen : UInt64)
    (since : Since begun history state) (asleep : state.waiter = .asleep seen)
    (raised : StopRaised begun.keypad history) : state.notices ≠ 0 := by
  have account := since.account
  rw [asleep] at account
  cases account with
  | asleep nothing unheard calm =>
      rcases raised with before | member
      · exact absurd before calm
      · exact (since.heard.owed member).resolve_left unheard

theorem waits_of_since (begun state : Waiting) (history : List Move)
    (since : Since begun history state) (nothing : keysPressed history = [])
    (calm : ¬ StopRaised begun.keypad history) :
    ∃ seen, state.waiter = .asleep seen ∨ state.waiter = .awake seen := by
  have account := since.account
  generalize waiter : state.waiter = doing at account
  cases account with
  | asleep nothing unheard calm => exact ⟨_, .inl rfl⟩
  | awake calm => exact ⟨_, .inr rfl⟩
  | refused stop => exact absurd (.inl stop) calm
  | returned earlier later ended key unstopped split course result reason =>
      exfalso
      subst split
      rw [keysPressed_append, List.append_eq_nil_iff] at nothing
      cases reason with
      | key key latest quiet =>
          rw [nothing.1] at latest
          cases latest
      | stop raised => exact calm (raised.imp_right (List.mem_append_left _))

theorem returned_of_since (begun state : Waiting) (history : List Move) (key : Option Key)
    (since : Since begun history state) (finished : state.waiter = .returned key) :
    (key = none ∧ begun.keypad.stopRequested = true) ∨ ∃ earlier later ended,
      history = earlier ++ .look :: later ∧ begun.moves? (earlier ++ [.look]) = some ended ∧
      ended.waiter = .returned key ∧ Ends begun.keypad earlier key := by
  have account := since.account
  rw [finished] at account
  cases account with
  | refused stop => exact .inl ⟨rfl, stop⟩
  | returned earlier later ended key calm split course result reason =>
      exact .inr ⟨earlier, later, ended, split, course, result, reason⟩

theorem refused_of_since (begun state : Waiting) (history : List Move)
    (since : Since begun history state) (stop : begun.keypad.stopRequested = true) :
    state.waiter = .returned none := by
  have account := since.account
  generalize waiter : state.waiter = doing at account
  cases account with
  | asleep nothing unheard calm => exact absurd stop calm
  | awake calm => exact absurd stop calm
  | refused stop => rfl
  | returned earlier later ended key calm split course result reason => exact absurd stop calm

theorem stopRaised_append (keypad : Keypad) (earlier later : List Move) :
    StopRaised keypad (earlier ++ later) ↔ StopRaised keypad earlier ∨ .raiseStop ∈ later := by
  unfold StopRaised
  rw [List.mem_append, or_assoc]

theorem since_of_course (keypad : Keypad) (before during : List Move) (reached : Waiting)
    (course : ({ keypad := keypad } : Waiting).moves? (before ++ .begin :: during) = some reached)
    (few : ∀ begun, ({ keypad := keypad } : Waiting).moves? (before ++ [.begin]) = some begun →
      FewPresses begun during) :
    ∃ begun, ({ keypad := keypad } : Waiting).moves? (before ++ [.begin]) = some begun ∧
      (begun.keypad.stopRequested = true ↔ StopRaised keypad before) ∧
      (.notify ∈ before → begun.keypad.stopRequested = true) ∧
      FewPresses begun during ∧ Since begun during reached := by
  rw [moves_append] at course
  obtain ⟨asked, courseBefore, rest⟩ := Option.bind_eq_some_iff.mp course
  rw [moves_cons] at rest
  obtain ⟨begun, made, courseDuring⟩ := Option.bind_eq_some_iff.mp rest
  have courseBegun := moves_concat_of_move _ asked begun before .begin courseBefore made
  have fresh : Heard [] ({ keypad := keypad } : Waiting) :=
    ⟨fun pending => absurd rfl pending, fun member => absurd member List.not_mem_nil,
      fun member => absurd member List.not_mem_nil⟩
  have heard := heard_of_moves [] before _ asked fresh courseBefore
  have stopped := stopRequested_of_moves _ begun (before ++ [.begin]) courseBegun
  rw [stopRaised_append, List.mem_singleton] at stopped
  have begunStopped : begun.keypad.stopRequested = true ↔ StopRaised keypad before := by
    rw [stopped]
    simp
  have since := since_of_begin asked begun
    ⟨heard.raised, fun member => absurd member List.not_mem_nil,
      fun member => absurd member List.not_mem_nil⟩ made
  refine ⟨begun, courseBegun, begunStopped, ?_, few begun courseBegun,
    since_of_moves begun begun reached [] during since (few begun courseBegun) courseDuring⟩
  intro notified
  rw [keypad_of_move asked begun .begin made]
  exact heard.notified notified

theorem wait_misses_nothing (keypad : Keypad) (before during : List Move) (reached : Waiting)
    (course : ({ keypad := keypad } : Waiting).moves? (before ++ .begin :: during) = some reached)
    (few : ∀ begun, ({ keypad := keypad } : Waiting).moves? (before ++ [.begin]) = some begun →
      FewPresses begun during) :
    -- After a press, or after a stop request that has been notified of, the thread does not sleep.
    (keysPressed during ≠ [] ∨ .notify ∈ before ++ during → Alert reached) ∧
    -- Between a stop request and its notification the notification is still to come.
    (∀ seen, reached.waiter = .asleep seen → StopRaised keypad (before ++ during) →
      reached.notices ≠ 0) ∧
    -- A key is the latest press since the beginning, and is found while no stop is requested.
    (∀ key, reached.waiter = .returned (some key) → ∃ earlier later ended,
      during = earlier ++ .look :: later ∧
      ({ keypad := keypad } : Waiting).moves? (before ++ .begin :: (earlier ++ [.look])) =
        some ended ∧
      ended.waiter = .returned (some key) ∧
      (keysPressed earlier).getLast? = some key ∧ ¬ StopRaised keypad (before ++ earlier)) ∧
    -- The wait ends without a key for a stop request only.
    (reached.waiter = .returned none → StopRaised keypad before ∨ ∃ earlier later ended,
      during = earlier ++ .look :: later ∧
      ({ keypad := keypad } : Waiting).moves? (before ++ .begin :: (earlier ++ [.look])) =
        some ended ∧
      ended.waiter = .returned none ∧ StopRaised keypad (before ++ earlier)) ∧
    -- Earlier presses, keys that are down, releases and numbers of no key do not end it.
    (keysPressed during = [] → ¬ StopRaised keypad (before ++ during) →
      ∃ seen, reached.waiter = .asleep seen ∨ reached.waiter = .awake seen) ∧
    -- A stop request from before ends it at once.
    (StopRaised keypad before → reached.waiter = .returned none) := by
  obtain ⟨begun, courseBegun, stopped, notified, fewSince, since⟩ :=
    since_of_course keypad before during reached course few
  have courseEnded : ∀ earlier ended, begun.moves? (earlier ++ [.look]) = some ended →
      ({ keypad := keypad } : Waiting).moves? (before ++ .begin :: (earlier ++ [.look])) =
        some ended := by
    intro earlier ended onward
    have regrouped : before ++ .begin :: (earlier ++ [.look]) =
        (before ++ [.begin]) ++ (earlier ++ [.look]) := by
      rw [List.append_assoc]
      rfl
    rw [regrouped, moves_append, courseBegun]
    exact onward
  have raisedAt :
      ∀ earlier, StopRaised begun.keypad earlier ↔ StopRaised keypad (before ++ earlier) := by
    intro earlier
    rw [stopRaised_append, ← stopped]
    rfl
  refine ⟨?_, ?_, ?_, ?_, ?_, ?_⟩
  · intro cause
    by_cases stop : begun.keypad.stopRequested = true
    · exact .returned none (refused_of_since begun reached during since stop)
    · apply alert_of_since begun reached during since fewSince
      rcases cause with pressed | told
      · exact .inl pressed
      · rcases List.mem_append.mp told with told | told
        · exact absurd (notified told) stop
        · exact .inr told
  · intro seen asleep raised
    exact owed_of_since begun reached during seen since asleep ((raisedAt during).mpr raised)
  · intro key finished
    rcases returned_of_since begun reached during _ since finished with ⟨impossible, _⟩ | ended
    · cases impossible
    · obtain ⟨earlier, later, ended, split, onward, result, reason⟩ := ended
      cases reason with
      | key key latest calm =>
          exact ⟨earlier, later, ended, split, courseEnded earlier ended onward, result, latest,
            fun raised => calm ((raisedAt earlier).mpr raised)⟩
  · intro finished
    rcases returned_of_since begun reached during _ since finished with ⟨_, stop⟩ | ended
    · exact .inl (stopped.mp stop)
    · obtain ⟨earlier, later, ended, split, onward, result, reason⟩ := ended
      cases reason with
      | stop raised =>
          exact .inr ⟨earlier, later, ended, split, courseEnded earlier ended onward, result,
            (raisedAt earlier).mp raised⟩
  · intro nothing calm
    exact waits_of_since begun reached during since nothing
      (fun raised => calm ((raisedAt during).mp raised))
  · intro raised
    exact refused_of_since begun reached during since (stopped.mpr raised)

/-- A key from before is down, a number of no key is pressed and the thread wakes up for nothing;
two keys are pressed before it looks again. -/
theorem wait_misses_nothing_of_two_presses :
    ∃ reached : Waiting,
      ({} : Waiting).moves? ([.press 3] ++ .begin ::
        [.press 20, .stir, .look, .release 3, .press 5, .press 7, .look]) = some reached ∧
      reached.waiter = .returned (some 7) ∧
      ∃ earlier, (keysPressed earlier).getLast? = some (7 : Key) ∧
        ¬ StopRaised {} ([.press 3] ++ earlier) := by
  refine ⟨_, rfl, rfl, ?_⟩
  obtain ⟨_, _, found, _⟩ := wait_misses_nothing {} [.press 3]
    [.press 20, .stir, .look, .release 3, .press 5, .press 7, .look] _ rfl
    (fun begun _ => fewPresses_of_length begun _ (by decide))
  obtain ⟨earlier, later, ended, split, course, finished, latest, calm⟩ := found 7 rfl
  exact ⟨earlier, latest, calm⟩

end Waiting

end Chip8Machine
