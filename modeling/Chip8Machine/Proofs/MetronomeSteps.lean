import Chip8Machine.Metronome
import Chip8Machine.Proofs.Runs

/-!
What a step of a metronome can do, and that threads which have ended do not matter.

`Metronome.Step` has a constructor for each way in which a step is possible. `Metronome.after` puts
threads of earlier starts in front of a metronome's own. If they have ended, the steps of the whole
are those of the metronome behind them with shifted numbers, so a metronome can be looked at as if
it had never been used before.
-/

set_option autoImplicit false

namespace Chip8Machine

namespace Metronome

inductive Step : Metronome → Move → Metronome → Prop where
  | setOut (beaters : List Beater) (sender handle : Option Nat) (errand : Errand) :
      Step ⟨beaters, sender, handle, .free⟩ (.setOut errand)
        ⟨beaters, sender, handle, .sending errand⟩
  | send (beaters : List Beater) (number : Nat) (handle : Option Nat) (errand : Errand) :
      Step ⟨beaters, some number, handle, .sending errand⟩ .send
        ⟨beaters.modify number fun beater => { beater with message := true }, some number, handle,
          .lettingGo errand⟩
  | skip (beaters : List Beater) (handle : Option Nat) (errand : Errand) :
      Step ⟨beaters, none, handle, .sending errand⟩ .send ⟨beaters, none, handle, .joining errand⟩
  | letGo (beaters : List Beater) (number : Nat) (handle : Option Nat) (errand : Errand) :
      Step ⟨beaters, some number, handle, .lettingGo errand⟩ .letGo
        ⟨beaters.modify number fun beater => { beater with senderHeld := false }, none, handle,
          .joining errand⟩
  | joinNobody (beaters : List Beater) (sender : Option Nat) (errand : Errand) :
      Step ⟨beaters, sender, none, .joining errand⟩ .join
        (runErrand ⟨beaters, sender, none, .joining errand⟩ errand)
  | join (beaters : List Beater) (sender : Option Nat) (number : Nat) (errand : Errand)
      (beater : Beater)
      (present : beaters[number]? = some beater) (ended : beater.phase = .ended) :
      Step ⟨beaters, sender, some number, .joining errand⟩ .join
        (runErrand ⟨beaters, sender, none, .joining errand⟩ errand)
  | shutDown (metronome : Metronome) (number : Nat) (beater : Beater)
      (present : metronome.beaters[number]? = some beater) (hears : beater.hearsEnd = true) :
      Step metronome (.shutDown number)
        (metronome.modify number fun beater => { beater with phase := .ended })
  | beat (metronome : Metronome) (number : Nat) (beater : Beater)
      (present : metronome.beaters[number]? = some beater) (can : beater.canBeat = true) :
      Step metronome (.beat number) (metronome.modify number fun beater =>
        { beater with phase := .calling, calls := beater.calls + 1 })
  | finish (metronome : Metronome) (number : Nat) (raises : Bool) (beater : Beater)
      (present : metronome.beaters[number]? = some beater) (calling : beater.phase = .calling) :
      Step metronome (.finish number raises) (metronome.modify number fun beater =>
        { beater with phase := if raises then .ended else .waiting })

theorem step_of_move {metronome next : Metronome} {move : Move}
    (made : metronome.move? move = some next) :
    Step metronome move next := by
  obtain ⟨beaters, sender, handle, owner⟩ := metronome
  cases move with
  | setOut errand =>
      cases owner with
      | free =>
          cases made
          exact .setOut beaters sender handle errand
      | sending | lettingGo | joining | departed => cases made
  | send =>
      cases owner with
      | sending errand =>
          cases sender with
          | none =>
              cases made
              exact .skip beaters handle errand
          | some number =>
              cases made
              exact .send beaters number handle errand
      | free | lettingGo | joining | departed => cases made
  | letGo =>
      cases owner with
      | lettingGo errand =>
          cases sender with
          | none => cases made
          | some number =>
              cases made
              exact .letGo beaters number handle errand
      | free | sending | joining | departed => cases made
  | join =>
      cases owner with
      | joining errand =>
          cases handle with
          | none =>
              cases made
              exact .joinNobody beaters sender errand
          | some number =>
              simp only [move?] at made
              split at made
              · rename_i beater present
                cases made
                exact .join beaters sender number errand _ present rfl
              · cases made
      | free | sending | lettingGo | departed => cases made
  | shutDown number =>
      simp only [move?] at made
      split at made
      · rename_i beater present
        rw [Option.ite_none_right_eq_some] at made
        obtain ⟨hears, same⟩ := made
        cases same
        exact .shutDown _ number beater present hears
      · cases made
  | beat number =>
      simp only [move?] at made
      split at made
      · rename_i beater present
        rw [Option.ite_none_right_eq_some] at made
        obtain ⟨can, same⟩ := made
        cases same
        exact .beat _ number beater present can
      · cases made
  | finish number raises =>
      simp only [move?] at made
      split at made
      · rename_i present
        cases made
        exact .finish _ number raises _ present rfl
      · cases made

/-! ### Threads of earlier starts -/

/-- The metronome with other threads before its own. -/
def after (dead : List Beater) (metronome : Metronome) : Metronome :=
  { beaters := dead ++ metronome.beaters
    sender := metronome.sender.map (· + dead.length)
    handle := metronome.handle.map (· + dead.length)
    owner := metronome.owner }

def Move.shift (count : Nat) : Move → Move
  | .shutDown number => .shutDown (number + count)
  | .beat number => .beat (number + count)
  | .finish number raises => .finish (number + count) raises
  | .setOut errand => .setOut errand
  | .send => .send
  | .letGo => .letGo
  | .join => .join

theorem after_nil (metronome : Metronome) : after [] metronome = metronome := by
  obtain ⟨beaters, sender, handle, owner⟩ := metronome
  cases sender <;> cases handle <;> rfl

theorem after_append (first second : List Beater) (metronome : Metronome) :
    after first (after second metronome) = after (first ++ second) metronome := by
  obtain ⟨beaters, sender, handle, owner⟩ := metronome
  have regroup :
      ∀ number, number + second.length + first.length = number + (first ++ second).length := by
    intro number
    rw [List.length_append]
    omega
  simp only [after, Option.map_map, List.append_assoc, mk.injEq, true_and, and_true]
  constructor
  · cases sender with
    | none => rfl
    | some number => exact congrArg some (regroup number)
  · cases handle with
    | none => rfl
    | some number => exact congrArg some (regroup number)

theorem beater_after (dead : List Beater) (metronome : Metronome) (number : Nat) :
    (after dead metronome).beaters[number + dead.length]? = metronome.beaters[number]? := by
  simp only [after]
  rw [List.getElem?_append_right (Nat.le_add_left _ _), Nat.add_sub_cancel]

theorem modify_after (dead : List Beater) (metronome : Metronome) (number : Nat)
    (change : Beater → Beater) :
    (after dead metronome).modify (number + dead.length) change =
      after dead (metronome.modify number change) := by
  have behind : (dead ++ metronome.beaters).modify (number + dead.length) change =
      dead ++ metronome.beaters.modify number change := by
    induction dead with
    | nil => rfl
    | cons first rest ih => exact congrArg (first :: ·) ih
  simp only [modify, after, behind]

theorem runErrand_after (dead : List Beater) (metronome : Metronome) (errand : Errand) :
    (after dead metronome).runErrand errand = after dead (metronome.runErrand errand) := by
  cases errand with
  | stop | drop => rfl
  | start job =>
      simp only [runErrand, after, List.length_append, List.append_assoc, Option.map_some]
      rw [Nat.add_comm]

theorem move?_after (dead : List Beater) (metronome : Metronome) (move : Move) :
    (after dead metronome).move? (move.shift dead.length) =
      (metronome.move? move).map (after dead) := by
  cases move with
  | setOut errand =>
      obtain ⟨beaters, sender, handle, owner⟩ := metronome
      cases owner <;> rfl
  | send =>
      obtain ⟨beaters, sender, handle, owner⟩ := metronome
      cases owner with
      | sending errand =>
          cases sender with
          | none => rfl
          | some number =>
              exact congrArg (fun told : Metronome => some { told with owner := .lettingGo errand })
                (modify_after dead ⟨beaters, some number, handle, .sending errand⟩ number _)
      | free | lettingGo | joining | departed => rfl
  | letGo =>
      obtain ⟨beaters, sender, handle, owner⟩ := metronome
      cases owner with
      | lettingGo errand =>
          cases sender with
          | none => rfl
          | some number =>
              exact congrArg
                (fun cut : Metronome => some { cut with sender := none, owner := .joining errand })
                (modify_after dead ⟨beaters, some number, handle, .lettingGo errand⟩ number _)
      | free | sending | joining | departed => rfl
  | join =>
      obtain ⟨beaters, sender, handle, owner⟩ := metronome
      cases owner with
      | joining errand =>
          cases handle with
          | none =>
              exact congrArg some
                (runErrand_after dead ⟨beaters, sender, none, .joining errand⟩ errand)
          | some number =>
              have same : (dead ++ beaters)[number + dead.length]? = beaters[number]? :=
                beater_after dead ⟨beaters, sender, some number, .joining errand⟩ number
              have runs := runErrand_after dead ⟨beaters, sender, none, .joining errand⟩ errand
              simp only [after, Option.map_none] at runs
              simp only [move?, Move.shift, after, Option.map_some, same, runs]
              cases beaters[number]? with
              | none => rfl
              | some beater =>
                  obtain ⟨job, phase, message, senderHeld, calls⟩ := beater
                  cases phase <;> rfl
      | free | sending | lettingGo | departed => rfl
  | shutDown number =>
      simp only [move?, Move.shift, beater_after, modify_after]
      cases metronome.beaters[number]? with
      | none => rfl
      | some beater =>
          cases hears : beater.hearsEnd with
          | true => simp only [hears, if_true, Option.map_some]
          | false => simp only [hears, Bool.false_eq_true, if_false, Option.map_none]
  | beat number =>
      simp only [move?, Move.shift, beater_after, modify_after]
      cases metronome.beaters[number]? with
      | none => rfl
      | some beater =>
          cases can : beater.canBeat with
          | true => simp only [can, if_true, Option.map_some]
          | false => simp only [can, Bool.false_eq_true, if_false, Option.map_none]
  | finish number raises =>
      simp only [move?, Move.shift, beater_after, modify_after]
      cases metronome.beaters[number]? with
      | none => rfl
      | some beater =>
          obtain ⟨job, phase, message, senderHeld, calls⟩ := beater
          cases phase <;> rfl

section

variable {dead : List Beater} {metronome next reached : Metronome}

theorem exists_own_beater (allEnded : ∀ beater ∈ dead, beater.phase = .ended) {number : Nat}
    {beater : Beater} (present : (after dead metronome).beaters[number]? = some beater)
    (live : beater.phase ≠ .ended) :
    ∃ own, number = own + dead.length ∧ metronome.beaters[own]? = some beater := by
  by_cases early : number < dead.length
  · have member : beater ∈ dead := by
      apply List.mem_of_getElem?
      exact (List.getElem?_append_left early).symm.trans present
    exact absurd (allEnded beater member) live
  · refine ⟨number - dead.length, (Nat.sub_add_cancel (Nat.le_of_not_lt early)).symm, ?_⟩
    exact (List.getElem?_append_right (Nat.le_of_not_lt early)).symm.trans present

/-- Threads that have ended take no steps. -/
theorem exists_own_move (allEnded : ∀ beater ∈ dead, beater.phase = .ended) {move : Move}
    (made : (after dead metronome).move? move = some next) :
    ∃ own behind, move = own.shift dead.length ∧ metronome.move? own = some behind ∧
      next = after dead behind := by
  -- Only a thread that has not ended can do a step, and its number lies behind those that have.
  have shifted : ∃ own : Move, move = own.shift dead.length := by
    generalize front : after dead metronome = whole at made
    cases step_of_move made with
    | setOut beaters sender handle errand => exact ⟨.setOut errand, rfl⟩
    | send | skip => exact ⟨.send, rfl⟩
    | letGo => exact ⟨.letGo, rfl⟩
    | joinNobody | join => exact ⟨.join, rfl⟩
    | shutDown metronome number beater present hears =>
        rw [← front] at present
        have live : beater.phase ≠ .ended := by
          intro ended
          rw [Beater.hearsEnd, ended] at hears
          cases hears
        obtain ⟨own, rfl, _⟩ := exists_own_beater allEnded present live
        exact ⟨.shutDown own, rfl⟩
    | beat metronome number beater present can =>
        rw [← front] at present
        have live : beater.phase ≠ .ended := by
          intro ended
          rw [Beater.canBeat, ended] at can
          cases can
        obtain ⟨own, rfl, _⟩ := exists_own_beater allEnded present live
        exact ⟨.beat own, rfl⟩
    | finish metronome number raises beater present calling =>
        rw [← front] at present
        have live : beater.phase ≠ .ended := by
          rw [calling]
          exact BeaterPhase.noConfusion
        obtain ⟨own, rfl, _⟩ := exists_own_beater allEnded present live
        exact ⟨.finish own raises, rfl⟩
  obtain ⟨own, rfl⟩ := shifted
  rw [move?_after] at made
  obtain ⟨behind, ownMade, rfl⟩ := Option.map_eq_some_iff.mp made
  exact ⟨own, behind, rfl, ownMade, rfl⟩

theorem moves?_after (dead : List Beater) (metronome : Metronome) (moves : List Move) :
    (after dead metronome).moves? (moves.map (Move.shift dead.length)) =
      (metronome.moves? moves).map (after dead) := by
  induction moves generalizing metronome with
  | nil => rfl
  | cons move rest ih =>
      simp only [moves?, List.map_cons, run_cons, move?_after]
      cases metronome.move? move with
      | none => rfl
      | some next => exact ih next

theorem exists_own_moves (allEnded : ∀ beater ∈ dead, beater.phase = .ended) {moves : List Move}
    (course : (after dead metronome).moves? moves = some reached) :
    ∃ own behind, moves = own.map (Move.shift dead.length) ∧ metronome.moves? own = some behind ∧
      reached = after dead behind := by
  induction moves generalizing metronome with
  | nil =>
      cases course
      exact ⟨[], metronome, rfl, rfl, rfl⟩
  | cons move rest ih =>
      obtain ⟨next, made, onward⟩ := exists_of_run_cons course
      obtain ⟨own, behind, rfl, ownMade, rfl⟩ := exists_own_move allEnded made
      obtain ⟨ownRest, last, rfl, ownCourse, rfl⟩ := ih onward
      exact ⟨own :: ownRest, last, rfl, (run_cons_of_made ownMade ownRest).trans ownCourse, rfl⟩

theorem isAlive_after (allEnded : ∀ beater ∈ dead, beater.phase = .ended) (metronome : Metronome) :
    (after dead metronome).isAlive = metronome.isAlive := by
  have silent : dead.any (fun beater => beater.phase != .ended) = false := by
    rw [List.any_eq_false]
    intro beater member
    rw [allEnded beater member]
    decide
  simp only [isAlive, after, List.any_append, silent, Bool.false_or]

end

end Metronome

end Chip8Machine
