import Chip8Machine.Proofs.MetronomeSteps

/-!
The owner of a metronome has one thread at most that can still call its job.

`Metronome.Tidy` lists the metronomes that have had one thread at most, by what the owner is about:
before the thread can be joined a message has been sent to it and the sending end is gone. An errand
leaves a metronome behind as if nothing but this errand had ever been done, but for threads that
have ended, so every metronome is tidy behind such threads.
-/

set_option autoImplicit false

namespace Chip8Machine

def Beater.stepsLeft (beater : Beater) : Nat :=
  match beater.phase with
  | .waiting => 1
  | .calling => 2
  | .ended => 0

theorem Beater.stepsLeft_le_two (beater : Beater) : beater.stepsLeft ≤ 2 := by
  unfold stepsLeft
  cases beater.phase with
  | waiting | calling | ended => decide

theorem Beater.stepsLeft_of_hearsEnd {beater : Beater} (hears : beater.hearsEnd = true) :
    beater.stepsLeft = 1 := by
  unfold hearsEnd at hears
  unfold stepsLeft
  cases phase : beater.phase with
  | waiting => rfl
  | calling | ended =>
      rw [phase] at hears
      cases hears

def Owner.awaits : Owner → Bool
  | .lettingGo _ => true
  | .joining _ => true
  | _ => false

namespace Metronome

def Live (metronome : Metronome) (number : Nat) : Prop :=
  ∃ beater, metronome.beaters[number]? = some beater ∧ beater.phase ≠ .ended

inductive Tidy : Metronome → Prop where
  | unused (owner : Owner) (skips : ∀ errand, owner ≠ .lettingGo errand) :
      Tidy ⟨[], none, none, owner⟩
  | free (beater : Beater) (unsent : beater.message = false) (held : beater.senderHeld = true) :
      Tidy ⟨[beater], some 0, some 0, .free⟩
  | sending (beater : Beater) (errand : Errand) (unsent : beater.message = false)
      (held : beater.senderHeld = true) : Tidy ⟨[beater], some 0, some 0, .sending errand⟩
  | lettingGo (beater : Beater) (errand : Errand) (sent : beater.message = true)
      (held : beater.senderHeld = true) : Tidy ⟨[beater], some 0, some 0, .lettingGo errand⟩
  | joining (beater : Beater) (errand : Errand) (sent : beater.message = true)
      (cut : beater.senderHeld = false) : Tidy ⟨[beater], none, some 0, .joining errand⟩

theorem tidy_initial : Tidy initial := .unused .free (fun _ => Owner.noConfusion)

theorem tidy_runErrand (errand : Errand) : Tidy (initial.runErrand errand) := by
  cases errand with
  | stop => exact .unused .free (fun _ => Owner.noConfusion)
  | drop => exact .unused .departed (fun _ => Owner.noConfusion)
  | start job => exact .free { job := job } rfl rfl

/-- The owner's errand decides what becomes of an unused metronome, and not that it was under
way. -/
theorem runErrand_joining (errand : Errand) :
    runErrand ⟨[], none, none, .joining errand⟩ errand = initial.runErrand errand := by
  cases errand <;> rfl

theorem only_beater {only beater : Beater} {number : Nat}
    (present : [only][number]? = some beater) :
    number = 0 ∧ beater = only := by
  cases number with
  | zero =>
      cases present
      exact ⟨rfl, rfl⟩
  | succ number => cases present

section

variable {metronome next reached : Metronome} {move : Move}

theorem Tidy.modify (tidy : metronome.Tidy) {number : Nat} {beater : Beater}
    {change : Beater → Beater} (present : metronome.beaters[number]? = some beater)
    (sameMessage : ∀ beater, (change beater).message = beater.message)
    (sameSender : ∀ beater, (change beater).senderHeld = beater.senderHeld) :
    (metronome.modify number change).Tidy := by
  cases tidy with
  | unused owner skips => cases present
  | free only unsent held =>
      obtain ⟨rfl, rfl⟩ := only_beater present
      exact .free (change _) ((sameMessage _).trans unsent) ((sameSender _).trans held)
  | sending only errand unsent held =>
      obtain ⟨rfl, rfl⟩ := only_beater present
      exact .sending (change _) errand ((sameMessage _).trans unsent) ((sameSender _).trans held)
  | lettingGo only errand sent held =>
      obtain ⟨rfl, rfl⟩ := only_beater present
      exact .lettingGo (change _) errand ((sameMessage _).trans sent) ((sameSender _).trans held)
  | joining only errand sent cut =>
      obtain ⟨rfl, rfl⟩ := only_beater present
      exact .joining (change _) errand ((sameMessage _).trans sent) ((sameSender _).trans cut)

theorem Tidy.step (tidy : metronome.Tidy) (others : move ≠ .join)
    (step : Step metronome move next) :
    next.Tidy := by
  cases step with
  | setOut beaters sender handle errand =>
      cases tidy with
      | unused owner skips => exact .unused _ (fun _ => Owner.noConfusion)
      | free beater unsent held => exact .sending beater errand unsent held
  | send beaters number handle errand =>
      cases tidy with
      | sending beater errand unsent held => exact .lettingGo _ errand rfl held
  | skip beaters handle errand =>
      cases tidy with
      | unused owner skips => exact .unused _ (fun _ => Owner.noConfusion)
  | letGo beaters number handle errand =>
      cases tidy with
      | lettingGo beater errand sent held => exact .joining _ errand sent rfl
  | joinNobody | join => exact absurd rfl others
  | shutDown metronome number beater present hears =>
      exact tidy.modify present (fun _ => rfl) (fun _ => rfl)
  | beat metronome number beater present can =>
      exact tidy.modify present (fun _ => rfl) (fun _ => rfl)
  | finish metronome number raises beater present calling =>
      exact tidy.modify present (fun _ => rfl) (fun _ => rfl)

/-- A join leaves the thread behind that has ended, and the rest as if only the errand had been
done. -/
theorem Tidy.join (tidy : metronome.Tidy) (step : Step metronome .join next) :
    ∃ errand, metronome.owner = .joining errand ∧
      (∀ beater ∈ metronome.beaters, beater.phase = .ended) ∧
      next = after metronome.beaters (initial.runErrand errand) := by
  generalize joins : Move.join = move at step
  cases step with
  | joinNobody beaters sender errand =>
      cases tidy with
      | unused owner skips =>
          rw [runErrand_joining]
          exact ⟨errand, rfl, fun _ member => (by cases member), (after_nil _).symm⟩
  | join beaters sender number errand beater present ended =>
      cases tidy with
      | joining only errand sent cut =>
          obtain ⟨_, rfl⟩ := only_beater present
          have leaves := runErrand_after [beater] ⟨[], none, none, .joining errand⟩ errand
          rw [runErrand_joining] at leaves
          refine ⟨errand, rfl, ?_, leaves⟩
          intro other member
          rw [List.mem_singleton.mp member]
          exact ended
  | _ => cases joins

theorem Tidy.live_eq_zero (tidy : metronome.Tidy) {number : Nat}
    (live : metronome.Live number) : number = 0 := by
  obtain ⟨beater, present, _⟩ := live
  cases tidy with
  | unused => cases present
  | free | sending | lettingGo | joining => exact (only_beater present).1

/-! ### Errands come to an end -/

def stepsLeft (metronome : Metronome) : Nat :=
  (metronome.beaters.map Beater.stepsLeft).foldr (· + ·) 0 +
    match metronome.owner with
    | .lettingGo _ => 1
    | _ => 0

theorem Tidy.stepsLeft_le_three (tidy : metronome.Tidy) : metronome.stepsLeft ≤ 3 := by
  cases tidy with
  | unused owner skips =>
      cases owner with
      | lettingGo errand => exact absurd rfl (skips errand)
      | free | sending | joining | departed => exact Nat.zero_le 3
  | free beater | sending beater | lettingGo beater | joining beater =>
      have bound := Beater.stepsLeft_le_two beater
      simp only [stepsLeft, List.map_cons, List.map_nil, List.foldr_cons, List.foldr_nil]
      omega

theorem Tidy.stepsLeft_modify_lt (tidy : metronome.Tidy) {number : Nat} {beater : Beater}
    {change : Beater → Beater} (present : metronome.beaters[number]? = some beater)
    (fewer : (change beater).stepsLeft < beater.stepsLeft) :
    (metronome.modify number change).stepsLeft < metronome.stepsLeft := by
  cases tidy with
  | unused => cases present
  | free | sending | lettingGo | joining =>
      obtain ⟨rfl, rfl⟩ := only_beater present
      exact Nat.add_lt_add_right fewer _

/-- Nobody calls the job any more once the owner has told the thread to end. -/
theorem Tidy.canBeat_eq_false (tidy : metronome.Tidy) (awaits : metronome.owner.awaits = true)
    {number : Nat} {beater : Beater} (present : metronome.beaters[number]? = some beater) :
    beater.canBeat = false := by
  cases tidy with
  | unused => cases present
  | free | sending => cases awaits
  | lettingGo only errand sent | joining only errand sent =>
      obtain ⟨_, rfl⟩ := only_beater present
      rw [Beater.canBeat, sent, Bool.not_true, Bool.and_false, Bool.false_and]

theorem Tidy.awaits_step (tidy : metronome.Tidy) (awaits : metronome.owner.awaits = true)
    (others : move ≠ .join) (step : Step metronome move next) :
    next.owner.awaits = true ∧ next.stepsLeft < metronome.stepsLeft := by
  cases step with
  | setOut | send | skip => cases awaits
  | letGo beaters number handle errand =>
      cases tidy with
      | lettingGo beater errand sent held => exact ⟨rfl, Nat.lt_succ_self _⟩
  | joinNobody | join => exact absurd rfl others
  | shutDown metronome number beater present hears =>
      refine ⟨awaits, tidy.stepsLeft_modify_lt present ?_⟩
      rw [Beater.stepsLeft_of_hearsEnd hears]
      exact Nat.zero_lt_one
  | beat metronome number beater present can =>
      cases (tidy.canBeat_eq_false awaits present).symm.trans can
  | finish metronome number raises beater present calling =>
      refine ⟨awaits, tidy.stepsLeft_modify_lt present ?_⟩
      have two : beater.stepsLeft = 2 := by rw [Beater.stepsLeft, calling]
      rw [two]
      cases raises with
      | true => exact Nat.zero_lt_succ 1
      | false => exact Nat.lt_succ_self 1

theorem Tidy.length_le_of_awaits {moves : List Move} (tidy : metronome.Tidy)
    (awaits : metronome.owner.awaits = true) (unjoined : .join ∉ moves)
    (course : metronome.moves? moves = some reached) :
    moves.length ≤ metronome.stepsLeft := by
  induction moves generalizing metronome with
  | nil => exact Nat.zero_le _
  | cons move rest ih =>
      obtain ⟨next, made, onward⟩ := exists_of_run_cons course
      have others := (List.ne_of_not_mem_cons unjoined).symm
      have step := step_of_move made
      obtain ⟨nextAwaits, fewer⟩ := tidy.awaits_step awaits others step
      have bound :=
        ih (tidy.step others step) nextAwaits (List.not_mem_of_not_mem_cons unjoined) onward
      rw [List.length_cons]
      omega

theorem Tidy.exists_move (tidy : metronome.Tidy) (awaits : metronome.owner.awaits = true) :
    ∃ move next, metronome.move? move = some next := by
  cases tidy with
  | unused owner skips =>
      cases owner with
      | lettingGo errand => exact absurd rfl (skips errand)
      | joining errand => exact ⟨.join, _, rfl⟩
      | free | sending | departed => cases awaits
  | free | sending => cases awaits
  | lettingGo => exact ⟨.letGo, _, rfl⟩
  | joining beater errand sent cut =>
      obtain ⟨job, phase, message, senderHeld, calls⟩ := beater
      cases phase with
      | waiting =>
          cases cut
          cases sent
          exact ⟨.shutDown 0, _, rfl⟩
      | calling => exact ⟨.finish 0 false, _, rfl⟩
      | ended => exact ⟨.join, _, rfl⟩

theorem Tidy.not_alive_of_raise (tidy : metronome.Tidy) {number : Nat}
    (made : metronome.move? (.finish number true) = some next) : next.isAlive = false := by
  generalize raised : Move.finish number true = move at made
  cases step_of_move made with
  | finish metronome other raises beater present calling =>
      cases raised
      cases tidy with
      | unused => cases present
      | free | sending | lettingGo | joining =>
          obtain ⟨rfl, rfl⟩ := only_beater present
          rfl
  | _ => cases raised

/-- With its thread gone, the owner does an errand alone, and leaves the metronome as any other join
would. -/
theorem moves?_of_ended (beater : Beater) (ended : beater.phase = .ended) (errand : Errand) :
    moves? ⟨[beater], some 0, some 0, .free⟩ [.setOut errand, .send, .letGo, .join] =
      some (after [{ beater with message := true, senderHeld := false }]
        (initial.runErrand errand)) := by
  obtain ⟨job, phase, message, senderHeld, calls⟩ := beater
  cases ended
  cases errand <;> rfl

/-- Nothing is begun in a metronome without threads whose owner sets out to begin nothing. -/
theorem unused_of_moves {owner : Owner} {moves : List Move}
    (idle : ∀ job, owner ≠ .sending (.start job)) (waits : ∀ job, owner ≠ .joining (.start job))
    (unstarted : ∀ job, .setOut (.start job) ∉ moves)
    (course : moves? ⟨[], none, none, owner⟩ moves = some reached) : reached.isAlive = false := by
  induction moves generalizing owner with
  | nil =>
      cases course
      rfl
  | cons move rest ih =>
      obtain ⟨next, made, onward⟩ := exists_of_run_cons course
      have restUnstarted := fun job => List.not_mem_of_not_mem_cons (unstarted job)
      cases move with
      | setOut errand =>
          cases owner with
          | free =>
              cases made
              have others := fun job => List.ne_of_not_mem_cons (unstarted job)
              refine ih ?_ (fun _ => Owner.noConfusion) restUnstarted onward
              intro job same
              cases same
              exact others job rfl
          | sending | lettingGo | joining | departed => cases made
      | send =>
          cases owner with
          | sending errand =>
              cases made
              refine ih (fun _ => Owner.noConfusion) ?_ restUnstarted onward
              intro job same
              cases same
              exact idle job rfl
          | free | lettingGo | joining | departed => cases made
      | join =>
          cases owner with
          | joining errand =>
              cases made
              cases errand with
              | stop | drop =>
                  exact ih (fun _ => Owner.noConfusion) (fun _ => Owner.noConfusion)
                    restUnstarted onward
              | start job => exact absurd rfl (waits job)
          | free | sending | lettingGo | departed => cases made
      | letGo => cases owner <;> cases made
      | shutDown | beat | finish => cases made

theorem Tidy.moves?_of_raise (tidy : metronome.Tidy) {number : Nat}
    (made : metronome.move? (.finish number true) = some next) (free : next.owner = .free)
    (errand : Errand) :
    ∃ beater, beater.phase = .ended ∧
      next.moves? [.setOut errand, .send, .letGo, .join] =
        some (after [beater] (initial.runErrand errand)) := by
  generalize raised : Move.finish number true = move at made
  cases step_of_move made with
  | finish metronome other raises beater present calling =>
      cases raised
      cases tidy with
      | unused => cases present
      | free only unsent held =>
          obtain ⟨rfl, rfl⟩ := only_beater present
          exact ⟨_, rfl, moves?_of_ended { beater with phase := .ended } rfl errand⟩
      | sending | lettingGo | joining => cases free
  | _ => cases raised

end

/-! ### Every run -/

/-- Behind threads that have ended the metronome is tidy. -/
def Orderly (metronome : Metronome) : Prop :=
  ∃ dead own, (∀ beater ∈ dead, beater.phase = .ended) ∧ Tidy own ∧ metronome = after dead own

section

variable {metronome next reached : Metronome}

theorem Orderly.join (orderly : metronome.Orderly) (made : metronome.move? .join = some next) :
    ∃ errand, metronome.owner = .joining errand ∧
      (∀ beater ∈ metronome.beaters, beater.phase = .ended) ∧
      next = after metronome.beaters (initial.runErrand errand) := by
  obtain ⟨dead, own, allEnded, tidy, rfl⟩ := orderly
  obtain ⟨ownMove, behind, joins, ownMade, rfl⟩ := exists_own_move allEnded made
  cases ownMove with
  | join =>
      obtain ⟨errand, joining, ownEnded, rfl⟩ := tidy.join (step_of_move ownMade)
      refine ⟨errand, joining, ?_, after_append dead own.beaters _⟩
      intro beater member
      rcases List.mem_append.mp member with early | late
      · exact allEnded beater early
      · exact ownEnded beater late
  | setOut | send | letGo | shutDown | beat | finish => cases joins

theorem Orderly.move {move : Move} (orderly : metronome.Orderly)
    (made : metronome.move? move = some next) :
    next.Orderly := by
  by_cases joins : move = .join
  · subst joins
    obtain ⟨errand, _, allEnded, same⟩ := orderly.join made
    exact ⟨metronome.beaters, _, allEnded, tidy_runErrand errand, same⟩
  · obtain ⟨dead, own, allEnded, tidy, rfl⟩ := orderly
    obtain ⟨ownMove, behind, same, ownMade, rfl⟩ := exists_own_move allEnded made
    have others : ownMove ≠ .join := by
      intro ownJoins
      rw [ownJoins] at same
      exact joins same
    exact ⟨dead, behind, allEnded, tidy.step others (step_of_move ownMade), rfl⟩

theorem orderly_of_moves {history : List Move} (course : initial.moves? history = some metronome) :
    metronome.Orderly :=
  invariant_of_run Orderly (fun _ _ _ orderly made => orderly.move made)
    ⟨[], initial, fun _ member => (by cases member), tidy_initial, (after_nil initial).symm⟩ course

theorem Orderly.live_unique (orderly : metronome.Orderly) {first second : Nat}
    (firstLive : metronome.Live first) (secondLive : metronome.Live second) : first = second := by
  obtain ⟨dead, own, allEnded, tidy, rfl⟩ := orderly
  have atOwn : ∀ number, (after dead own).Live number → number = 0 + dead.length := by
    intro number live
    obtain ⟨beater, present, notEnded⟩ := live
    obtain ⟨ownNumber, rfl, ownPresent⟩ := exists_own_beater allEnded present notEnded
    rw [tidy.live_eq_zero ⟨beater, ownPresent, notEnded⟩]
  rw [atOwn first firstLive, atOwn second secondLive]

/-- What a join has left behind stays as it is. -/
theorem Orderly.frozen {later : List Move} (orderly : metronome.Orderly)
    (made : metronome.move? .join = some next) (course : next.moves? later = some reached)
    {number : Nat} {beater : Beater} (present : metronome.beaters[number]? = some beater) :
    beater.phase = .ended ∧ reached.beaters[number]? = some beater := by
  obtain ⟨errand, _, allEnded, rfl⟩ := orderly.join made
  obtain ⟨own, behind, _, _, rfl⟩ := exists_own_moves allEnded course
  obtain ⟨inside, _⟩ := List.getElem?_eq_some_iff.mp present
  exact ⟨allEnded beater (List.mem_of_getElem? present),
    (List.getElem?_append_left inside).trans present⟩

theorem Orderly.canBeat_eq_false (orderly : metronome.Orderly)
    (awaits : metronome.owner.awaits = true) {number : Nat} {beater : Beater}
    (present : metronome.beaters[number]? = some beater) :
    beater.canBeat = false := by
  obtain ⟨dead, own, allEnded, tidy, rfl⟩ := orderly
  by_cases ended : beater.phase = .ended
  · rw [Beater.canBeat, ended]
    rfl
  · obtain ⟨ownNumber, _, ownPresent⟩ := exists_own_beater allEnded present ended
    exact tidy.canBeat_eq_false awaits ownPresent

theorem Orderly.silent_after_join {errand : Errand} {later : List Move}
    (orderly : metronome.Orderly) (joining : metronome.owner = .joining errand)
    (ends : ∀ job, errand ≠ .start job) (made : metronome.move? .join = some next)
    (course : next.moves? later = some reached) (unstarted : ∀ job, .setOut (.start job) ∉ later) :
    reached.isAlive = false := by
  obtain ⟨found, same, allEnded, rfl⟩ := orderly.join made
  obtain ⟨own, behind, rfl, ownCourse, rfl⟩ := exists_own_moves allEnded course
  cases joining.symm.trans same
  have ownUnstarted : ∀ job, .setOut (.start job) ∉ own := fun job member =>
    unstarted job (List.mem_map_of_mem member)
  rw [isAlive_after allEnded]
  cases errand with
  | stop | drop =>
      exact unused_of_moves (fun _ => Owner.noConfusion) (fun _ => Owner.noConfusion)
        ownUnstarted ownCourse
  | start job => exact absurd rfl (ends job)

theorem isAlive_iff_live (metronome : Metronome) :
    metronome.isAlive = true ↔ ∃ number, metronome.Live number := by
  unfold isAlive
  rw [List.any_eq_true]
  constructor
  · rintro ⟨beater, member, running⟩
    obtain ⟨number, present⟩ := List.mem_iff_getElem?.mp member
    exact ⟨number, beater, present, bne_iff_ne.mp running⟩
  · rintro ⟨number, beater, present, running⟩
    exact ⟨beater, List.mem_of_getElem? present, bne_iff_ne.mpr running⟩

theorem Orderly.alive_after_start {job : Job} (orderly : metronome.Orderly)
    (joining : metronome.owner = .joining (.start job)) (made : metronome.move? .join = some next) :
    next.isAlive = true ∧ next.beaters.length = metronome.beaters.length + 1 := by
  obtain ⟨found, same, allEnded, rfl⟩ := orderly.join made
  cases joining.symm.trans same
  constructor
  · rw [isAlive_after allEnded]
    rfl
  · exact List.length_append

/-- As long as no thread is begun after the one of a join, it decides whether there is one that
lives. -/
theorem Orderly.alive_iff_of_join {later : List Move} (orderly : metronome.Orderly)
    (made : metronome.move? .join = some next) (course : next.moves? later = some reached)
    (latest : reached.beaters.length = metronome.beaters.length + 1) :
    reached.isAlive = true ↔ reached.Live metronome.beaters.length := by
  rw [isAlive_iff_live]
  refine ⟨?_, fun live => ⟨_, live⟩⟩
  rintro ⟨number, beater, present, running⟩
  obtain ⟨inside, _⟩ := List.getElem?_eq_some_iff.mp present
  by_cases early : number < metronome.beaters.length
  · obtain ⟨ended, still⟩ := orderly.frozen made course (List.getElem?_eq_getElem early)
    cases present.symm.trans still
    exact absurd ended running
  · have same : number = metronome.beaters.length := by omega
    rw [← same]
    exact ⟨beater, present, running⟩

theorem Orderly.exists_move (orderly : metronome.Orderly) (awaits : metronome.owner.awaits = true) :
    ∃ move next, metronome.move? move = some next := by
  obtain ⟨dead, own, _, tidy, rfl⟩ := orderly
  obtain ⟨move, behind, made⟩ := tidy.exists_move awaits
  exact ⟨move.shift dead.length, after dead behind, by rw [move?_after, made]; rfl⟩

theorem Orderly.join_mem {moves : List Move} (orderly : metronome.Orderly)
    (awaits : metronome.owner.awaits = true) (enough : 4 ≤ moves.length)
    (course : metronome.moves? moves = some reached) : .join ∈ moves := by
  obtain ⟨dead, own, allEnded, tidy, rfl⟩ := orderly
  obtain ⟨ownMoves, behind, rfl, ownCourse, _⟩ := exists_own_moves allEnded course
  apply Decidable.of_not_not
  intro unjoined
  have ownUnjoined : .join ∉ ownMoves := fun member => unjoined (List.mem_map_of_mem member)
  have few := tidy.length_le_of_awaits awaits ownUnjoined ownCourse
  have bound := tidy.stepsLeft_le_three
  rw [List.length_map] at enough
  omega

theorem Orderly.raise {number : Nat} (orderly : metronome.Orderly)
    (made : metronome.move? (.finish number true) = some next) :
    next.isAlive = false ∧ (next.owner = .free → ∀ errand, ∃ dead,
      (∀ beater ∈ dead, beater.phase = .ended) ∧
      next.moves? [.setOut errand, .send, .letGo, .join] =
        some (after dead (initial.runErrand errand))) := by
  obtain ⟨dead, own, allEnded, tidy, rfl⟩ := orderly
  obtain ⟨ownMove, behind, raises, ownMade, rfl⟩ := exists_own_move allEnded made
  cases ownMove with
  | finish ownNumber ownRaises =>
      cases raises
      refine ⟨(isAlive_after allEnded behind).trans (tidy.not_alive_of_raise ownMade), ?_⟩
      intro free errand
      obtain ⟨beater, ended, course⟩ := tidy.moves?_of_raise ownMade free errand
      refine ⟨dead ++ [beater], ?_, ?_⟩
      · intro other member
        rcases List.mem_append.mp member with early | late
        · exact allEnded other early
        · rw [List.mem_singleton.mp late]
          exact ended
      · have whole := moves?_after dead behind [.setOut errand, .send, .letGo, .join]
        rw [course, Option.map_some, after_append] at whole
        exact whole
  | setOut | send | letGo | join | shutDown | beat => cases raises

end

/-- A metronome and its threads, in whatever order the steps come. -/
theorem errand_protocol {history : List Move} {metronome : Metronome}
    (course : initial.moves? history = some metronome) :
    -- One thread at most has not ended.
    (∀ first second, metronome.Live first → metronome.Live second → first = second) ∧
    -- The join of an errand finds all threads ended, and nothing ever changes about them, their
    -- calls among it.
    (∀ next later reached, metronome.move? .join = some next → next.moves? later = some reached →
      ∀ (number : Nat) (beater : Beater), metronome.beaters[number]? = some beater →
        beater.phase = .ended ∧ reached.beaters[number]? = some beater) ∧
    -- The owner does not wait for a thread that waits itself, with no message and with a sender.
    (∀ errand (number : Nat) (beater : Beater), metronome.owner = .joining errand →
      metronome.beaters[number]? = some beater → beater.canBeat = false) ∧
    -- Behind a stop or a drop no thread lives until the owner sets out to start one.
    (∀ errand next later reached, metronome.owner = .joining errand → (∀ job, errand ≠ .start job) →
      metronome.move? .join = some next → next.moves? later = some reached →
      (∀ job, .setOut (.start job) ∉ later) → reached.isAlive = false) ∧
    -- Behind a start there is one more thread, which lives, and as long as it is the last one it
    -- decides.
    (∀ job next, metronome.owner = .joining (.start job) → metronome.move? .join = some next →
      next.isAlive = true ∧ next.beaters.length = metronome.beaters.length + 1 ∧
      ∀ later reached, next.moves? later = some reached →
        reached.beaters.length = next.beaters.length →
        (reached.isAlive = true ↔ reached.Live metronome.beaters.length)) ∧
    -- No errand gets stuck: its message can be sent, and then the join comes after three other
    -- steps at most.
    (∀ errand, metronome.owner = .sending errand →
      ∃ next, metronome.move? .send = some next ∧ next.owner.awaits = true) ∧
    (metronome.owner.awaits = true → (∃ move next, metronome.move? move = some next) ∧
      ∀ later reached, metronome.moves? later = some reached → 4 ≤ later.length → .join ∈ later) ∧
    -- An exception of the job leaves no thread that lives, and the owner alone can do any errand.
    (∀ number next, metronome.move? (.finish number true) = some next →
      next.isAlive = false ∧ (next.owner = .free → ∀ errand, ∃ dead,
        (∀ beater ∈ dead, beater.phase = .ended) ∧
        next.moves? [.setOut errand, .send, .letGo, .join] =
          some (after dead (initial.runErrand errand)))) ∧
    -- An errand leaves what it leaves of a fresh metronome behind the threads there were, and the
    -- two go on alike.
    (∀ next, metronome.move? .join = some next → ∃ errand, metronome.owner = .joining errand ∧
      next = after metronome.beaters (initial.runErrand errand) ∧
      initial.moves? [.setOut errand, .send, .join] = some (initial.runErrand errand) ∧
      (∀ moves, next.moves? (moves.map (Move.shift metronome.beaters.length)) =
        ((initial.runErrand errand).moves? moves).map (after metronome.beaters)) ∧
      ∀ moves reached, next.moves? moves = some reached →
        ∃ own : List Move, moves = own.map (Move.shift metronome.beaters.length)) := by
  have orderly := orderly_of_moves course
  refine ⟨?_, ?_, ?_, ?_, ?_, ?_, ?_, ?_, ?_⟩
  · exact fun _ _ firstLive secondLive => orderly.live_unique firstLive secondLive
  · exact fun next later reached made onward number beater present =>
      orderly.frozen made onward present
  · intro errand number beater joining present
    have awaits : metronome.owner.awaits = true := by rw [joining, Owner.awaits]
    exact orderly.canBeat_eq_false awaits present
  · exact fun errand next later reached joining ends made onward unstarted =>
      orderly.silent_after_join joining ends made onward unstarted
  · intro job next joining made
    obtain ⟨alive, longer⟩ := orderly.alive_after_start joining made
    refine ⟨alive, longer, ?_⟩
    intro later reached onward latest
    exact orderly.alive_iff_of_join made onward (latest.trans longer)
  · intro errand sending
    obtain ⟨beaters, sender, handle, owner⟩ := metronome
    cases sending
    cases sender with
    | none | some number => exact ⟨_, rfl, rfl⟩
  · exact fun awaits => ⟨orderly.exists_move awaits, fun later reached onward enough =>
      orderly.join_mem awaits enough onward⟩
  · exact fun number next made => orderly.raise made
  · intro next made
    obtain ⟨errand, joining, allEnded, rfl⟩ := orderly.join made
    refine ⟨errand, joining, rfl, ?_, moves?_after _ _, ?_⟩
    · cases errand <;> rfl
    · intro moves reached onward
      obtain ⟨own, _, same, _⟩ := exists_own_moves allEnded onward
      exact ⟨own, same⟩

/-- A job raises an exception at its first call, and another one is started. -/
theorem errand_protocol_after_raise :
    let first : Errand := .start { counter := 0 }
    let second : Errand := .start { counter := 1 }
    ∃ metronome next, initial.moves? [.setOut first, .send, .join, .beat 0] = some metronome ∧
      metronome.move? (.finish 0 true) = some next ∧ next.isAlive = false ∧
      ∃ dead, (∀ beater ∈ dead, beater.phase = .ended) ∧
        next.moves? [.setOut second, .send, .letGo, .join] =
          some (after dead (initial.runErrand second)) := by
  intro first second
  refine ⟨_, _, rfl, rfl, ?_⟩
  have protocol := @errand_protocol [.setOut first, .send, .join, .beat 0] _ rfl
  obtain ⟨silent, alone⟩ := protocol.2.2.2.2.2.2.2.1 0 _ rfl
  exact ⟨silent, alone rfl second⟩

end Metronome

end Chip8Machine
