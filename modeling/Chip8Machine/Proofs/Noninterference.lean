import Chip8Machine.Proofs.DisplayRecord
import Chip8Machine.Proofs.LoopSteps

/-!
A program learns of the timers, the keys and the random bytes only by asking for them.

Two machines with the same core are driven side by side, each in surroundings of its own and with
ticks and gestures of its own between the cycles. As long as no instruction consults what lies
outside of the core, the cycles have the same outcomes, the cores stay the same, and the displays
are given the same frames.
-/

set_option autoImplicit false

namespace Chip8Machine

def Instruction.consults : Instruction → Bool
  | .random _ _ => true
  | .skip (.keyDown _) _ => true
  | .readDelay _ => true
  | .awaitKey _ => true
  | _ => false

/-- The word is one of `Cxkk`, `Ex9E`, `ExA1`, `Fx07` and `Fx0A`. -/
def Word.Consults (word : Word) : Prop :=
  word.lead = 0xC ∨
  word.lead = 0xE ∧ (word.kk.toNat = 0x9E ∨ word.kk.toNat = 0xA1) ∨
  word.lead = 0xF ∧ (word.kk.toNat = 0x07 ∨ word.kk.toNat = 0x0A)

def Happening.isOutside : Happening → Bool
  | .tick => true
  | .gesture _ => true
  | _ => false

namespace Happening

def Schedule (happenings : List Happening) : Prop :=
  ∀ happening ∈ happenings, happening = .cycle ∨ happening.isOutside = true

instance (happenings : List Happening) : Decidable (Schedule happenings) :=
  inferInstanceAs
    (Decidable (∀ happening ∈ happenings, happening = .cycle ∨ happening.isOutside = true))

/-- Two schedules side by side: the cycles are paired, and what is outside comes on either side
alone. -/
inductive InStep : List Happening → List Happening → Prop
  | none : InStep [] []
  | cycle {ours theirs : List Happening} (rest : InStep ours theirs) :
      InStep (.cycle :: ours) (.cycle :: theirs)
  | ours {happening : Happening} {ours theirs : List Happening}
      (outside : happening.isOutside = true) (rest : InStep ours theirs) :
      InStep (happening :: ours) theirs
  | theirs {happening : Happening} {ours theirs : List Happening}
      (outside : happening.isOutside = true) (rest : InStep ours theirs) :
      InStep ours (happening :: theirs)

theorem Schedule.tail {happening : Happening} {rest : List Happening}
    (schedule : Schedule (happening :: rest)) : Schedule rest :=
  fun other member => schedule other (List.mem_cons_of_mem _ member)

theorem Schedule.head {happening : Happening} {rest : List Happening}
    (schedule : Schedule (happening :: rest)) : happening = .cycle ∨ happening.isOutside = true :=
  schedule happening List.mem_cons_self

theorem count_of_outside {happening : Happening} (outside : happening.isOutside = true)
    (rest : List Happening) : (happening :: rest).count .cycle = rest.count .cycle := by
  apply List.count_cons_of_ne
  rintro rfl
  cases outside

theorem inStep_of_count {ours theirs : List Happening} (ourSchedule : Schedule ours)
    (theirSchedule : Schedule theirs) (sameCount : ours.count .cycle = theirs.count .cycle) :
    InStep ours theirs := by
  induction ours generalizing theirs with
  | nil =>
      induction theirs with
      | nil => exact .none
      | cons happening theirs ih =>
          rcases theirSchedule.head with rfl | outside
          · rw [List.count_cons_self] at sameCount
            cases sameCount
          · rw [count_of_outside outside] at sameCount
            exact .theirs outside (ih theirSchedule.tail sameCount)
  | cons happening ours ih =>
      rcases ourSchedule.head with rfl | outside
      · induction theirs with
        | nil =>
            rw [List.count_cons_self] at sameCount
            cases sameCount
        | cons happening theirs ihTheirs =>
            rcases theirSchedule.head with rfl | outside
            · rw [List.count_cons_self, List.count_cons_self] at sameCount
              exact .cycle (ih ourSchedule.tail theirSchedule.tail (Nat.succ.inj sameCount))
            · rw [count_of_outside outside] at sameCount
              exact .theirs outside (ihTheirs theirSchedule.tail sameCount)
      · rw [count_of_outside outside] at sameCount
        exact .ours outside (ih ourSchedule.tail theirSchedule sameCount)

end Happening

namespace Machine

def outcomeOf? (surroundings : Surroundings) (machine : Machine) : Happening → Option Outcome
  | .cycle => some (machine.next surroundings).2
  | _ => none

def outcomesAll (surroundings : Surroundings) (machine : Machine) : List Happening → List Outcome
  | [] => []
  | happening :: rest =>
      (machine.outcomeOf? surroundings happening).toList ++
        (machine.happen surroundings happening).outcomesAll surroundings rest

end Machine

theorem Instruction.consults_decode_iff (word : Word) :
    (Instruction.decode word).consults = true ↔ word.Consults := by
  constructor
  · intro consults
    have encodes := Instruction.encodes_decode word
    generalize Instruction.decode word = instruction at consults encodes
    cases instruction with
    | random register mask => exact Or.inl encodes.1
    | skip test answer =>
        cases test with
        | keyDown register =>
            obtain ⟨group, low, _⟩ := encodes
            cases answer with
            | true => exact Or.inr (Or.inl ⟨group, Or.inl low⟩)
            | false => exact Or.inr (Or.inl ⟨group, Or.inr low⟩)
        | _ => cases consults
    | readDelay register => exact Or.inr (Or.inr ⟨encodes.1, Or.inl encodes.2.1⟩)
    | awaitKey register => exact Or.inr (Or.inr ⟨encodes.1, Or.inr encodes.2.1⟩)
    | _ => cases consults
  · rintro (group | ⟨group, low | low⟩ | ⟨group, low | low⟩)
    · rw [(Instruction.decode_eq_iff word (.random _ _)).mpr ⟨group, rfl, rfl⟩]
      rfl
    · rw [(Instruction.decode_eq_iff word (.skip (.keyDown _) true)).mpr ⟨group, low, rfl⟩]
      rfl
    · rw [(Instruction.decode_eq_iff word (.skip (.keyDown _) false)).mpr ⟨group, low, rfl⟩]
      rfl
    · rw [(Instruction.decode_eq_iff word (.readDelay _)).mpr ⟨group, low, rfl⟩]
      rfl
    · rw [(Instruction.decode_eq_iff word (.awaitKey _)).mpr ⟨group, low, rfl⟩]
      rfl

namespace Machine

/-! ### One cycle -/

section

variable {first second : Machine} {here there : Surroundings}

/-- Whether an instruction is refused is up to the core. -/
theorem fault?_of_toCore (same : first.toCore = second.toCore) (instruction : Instruction) :
    first.fault? instruction = second.fault? instruction := by
  obtain ⟨core, _⟩ := first
  obtain ⟨_, _⟩ := second
  cases same
  cases instruction <;> rfl

/-- An instruction that consults nothing else makes the core from the core. -/
theorem execute_toCore (same : first.toCore = second.toCore) {instruction : Instruction}
    (deaf : instruction.consults = false) (listener other : ToneListener) :
    (first.execute listener instruction).1.toCore =
      (second.execute other instruction).1.toCore := by
  obtain ⟨core, _⟩ := first
  obtain ⟨_, _⟩ := second
  cases same
  cases instruction with
  | random | readDelay | awaitKey => cases deaf
  | skip test answer =>
      cases test with
      | keyDown register => cases deaf
      | _ => rfl
  | call | ret | draw | storeDecimal | storeThrough | loadThrough =>
      simp only [execute]
      split <;> rfl
  | _ => rfl

/-- A display that raises no exception leaves the outcome to the instruction. -/
theorem outcome_of_success {machine after : Machine} {surroundings : Surroundings} {word : Word}
    {demand : Demand} (steady : surroundings.Steady)
    (fetched : machine.memory.fetch machine.registers.counter = .ok word)
    (succeeds : machine.execute surroundings.tone (Instruction.decode word) = (after, .ok demand)) :
    (machine.next surroundings).2 = .done demand := by
  have concluded := next_of_success surroundings fetched succeeds
  rcases after.conclude_cases surroundings demand with ⟨shown, done, _⟩ | ⟨shown, text, raised, _⟩
  · rw [concluded, done]
  · rw [raised] at concluded
    exact absurd steady (not_steady_of_next concluded)

structure Alike (first second : Machine) (here there : Surroundings) : Prop where
  outcome : (first.next here).2 = (second.next there).2
  core : (first.next here).1.toCore = (second.next there).1.toCore
  drawn : first.drawn? here = second.drawn? there

theorem alike_of_toCore (same : first.toCore = second.toCore) (steadyHere : here.Steady)
    (steadyThere : there.Steady)
    (deaf : ∀ instruction, first.executed? here = some instruction → instruction.consults = false) :
    Alike first second here there := by
  have sameMemory : first.memory = second.memory := congrArg Core.memory same
  have sameRegisters : first.registers = second.registers := congrArg Core.registers same
  by_cases inside : first.registers.counter + 1 < Layout.memorySize
  · obtain ⟨word, fetched⟩ := (first.memory.exists_fetch_eq_ok_iff _).mpr inside
    have alsoFetched := fetched
    rw [sameMemory, sameRegisters] at alsoFetched
    have sameFault := fault?_of_toCore same (Instruction.decode word)
    cases refused : first.fault? (Instruction.decode word) with
    | some fault =>
        have alsoRefused := sameFault.symm.trans refused
        constructor
        · rw [next_of_fault here fetched refused, next_of_fault there alsoFetched alsoRefused]
        · rw [next_of_fault here fetched refused, next_of_fault there alsoFetched alsoRefused]
          exact same
        · simp only [drawn?, fetched, alsoFetched, perform, execute_of_fault _ refused,
            execute_of_fault _ alsoRefused]
    | none =>
        have alsoPossible := sameFault.symm.trans refused
        obtain ⟨after, succeeds⟩ := execute_of_no_fault here.tone refused
        obtain ⟨afterwards, alsoSucceeds⟩ := execute_of_no_fault there.tone alsoPossible
        have plain := deaf _ (executed?_of_success here fetched succeeds)
        have sameCore : after.toCore = afterwards.toCore := by
          have made := execute_toCore same plain here.tone there.tone
          rw [succeeds, alsoSucceeds] at made
          exact made
        have sameFrame : after.frame = afterwards.frame := congrArg Core.frame sameCore
        constructor
        · rw [outcome_of_success steadyHere fetched succeeds,
            outcome_of_success steadyThere alsoFetched alsoSucceeds]
        · rw [next_of_success here fetched succeeds, next_of_success there alsoFetched alsoSucceeds,
            conclude_toCore, conclude_toCore]
          exact sameCore
        · simp only [drawn?, fetched, alsoFetched, perform, succeeds, alsoSucceeds, sameFrame]
  · have outside : Layout.memorySize ≤ first.registers.counter + 1 := by omega
    have alsoOutside := outside
    rw [sameRegisters] at alsoOutside
    have failed := (first.memory.fetch_eq_error_iff first.registers.counter _).mpr ⟨outside, rfl⟩
    have alsoFailed :=
      (second.memory.fetch_eq_error_iff second.registers.counter _).mpr ⟨alsoOutside, rfl⟩
    constructor
    · rw [next_of_outside here outside, next_of_outside there alsoOutside, sameRegisters]
    · rw [next_of_outside here outside, next_of_outside there alsoOutside]
      exact same
    · simp only [drawn?, failed, alsoFailed]

end

/-! ### What happens in between -/

theorem happen_outside {happening : Happening} (outside : happening.isOutside = true)
    (surroundings : Surroundings) (machine : Machine) :
    (machine.happen surroundings happening).toCore = machine.toCore ∧
      (machine.happen surroundings happening).shown = machine.shown ∧
      machine.outcomeOf? surroundings happening = none := by
  cases happening with
  | tick | gesture => exact ⟨rfl, rfl, rfl⟩
  | _ => cases outside

structure SameRuns (first second : Machine) (here there : Surroundings)
    (ours theirs : List Happening) :
    Prop where
  outcomes : first.outcomesAll here ours = second.outcomesAll there theirs
  core : (first.happenAll here ours).toCore = (second.happenAll there theirs).toCore
  shown : ∃ told, (first.happenAll here ours).shown = told ++ first.shown ∧
    (second.happenAll there theirs).shown = told ++ second.shown

section

variable {first second : Machine} {here there : Surroundings} {ours theirs : List Happening}

theorem SameRuns.symm (runs : SameRuns first second here there ours theirs) :
    SameRuns second first there here theirs ours := by
  obtain ⟨told, ourShown, theirShown⟩ := runs.shown
  exact ⟨runs.outcomes.symm, runs.core.symm, told, theirShown, ourShown⟩

theorem SameRuns.outside {happening : Happening} (outside : happening.isOutside = true)
    (runs : SameRuns (first.happen here happening) second here there ours theirs) :
    SameRuns first second here there (happening :: ours) theirs := by
  obtain ⟨_, sameShown, noOutcome⟩ := happen_outside outside here first
  obtain ⟨told, ourShown, theirShown⟩ := runs.shown
  refine ⟨?_, runs.core, told, ?_, theirShown⟩
  · rw [outcomesAll, noOutcome]
    exact runs.outcomes
  · rw [← sameShown]
    exact ourShown

theorem SameRuns.cycle (alike : Alike first second here there)
    (runs : SameRuns (first.next here).1 (second.next there).1 here there ours theirs) :
    SameRuns first second here there (.cycle :: ours) (.cycle :: theirs) := by
  obtain ⟨told, ourShown, theirShown⟩ := runs.shown
  refine ⟨?_, runs.core, told ++ (first.drawn? here).toList.reverse, ?_, ?_⟩
  · change (first.next here).2 :: _ = (second.next there).2 :: _
    rw [alike.outcome]
    exact congrArg _ runs.outcomes
  · rw [List.append_assoc, ← (next_shows here first).shown]
    exact ourShown
  · rw [List.append_assoc, alike.drawn, ← (next_shows there second).shown]
    exact theirShown

end

/-- The induction is over the two schedules side by side. The cores agree between any two steps of
it. -/
theorem sameRuns_of_inStep {here there : Surroundings} (steadyHere : here.Steady)
    (steadyThere : there.Steady) {ours theirs : List Happening}
    (inStep : Happening.InStep ours theirs) {first second : Machine}
    (same : first.toCore = second.toCore)
    (deaf : ∀ instruction ∈ first.executedAll here ours, instruction.consults = false) :
    SameRuns first second here there ours theirs := by
  induction inStep generalizing first second with
  | none => exact ⟨rfl, same, [], rfl, rfl⟩
  | cycle rest ih =>
      have alike : Alike first second here there := by
        apply alike_of_toCore same steadyHere steadyThere
        intro instruction executed
        apply deaf instruction
        rw [executedAll, executedBy?, executed]
        exact List.mem_cons_self
      refine SameRuns.cycle alike (ih alike.core ?_)
      intro instruction member
      exact deaf instruction (List.mem_append_right _ member)
  | ours outside rest ih =>
      refine SameRuns.outside outside (ih ?_ ?_)
      · exact (happen_outside outside here first).1.trans same
      · intro instruction member
        exact deaf instruction (List.mem_append_right _ member)
  | theirs outside rest ih =>
      refine (SameRuns.outside outside (ih ?_ deaf).symm).symm
      exact same.trans (happen_outside outside there second).1.symm

/-- Timers, keys and random bytes do not interfere with a program that does not ask for them.

The machines may differ in everything but their cores, and so may their surroundings and what
happens between the cycles. If as many cycles are done with both, and the first has executed none of
the instructions that consult what is outside, then all outcomes are the same, the cores still are,
and the displays have been given the same frames. -/
theorem noninterference (first second : Machine) (here there : Surroundings)
    (ours theirs : List Happening) (same : first.toCore = second.toCore) (steadyHere : here.Steady)
    (steadyThere : there.Steady) (ourSchedule : Happening.Schedule ours)
    (theirSchedule : Happening.Schedule theirs)
    (sameCount : ours.count .cycle = theirs.count .cycle)
    (deaf : ∀ instruction ∈ first.executedAll here ours, instruction.consults = false) :
    first.outcomesAll here ours = second.outcomesAll there theirs ∧
    (first.happenAll here ours).toCore = (second.happenAll there theirs).toCore ∧
    (∃ told, (first.happenAll here ours).shown = told ++ first.shown ∧
      (second.happenAll there theirs).shown = told ++ second.shown) ∧
    (∀ word : Word, (Instruction.decode word).consults = true ↔ word.Consults) := by
  have inStep := Happening.inStep_of_count ourSchedule theirSchedule sameCount
  have runs := sameRuns_of_inStep steadyHere steadyThere inStep same deaf
  exact ⟨runs.outcomes, runs.core, runs.shown, Instruction.consults_decode_iff⟩

/-- A program that clears the screen and draws a digit, with a display that presses keys, starts a
tone and takes the listener away. -/
theorem noninterference_of_busy_display :
    let first := initial.happen .quiet (.load [0x00, 0xE0, 0xD0, 0x05])
    let second := { first with
      timers := { delay := 9, sound := 1, listener := some 0 }, random := .counter 3 5 }
    let busy : Surroundings :=
      { display := fun _ =>
          [.gesture (.press 4), .change (.setSound 9), .change (.setListener none)]
        tone := fun _ => [.release 4] }
    let theirs : List Happening := [.tick, .cycle, .gesture (.press 7), .cycle]
    (∀ instruction ∈ first.executedAll .quiet [.cycle, .cycle], instruction.consults = false) ∧
      first.outcomesAll .quiet [.cycle, .cycle] = second.outcomesAll busy theirs ∧
      (first.happenAll .quiet [.cycle, .cycle]).toCore = (second.happenAll busy theirs).toCore := by
  intro first second busy theirs
  have deaf : ∀ instruction ∈ first.executedAll .quiet [.cycle, .cycle],
      instruction.consults = false := by
    decide +kernel
  have silent : Surroundings.quiet.Steady := fun _ _ raises => by cases raises
  have steady : busy.Steady := fun _ _ raises => by simp [busy] at raises
  have ourSchedule : Happening.Schedule [.cycle, .cycle] := by decide
  have theirSchedule : Happening.Schedule theirs := by decide
  have same := noninterference first second .quiet busy [.cycle, .cycle] theirs rfl silent steady
    ourSchedule theirSchedule (by decide) deaf
  exact ⟨deaf, same.1, same.2.1⟩

end Machine

end Chip8Machine
