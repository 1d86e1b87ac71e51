/-!
Runs of a system whose steps may be impossible.

A list of steps is a run if each step is possible in its turn. What one step preserves a run
preserves, also if it speaks about the steps that have led to a state.

Where every step is possible, and a reading of the state is only ever set or left as it is, the last
step that sets it decides.
-/

set_option autoImplicit false

namespace Chip8Machine

variable {State Move : Type} {step : State → Move → Option State}

theorem run_append (state : State) (earlier later : List Move) :
    (earlier ++ later).foldlM step state =
      (earlier.foldlM step state).bind fun middle => later.foldlM step middle :=
  List.foldlM_append

theorem run_cons (state : State) (move : Move) (rest : List Move) :
    (move :: rest).foldlM step state = (step state move).bind fun next => rest.foldlM step next :=
  List.foldlM_cons

theorem run_cons_of_made {state next : State} {move : Move} (made : step state move = some next)
    (rest : List Move) : (move :: rest).foldlM step state = rest.foldlM step next := by
  rw [run_cons, made]
  rfl

theorem exists_of_run_cons {state reached : State} {move : Move} {rest : List Move}
    (course : (move :: rest).foldlM step state = some reached) :
    ∃ next, step state move = some next ∧ rest.foldlM step next = some reached := by
  rw [run_cons] at course
  exact Option.bind_eq_some_iff.mp course

theorem run_of_parts {state middle reached : State} {earlier later : List Move}
    (before : earlier.foldlM step state = some middle)
    (behind : later.foldlM step middle = some reached) :
    (earlier ++ later).foldlM step state = some reached := by
  rw [run_append, before]
  exact behind

theorem run_concat {state middle reached : State} {earlier : List Move} {move : Move}
    (before : earlier.foldlM step state = some middle) (made : step middle move = some reached) :
    (earlier ++ [move]).foldlM step state = some reached := by
  apply run_of_parts before
  exact run_cons_of_made made []

theorem recorded_of_run (Holds : List Move → State → Prop)
    (preserved : ∀ history state move next, Holds history state → step state move = some next →
      Holds (history ++ [move]) next)
    {state reached : State} {moves : List Move} (history : List Move) (holds : Holds history state)
    (course : moves.foldlM step state = some reached) : Holds (history ++ moves) reached := by
  -- The history grows by the step that is taken off the run.
  induction moves generalizing history state with
  | nil =>
      cases course
      rw [List.append_nil]
      exact holds
  | cons move rest ih =>
      obtain ⟨next, made, onward⟩ := exists_of_run_cons course
      have regrouped : history ++ move :: rest = (history ++ [move]) ++ rest := by
        rw [List.append_assoc]
        rfl
      rw [regrouped]
      exact ih _ (preserved history state move next holds made) onward

theorem invariant_of_run (Holds : State → Prop)
    (preserved : ∀ state move next, Holds state → step state move = some next → Holds next)
    {state reached : State} {moves : List Move} (holds : Holds state)
    (course : moves.foldlM step state = some reached) : Holds reached :=
  recorded_of_run (fun _ => Holds) (fun _ => preserved) [] holds course

/-! ### What was set last -/

theorem latest_of_foldl {State Event Value : Type} {act : State → Event → State}
    {sets? : Event → Option Value} (reading : State → Option Value)
    (set : ∀ state event, reading (act state event) = (sets? event).or (reading state))
    (state : State) (events : List Event) :
    reading (events.foldl act state) = (events.filterMap sets?).getLast?.or (reading state) := by
  induction events generalizing state with
  | nil => rfl
  | cons event rest ih =>
      rw [List.foldl_cons, ih, set]
      cases sets : sets? event with
      | none => rw [List.filterMap_cons_none sets, Option.none_or]
      | some value =>
          rw [List.filterMap_cons_some sets, List.getLast?_cons, Option.some_or, Option.some_or]
          cases (rest.filterMap sets?).getLast? with
          | none => rfl
          | some latest => rfl

/-- The value that was set last is that of an event behind which none sets anything. -/
theorem latest_eq_some_iff {Event Value : Type} {sets? : Event → Option Value} {events : List Event}
    {value : Value} :
    (events.filterMap sets?).getLast? = some value ↔
      ∃ earlier event later, events = earlier ++ event :: later ∧ sets? event = some value ∧
        ∀ other ∈ later, sets? other = none := by
  rw [List.getLast?_filterMap, List.findSome?_eq_some_iff]
  constructor
  · rintro ⟨recent, event, before, split, sets, spares⟩
    refine ⟨before.reverse, event, recent.reverse, ?_, sets, ?_⟩
    · rw [List.reverse_eq_append_iff, List.reverse_cons, List.append_assoc] at split
      exact split
    · intro other member
      exact spares other (List.mem_reverse.mp member)
  · rintro ⟨earlier, event, later, rfl, sets, spares⟩
    refine ⟨later.reverse, event, earlier.reverse, ?_, sets, ?_⟩
    · rw [List.reverse_append, List.reverse_cons, List.append_assoc]
      rfl
    · intro other member
      exact spares other (List.mem_reverse.mp member)

end Chip8Machine
