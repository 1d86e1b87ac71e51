/-!
States that are reached through handles.

A handle refers to a state, and a clone of it refers to the same state: what is done through one of
them is seen through all the others. Whoever changes a state holds its lock, so that changes follow
one another as wholes, whichever threads they come from.
-/

set_option autoImplicit false

namespace Chip8Machine

/-- States, and for each handle the place of the state that it refers to. -/
structure Shared (State : Type) where
  states : List State
  handles : List Nat
  placed : ∀ place ∈ handles, place < states.length

namespace Shared

inductive Use (State Change : Type) where
  | create (state : State)
  | clone (handle : Nat)
  | change (handle : Nat) (change : Change)
  deriving DecidableEq, Repr

variable {State Change : Type}

abbrev Refers (shared : Shared State) (handle place : Nat) : Prop :=
  shared.handles[handle]? = some place

def read? (shared : Shared State) (handle : Nat) : Option State :=
  match shared.handles[handle]? with
  | some place => shared.states[place]?
  | none => none

def create (shared : Shared State) (state : State) : Shared State where
  states := shared.states ++ [state]
  handles := shared.handles ++ [shared.states.length]
  placed := by
    intro place member
    rw [List.length_append, List.length_singleton]
    rcases List.mem_append.mp member with before | new
    · exact Nat.lt_succ_of_lt (shared.placed place before)
    · rw [List.mem_singleton.mp new]
      exact Nat.lt_succ_self _

def clone (shared : Shared State) (handle : Nat) : Shared State where
  states := shared.states
  handles := shared.handles ++ shared.handles[handle]?.toList
  placed := by
    intro place member
    rcases List.mem_append.mp member with before | new
    · exact shared.placed place before
    · exact shared.placed place (List.mem_of_getElem? (Option.mem_toList.mp new))

def updateAt (shared : Shared State) (place : Nat) (operation : State → State) : Shared State where
  states := shared.states.modify place operation
  handles := shared.handles
  placed := by
    rw [List.length_modify]
    exact shared.placed

variable (apply : State → Change → State)

/-- The states and handles behind a use. What is done with a handle that does not exist changes
nothing. -/
def act (shared : Shared State) : Use State Change → Shared State
  | .create state => shared.create state
  | .clone handle => shared.clone handle
  | .change handle change =>
      match shared.handles[handle]? with
      | some place => shared.updateAt place fun state => apply state change
      | none => shared

def actAll (shared : Shared State) (uses : List (Use State Change)) : Shared State :=
  uses.foldl (act apply) shared

def changeTo? (shared : Shared State) (place : Nat) : Use State Change → Option Change
  | .change handle change => if shared.Refers handle place then some change else none
  | .create _ => none
  | .clone _ => none

/-- The changes that are made to the state at the place, in their order. -/
def changesTo (place : Nat) (shared : Shared State) : List (Use State Change) → List Change
  | [] => []
  | use :: rest =>
      (shared.changeTo? place use).toList ++ changesTo place (shared.act apply use) rest

variable {apply} {shared : Shared State} {place : Nat} {state : State}

theorem create_refers (shared : Shared State) (state : State) :
    (shared.create state).Refers shared.handles.length shared.states.length :=
  List.getElem?_concat_length

theorem getElem?_create (shared : Shared State) (state : State) :
    (shared.create state).states[shared.states.length]? = some state :=
  List.getElem?_concat_length

/-- A clone refers to the state that its original refers to. -/
theorem clone_refers {handle : Nat} (refers : shared.Refers handle place) :
    (shared.clone handle).Refers shared.handles.length place := by
  have handles : (shared.clone handle).handles = shared.handles ++ [place] :=
    congrArg (fun found : Option Nat => shared.handles ++ found.toList) refers
  unfold Refers
  rw [handles]
  exact List.getElem?_concat_length

theorem getElem?_updateAt (found : shared.states[place]? = some state) (other : Nat)
    (operation : State → State) :
    (shared.updateAt other operation).states[place]? =
      some (if other = place then operation state else state) := by
  refine (List.getElem?_modify _ _ _ _).trans ?_
  rw [found]
  rfl

/-- A use changes the state at a place in at most one way. -/
theorem states_act (found : shared.states[place]? = some state) (use : Use State Change) :
    (shared.act apply use).states[place]? =
      some ((shared.changeTo? place use).toList.foldl apply state) := by
  cases use with
  | create added =>
      have inside : place < shared.states.length := (List.getElem?_eq_some_iff.mp found).1
      exact (List.getElem?_append_left inside).trans found
  | clone handle => exact found
  | change handle change =>
      cases refers : shared.handles[handle]? with
      | none =>
          simp only [act, changeTo?, Refers, refers]
          exact found
      | some other =>
          simp only [act, changeTo?, Refers, refers, Option.some.injEq]
          rw [getElem?_updateAt found]
          by_cases same : other = place
          · rw [if_pos same, if_pos same]
            rfl
          · rw [if_neg same, if_neg same]
            rfl

/-- Through a handle one sees the changes that were made through any of the handles to the same
state, and no others. -/
theorem read_of_actAll (found : shared.states[place]? = some state) (uses : List (Use State Change))
    {handle : Nat} (refers : (shared.actAll apply uses).Refers handle place) :
    (shared.actAll apply uses).read? handle =
      some ((shared.changesTo apply place uses).foldl apply state) := by
  have reached : (shared.actAll apply uses).states[place]? =
      some ((shared.changesTo apply place uses).foldl apply state) := by
    clear refers
    induction uses generalizing shared state with
    | nil => exact found
    | cons use rest ih =>
        rw [changesTo, List.foldl_append]
        exact ih (states_act found use)
  unfold read?
  rw [refers]
  exact reached

end Shared

end Chip8Machine
