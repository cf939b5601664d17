import Mathlib.Logic.Relation

/-! Machines that take labelled steps, and the runs whose steps all meet a guard.
An invariant kept by every guarded step holds in every state such a run reaches.
-/

namespace ChiaQuery.Library

/-- A machine has one initial state and a partial step function: an event that is not
enabled in a state has no successor there.
-/
structure Machine (State Event : Type*) where
  initial : State
  step : State → Event → Option State

namespace Machine

variable {State Event : Type*} (machine : Machine State Event)

/-- The state a list of events leads to from `state`, when every event is enabled. -/
def runFrom (state : State) : List Event → Option State
  | [] => some state
  | event :: rest => (machine.step state event).bind (fun next => runFrom next rest)

/-- The state a list of events leads to from the initial state. -/
def run (events : List Event) : Option State :=
  machine.runFrom machine.initial events

/-- A run of two lists of events is a run of the first and then of the second. -/
theorem runFrom_append (state : State) (earlier later : List Event)
    : machine.runFrom state (earlier ++ later)
      = (machine.runFrom state earlier).bind (fun next => machine.runFrom next later) := by
  induction earlier generalizing state with
  | nil => rfl
  | cons event rest ih =>
      simp only [List.cons_append, runFrom, Option.bind_assoc]
      congr 1
      funext next
      exact ih next

/-- Every event of the run meets `guard` in the state it is taken in. -/
def MeetsFrom (guard : State → Event → Prop) (state : State) : List Event → Prop
  | [] => True
  | event :: rest =>
      guard state event
      ∧ ∀ next, machine.step state event = some next → MeetsFrom guard next rest

/-- Every event of the run from the initial state meets `guard`. -/
def Meets (guard : State → Event → Prop) (events : List Event) : Prop :=
  machine.MeetsFrom guard machine.initial events

/-- Test a guard along a run, event by event. -/
def checkFrom (check : State → Event → Bool) (state : State) : List Event → Bool
  | [] => true
  | event :: rest =>
      check state event
      && match machine.step state event with
        | none => true
        | some next => checkFrom check next rest

/-- A guard that can be tested is met when the test says so, by induction on the events. -/
theorem checkFrom_iff (guard : State → Event → Prop)
    [∀ state event, Decidable (guard state event)] (state : State) (events : List Event)
    : machine.checkFrom (fun state event => decide (guard state event)) state events = true
      ↔ machine.MeetsFrom guard state events := by
  induction events generalizing state with
  | nil => simp [checkFrom, MeetsFrom]
  | cons event rest ih =>
      simp only [checkFrom, MeetsFrom, Bool.and_eq_true, decide_eq_true_eq]
      cases machine.step state event with
      | none => simp
      | some next => simp [ih next]

instance (guard : State → Event → Prop) [∀ state event, Decidable (guard state event)]
    (events : List Event)
    : Decidable (machine.Meets guard events) :=
  decidable_of_iff _ (checkFrom_iff machine guard machine.initial events)

variable {machine}

/-- An invariant that every guarded step keeps survives a guarded run from any state that
has it. Witness: induction on the events, the invariant carrying each step.
-/
theorem runFrom_invariant {guard : State → Event → Prop} {invariant : State → Prop}
    (kept
      : ∀ {state event next},
          invariant state
          → guard state event
          → machine.step state event = some next
          → invariant next)
    {state final : State} {events : List Event} (start : invariant state)
    (meets : machine.MeetsFrom guard state events)
    (reached : machine.runFrom state events = some final)
    : invariant final := by
  induction events generalizing state with
  | nil => exact Option.some.inj reached ▸ start
  | cons event rest ih =>
      obtain ⟨next, stepped, reached⟩ := Option.bind_eq_some_iff.mp reached
      exact ih (kept start meets.1 stepped) (meets.2 next stepped) reached

/-- An invariant of the initial state that every guarded step keeps holds in every state a
guarded run reaches.
-/
theorem run_invariant {guard : State → Event → Prop} {invariant : State → Prop}
    (start : invariant machine.initial)
    (kept
      : ∀ {state event next},
          invariant state
          → guard state event
          → machine.step state event = some next
          → invariant next)
    {events : List Event} {final : State} (meets : machine.Meets guard events)
    (reached : machine.run events = some final)
    : invariant final :=
  runFrom_invariant kept start meets reached

/-- Every run meets a guard that asks nothing, by induction on the events. -/
theorem meetsFrom_true (state : State) (events : List Event)
    : machine.MeetsFrom (fun _ _ => True) state events := by
  induction events generalizing state with
  | nil => trivial
  | cons event rest ih => exact ⟨trivial, fun next _ => ih next⟩

/-- An invariant of the initial state that every step keeps holds in every state reached. -/
theorem reachable_invariant {invariant : State → Prop} (start : invariant machine.initial)
    (kept
      : ∀ {state event next},
          invariant state → machine.step state event = some next → invariant next)
    {events : List Event} {final : State} (reached : machine.run events = some final)
    : invariant final :=
  run_invariant start (fun holds _ stepped => kept holds stepped)
    (meetsFrom_true machine.initial events) reached

/-- Guards that say the same wherever an invariant holds are met by the same runs. Induction on
the events, the invariant carrying each step.
-/
theorem meetsFrom_iff {guard other : State → Event → Prop} {invariant : State → Prop}
    (kept
      : ∀ {state event next},
          invariant state → machine.step state event = some next → invariant next)
    (same : ∀ {state event}, invariant state → (guard state event ↔ other state event))
    {state : State} (start : invariant state) (events : List Event)
    : machine.MeetsFrom guard state events ↔ machine.MeetsFrom other state events := by
  induction events generalizing state with
  | nil => exact Iff.rfl
  | cons event rest ih =>
      refine and_congr (same start) (forall_congr' (fun next => imp_congr_right ?_))
      exact fun stepped => ih (kept start stepped)

/-- Guards that say the same wherever an invariant of the initial state holds are met by the same
runs.
-/
theorem meets_iff {guard other : State → Event → Prop} {invariant : State → Prop}
    (start : invariant machine.initial)
    (kept
      : ∀ {state event next},
          invariant state → machine.step state event = some next → invariant next)
    (same : ∀ {state event}, invariant state → (guard state event ↔ other state event))
    (events : List Event)
    : machine.Meets guard events ↔ machine.Meets other events :=
  meetsFrom_iff kept same start events

/-- Guards that say the same in every state and of every event are met by the same runs. -/
theorem meets_congr {guard other : State → Event → Prop}
    (same : ∀ {state event}, guard state event ↔ other state event) (events : List Event)
    : machine.Meets guard events ↔ machine.Meets other events :=
  meetsFrom_iff (fun {_ _ _} (_ : True) _ => trivial) (fun {_ _} _ => same) trivial events

/-- The last event of a run that meets a guard meets it in the state the others led to. -/
theorem MeetsFrom.last {guard : State → Event → Prop} {state final : State}
    {events : List Event} {event : Event}
    (meets : machine.MeetsFrom guard state (events ++ [event]))
    (reached : machine.runFrom state events = some final)
    : guard final event := by
  induction events generalizing state with
  | nil =>
      cases reached
      exact meets.1
  | cons first rest ih =>
      obtain ⟨next, stepped, reached⟩ := Option.bind_eq_some_iff.mp reached
      exact ih (meets.2 next stepped) reached

end Machine

end ChiaQuery.Library
