import ChiaQuery.Library.GuardedRuns

/-! One component of a machine seen alone. A view of the machine's states follows a machine of
its own when the events that concern it act on the view and the others leave it as it is; what
the component sees of a run is then what its own events make of it.
-/

namespace ChiaQuery.Library

variable {State View Event : Type*}

/-- In the states `machine` reaches, which all satisfy `invariant`, the events that concern the
component act on the view as on the component alone, and no other event changes the view.
-/
structure Machine.Projects (machine : Machine State Event) (component : Machine View Event)
    (invariant : State → Prop) (view : State → View) (concerns : Event → Bool)
    : Prop where
  start : view machine.initial = component.initial
  initial : invariant machine.initial
  kept : ∀ {state event next},
    invariant state → machine.step state event = some next → invariant next
  acts : ∀ {state event next},
    invariant state → concerns event = true → machine.step state event = some next
      → component.step (view state) event = some (view next)
  hidden : ∀ {state event next},
    invariant state → concerns event = false → machine.step state event = some next
      → view next = view state

namespace Machine.Projects

variable {machine : Machine State Event} {component : Machine View Event}
  {invariant : State → Prop} {view : State → View} {concerns : Event → Bool}

/-- From any state that satisfies the invariant the component's events lead its view to the view
of the state reached, by induction on the events.
-/
theorem runFrom (projects : machine.Projects component invariant view concerns)
    {state final : State} {events : List Event} (holds : invariant state)
    (reached : machine.runFrom state events = some final)
    : component.runFrom (view state) (events.filter concerns) = some (view final) := by
  induction events generalizing state with
  | nil =>
      cases reached
      rfl
  | cons event rest ih =>
      obtain ⟨next, stepped, reached⟩ := Option.bind_eq_some_iff.mp reached
      have later := ih (projects.kept holds stepped) reached
      cases concerned : concerns event with
      | true =>
          rw [List.filter_cons_of_pos concerned]
          exact Option.bind_eq_some_iff.mpr
            ⟨view next, projects.acts holds concerned stepped, later⟩
      | false =>
          rw [List.filter_cons_of_neg (by simp [concerned]),
            ← projects.hidden holds concerned stepped]
          exact later

theorem run (projects : machine.Projects component invariant view concerns) {final : State}
    {events : List Event} (reached : machine.run events = some final)
    : component.run (events.filter concerns) = some (view final) := by
  have seen := projects.runFrom projects.initial reached
  rwa [projects.start] at seen

/-- Two runs that agree on the component's events show it the same. -/
theorem view_eq (projects : machine.Projects component invariant view concerns)
    {left right : List Event} {leftFinal rightFinal : State}
    (same : left.filter concerns = right.filter concerns)
    (leftReached : machine.run left = some leftFinal)
    (rightReached : machine.run right = some rightFinal)
    : view leftFinal = view rightFinal := by
  have leftSeen := projects.run leftReached
  have rightSeen := projects.run rightReached
  rw [same, rightSeen] at leftSeen
  exact (Option.some.inj leftSeen).symm

end Machine.Projects

end ChiaQuery.Library
