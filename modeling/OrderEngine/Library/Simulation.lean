import Mathlib.Data.List.Infix
import Mathlib.Tactic

namespace OrderEngine.Library

/-- Each step of a program does what a list of abstract events does. -/
structure Simulation (State Action Spec Event : Type) where
  step : State → Action → State
  perform : Spec → Event → Spec
  explain : State → Action → List Event
  Related : State → Spec → Prop
  sound : ∀ {state : State} {spec : Spec} (action : Action), Related state spec →
    Related (step state action) ((explain state action).foldl perform spec)

namespace Simulation

variable {State Action Spec Event : Type} (simulation : Simulation State Action Spec Event)
  {state : State} {spec : Spec}

/-- A run is explained by the events of its steps in their order. -/
def trace (state : State) : List Action → List Event
  | [] => []
  | action :: actions =>
      simulation.explain state action ++ trace (simulation.step state action) actions

theorem trace_append (state : State) (past later : List Action) :
    simulation.trace state (past ++ later) =
      simulation.trace state past ++ simulation.trace (past.foldl simulation.step state) later := by
  induction past generalizing state with
  | nil => rfl
  | cons action past ih => rw [List.cons_append, trace, ih, trace, List.foldl_cons, List.append_assoc]

/-- A longer run only adds events behind the earlier ones. -/
theorem trace_prefix (state : State) {past actions : List Action} (inside : past <+: actions) :
    simulation.trace state past <+: simulation.trace state actions := by
  obtain ⟨later, rfl⟩ := inside
  rw [trace_append]
  exact List.prefix_append _ _

variable (start : simulation.Related state spec)

include start

/-- Related states stay related along a run and the events that explain it. -/
theorem run (actions : List Action) : simulation.Related (actions.foldl simulation.step state)
    ((simulation.trace state actions).foldl simulation.perform spec) := by
  induction actions generalizing state spec with
  | nil => exact start
  | cons action actions ih =>
      rw [trace, List.foldl_append]
      exact ih (simulation.sound action start)

/-- What every abstract event keeps holds of a state that is related to each state of a run. -/
theorem keeps {Holds : Spec → Prop} (step : ∀ {spec : Spec} (event : Event), Holds spec →
    Holds (simulation.perform spec event)) (holds : Holds spec) (actions : List Action) :
    ∃ reached, simulation.Related (actions.foldl simulation.step state) reached ∧ Holds reached := by
  refine ⟨_, simulation.run start actions, ?_⟩
  generalize simulation.trace state actions = events
  clear start
  induction events generalizing spec with
  | nil => exact holds
  | cons event events ih => exact ih (step event holds)

end Simulation

end OrderEngine.Library
