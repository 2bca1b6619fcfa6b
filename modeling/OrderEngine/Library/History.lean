import Mathlib.Data.List.Infix
import Mathlib.Tactic

namespace OrderEngine.Library

variable {Action : Type} {actions : List Action}

/-- A property that holds at the start and survives each action holds after every prefix. -/
theorem always_of_step {Holds : List Action → Prop} (start : Holds [])
    (step : ∀ past action, past ++ [action] <+: actions → Holds past → Holds (past ++ [action]))
    {past : List Action} (inside : past <+: actions) : Holds past := by
  induction past using List.reverseRecOn with
  | nil => exact start
  | append_singleton past action ih =>
      exact step past action inside (ih ((List.prefix_append past [action]).trans inside))

/-- Each action keeps the property exactly when it is safe, so the property holds throughout
exactly when every action is safe. -/
theorem always_iff {Holds : List Action → Prop} {Safe : List Action → Action → Prop} (start : Holds [])
    (step : ∀ past action, past ++ [action] <+: actions → Holds past →
      (Holds (past ++ [action]) ↔ Safe past action)) :
    (∀ past, past <+: actions → Holds past) ↔
      ∀ past action, past ++ [action] <+: actions → Safe past action := by
  constructor
  · intro holds past action inside
    have before := holds past ((List.prefix_append past [action]).trans inside)
    exact (step past action inside before).mp (holds _ inside)
  · intro safe past inside
    refine always_of_step start (fun past action within before => ?_) inside
    exact (step past action within before).mpr (safe past action within)

/-- An action of a prefix is an action of the whole list. -/
theorem mem_of_past {past : List Action} {action : Action} (inside : past ++ [action] <+: actions) :
    action ∈ actions := inside.subset (by simp)

/-- Every step of an empty history has any property. -/
theorem forall_past_nil {Holds : List Action → Action → Prop} :
    ∀ past action, past ++ [action] <+: [] → Holds past action := by
  intro past action inside
  exact absurd (List.prefix_nil.mp inside) (by simp)

/-- The steps of a history are its first step and the steps after it. -/
theorem forall_past_cons {Holds : List Action → Action → Prop} {first : Action} (here : Holds [] first)
    (later : ∀ past action, past ++ [action] <+: actions → Holds (first :: past) action) :
    ∀ past action, past ++ [action] <+: first :: actions → Holds past action := by
  intro past action inside
  cases past with
  | nil =>
      obtain rfl := (List.cons_prefix_cons.mp inside).1
      exact here
  | cons head past =>
      obtain ⟨rfl, rest⟩ := List.cons_prefix_cons.mp inside
      exact later past action rest

end OrderEngine.Library
