import OrderEngine.Library.Tally

namespace OrderEngine.Library

variable {State Action : Type} {step : State → Action → State} {cost income : State → Action → Int}
  {potential : State → Int} {Holds : State → Prop} {state : State} {actions : List Action}

/-- Each action pays its cost from its income and from the potential, so a run does. -/
theorem tally_le_of_pays (start : Holds state)
    (keeps : ∀ state action, action ∈ actions → Holds state → Holds (step state action))
    (pays : ∀ state action, action ∈ actions → Holds state →
      cost state action + potential (step state action) ≤ potential state + income state action) :
    tally step cost state actions + potential (actions.foldl step state) ≤
      potential state + tally step income state actions := by
  induction actions generalizing state with
  | nil => simp [tally]
  | cons action actions ih =>
      have first := pays state action List.mem_cons_self start
      have rest := ih (keeps state action List.mem_cons_self start)
        (fun state other member => keeps state other (List.mem_cons_of_mem _ member))
        (fun state other member => pays state other (List.mem_cons_of_mem _ member))
      rw [tally, tally, List.foldl_cons]
      omega

theorem tally_nonneg (gains : ∀ state action, 0 ≤ cost state action) : 0 ≤ tally step cost state actions := by
  induction actions generalizing state with
  | nil => exact Int.le_refl 0
  | cons action actions ih => exact Int.add_nonneg (gains state action) ih

/-- A tally of gains grows along a run. -/
theorem tally_le_of_prefix {past : List Action} (gains : ∀ state action, 0 ≤ cost state action)
    (inside : past <+: actions) : tally step cost state past ≤ tally step cost state actions := by
  obtain ⟨later, rfl⟩ := inside
  induction past generalizing state with
  | nil => exact tally_nonneg gains
  | cons action past ih => exact Int.add_le_add_left ih _

/-- An action that balances exactly leaves nothing over. -/
theorem tally_eq_of_balances (start : Holds state)
    (keeps : ∀ state action, action ∈ actions → Holds state → Holds (step state action))
    (balances : ∀ state action, action ∈ actions → Holds state →
      cost state action + potential (step state action) = potential state) :
    tally step cost state actions + potential (actions.foldl step state) = potential state := by
  induction actions generalizing state with
  | nil => simp [tally]
  | cons action actions ih =>
      have first := balances state action List.mem_cons_self start
      have rest := ih (keeps state action List.mem_cons_self start)
        (fun state other member => keeps state other (List.mem_cons_of_mem _ member))
        (fun state other member => balances state other (List.mem_cons_of_mem _ member))
      rw [tally, List.foldl_cons]
      omega

end OrderEngine.Library
