import Mathlib.Algebra.BigOperators.Group.List.Basic
import Mathlib.Data.List.Perm.Basic
import Mathlib.Tactic

namespace OrderEngine.Library

section Runs

variable {State Action : Type} (step : State → Action → State) (value : State → Action → Int)

/-- The values of the actions of a run are added up, each in the state that it starts from. -/
def tally (state : State) : List Action → Int
  | [] => 0
  | action :: actions => value state action + tally (step state action) actions

/-- The last action adds its value in the state that the others lead to. -/
theorem tally_append (state : State) (past : List Action) (action : Action) :
    tally step value state (past ++ [action]) =
      tally step value state past + value (past.foldl step state) action := by
  induction past generalizing state with
  | nil => simp [tally]
  | cons first past ih =>
      rw [List.cons_append, tally, tally, ih, List.foldl_cons]
      omega

end Runs

/-- Two sums differ by what one item contributes to each of them. -/
theorem sum_change {Item : Type} [DecidableEq Item] {before after : List Item} {value changed : Item → Nat}
    {item : Item} (distinct : before.Nodup) (distinctAfter : after.Nodup)
    (members : ∀ other, other ≠ item → (other ∈ after ↔ other ∈ before))
    (same : ∀ other ∈ before, other ≠ item → changed other = value other) :
    (after.map changed).sum + (if item ∈ before then value item else 0) =
      (before.map value).sum + (if item ∈ after then changed item else 0) := by
  have split {items : List Item} (weight : Item → Nat) :
      (items.map weight).sum = ((items.erase item).map weight).sum + (if item ∈ items then weight item else 0) := by
    split
    · next inside =>
        rw [← List.sum_map_erase weight inside]
        omega
    · next outside => rw [List.erase_of_not_mem outside, Nat.add_zero]
  have others : (after.erase item).Perm (before.erase item) := by
    rw [List.perm_ext_iff_of_nodup (distinctAfter.erase item) (distinct.erase item)]
    intro other
    rw [distinctAfter.mem_erase_iff, distinct.mem_erase_iff]
    by_cases here : other = item
    · simp [here]
    · rw [members other here]
  have kept : ((before.erase item).map changed).sum = ((before.erase item).map value).sum := by
    congr 1
    apply List.map_congr_left
    intro other inside
    exact same other (List.mem_of_mem_erase inside) (distinct.mem_erase_iff.mp inside).1
  rw [split changed, split value, (others.map changed).sum_eq, kept]
  omega

end OrderEngine.Library
