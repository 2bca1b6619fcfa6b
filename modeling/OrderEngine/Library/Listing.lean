import Mathlib.Data.List.Nodup
import Mathlib.Tactic

namespace OrderEngine.Library

variable {Key Item : Type} [DecidableEq Key] {key : Item → Key} {cells : Key → List Item} {items : List Item}
  {item : Item}

/-- The list has the items of every cell, each under its own key and in the order of the cell. -/
def Lists (key : Item → Key) (cells : Key → List Item) (items : List Item) : Prop :=
  ∀ cell, items.filter (fun item => key item = cell) = cells cell

theorem Lists.mem_iff (lists : Lists key cells items) : item ∈ items ↔ item ∈ cells (key item) := by
  rw [← lists, List.mem_filter, decide_eq_true_iff]
  exact (and_iff_left rfl).symm

/-- Distinct items of each cell are distinct in the list. -/
theorem Lists.nodup [DecidableEq Item] (lists : Lists key cells items) (distinct : ∀ cell, (cells cell).Nodup) :
    items.Nodup := by
  rw [List.nodup_iff_count_le_one]
  intro item
  have counted : (items.filter fun other => key other = key item).count item = items.count item :=
    List.count_filter (decide_eq_true rfl)
  rw [← counted, lists]
  exact List.nodup_iff_count_le_one.mp (distinct _) item

/-- The cells in a row, one after the other, list themselves. -/
theorem lists_flatMap {keys : List Key} (distinct : keys.Nodup) (own : ∀ cell, ∀ item ∈ cells cell, key item = cell)
    (all : ∀ cell, cells cell ≠ [] → cell ∈ keys) : Lists key cells (keys.flatMap cells) := by
  intro cell
  have part (keys : List Key) (distinct : keys.Nodup) :
      (keys.flatMap cells).filter (fun item => key item = cell) = if cell ∈ keys then cells cell else [] := by
    induction keys with
    | nil => rfl
    | cons first keys ih =>
        obtain ⟨new, later⟩ := List.nodup_cons.mp distinct
        rw [List.flatMap_cons, List.filter_append, ih later]
        by_cases here : cell = first
        · subst here
          rw [if_neg new, List.append_nil, if_pos List.mem_cons_self, List.filter_eq_self]
          exact fun item member => decide_eq_true (own cell item member)
        · have none_ : (cells first).filter (fun item => key item = cell) = [] := by
            rw [List.filter_eq_nil_iff]
            intro item member same
            exact here ((of_decide_eq_true same).symm.trans (own first item member))
          rw [none_, List.nil_append]
          simp [here]
  rw [part keys distinct]
  split
  · rfl
  · next missing =>
      by_contra occupied
      exact missing (all cell fun empty => occupied empty.symm)

end OrderEngine.Library
