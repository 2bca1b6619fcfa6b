import Mathlib.Logic.Function.Basic
import Mathlib.Tactic

namespace OrderEngine.Library

/-- A ring of this capacity holds the items between its head and its tail. -/
def ringSize (capacity head tail : Nat) : Nat := (tail + capacity - head) % capacity

/-- The ring lists its items from the head on, and it wraps at its end. -/
def ringItems {Item : Type} (cells : Nat → Item) (capacity head size : Nat) : List Item :=
  (List.range size).map fun index => cells ((head + index) % capacity)

section Indices

variable {capacity head tail index : Nat}

/-- An index that passes the end of the ring continues at its start. -/
theorem wrap_eq (inside : head < capacity) (short : index ≤ capacity) :
    (head + index) % capacity = if head + index < capacity then head + index else head + index - capacity := by
  split
  · next before => exact Nat.mod_eq_of_lt before
  · next after =>
      rw [Nat.mod_eq_sub_mod (by omega), Nat.mod_eq_of_lt (by omega)]

section Size

variable (headInside : head < capacity) (tailInside : tail < capacity)

include headInside

theorem ringSize_lt : ringSize capacity head tail < capacity := Nat.mod_lt _ (by omega)

include tailInside

theorem ringSize_eq : ringSize capacity head tail =
    if head ≤ tail then tail - head else tail + capacity - head := by
  unfold ringSize
  split
  · rw [Nat.mod_eq_sub_mod (by omega), Nat.mod_eq_of_lt (by omega)]
    omega
  · rw [Nat.mod_eq_of_lt (by omega)]

/-- The tail lies behind the items. -/
theorem tail_eq : (head + ringSize capacity head tail) % capacity = tail := by
  have bound : ringSize capacity head tail < capacity := ringSize_lt headInside
  rw [wrap_eq headInside (Nat.le_of_lt bound), ringSize_eq headInside tailInside]
  split_ifs <;> omega

theorem ringSize_eq_zero : ringSize capacity head tail = 0 ↔ head = tail := by
  rw [ringSize_eq headInside tailInside]
  split_ifs <;> omega

/-- The next tail meets the head exactly when one cell is left. -/
theorem next_tail_eq_head : (tail + 1) % capacity = head ↔ ringSize capacity head tail + 1 = capacity := by
  rw [ringSize_eq headInside tailInside, wrap_eq tailInside (by omega)]
  split_ifs <;> omega

/-- A push makes the ring larger by one. -/
theorem ringSize_push (room : (tail + 1) % capacity ≠ head) :
    ringSize capacity head ((tail + 1) % capacity) = ringSize capacity head tail + 1 := by
  have next : (tail + 1) % capacity < capacity := Nat.mod_lt _ (by omega)
  rw [ringSize_eq headInside next, ringSize_eq headInside tailInside]
  rw [wrap_eq tailInside (by omega)] at room ⊢
  split_ifs at room ⊢ <;> omega

/-- A pop makes the ring smaller by one. -/
theorem ringSize_pop (occupied : head ≠ tail) :
    ringSize capacity ((head + 1) % capacity) tail + 1 = ringSize capacity head tail := by
  have next : (head + 1) % capacity < capacity := Nat.mod_lt _ (by omega)
  rw [ringSize_eq next tailInside, ringSize_eq headInside tailInside, wrap_eq headInside (by omega)]
  split_ifs <;> omega

end Size

end Indices

section Items

variable {Item : Type} {cells : Nat → Item} {capacity head size : Nat}

@[simp] theorem ringItems_zero : ringItems cells capacity head 0 = [] := rfl

@[simp] theorem ringItems_length : (ringItems cells capacity head size).length = size := by
  simp [ringItems]

/-- The ring grows by the cell behind its items. -/
theorem ringItems_succ : ringItems cells capacity head (size + 1) =
    ringItems cells capacity head size ++ [cells ((head + size) % capacity)] := by
  unfold ringItems
  rw [List.range_succ, List.map_append, List.map_singleton]

/-- A write behind the items leaves the items as they are. -/
theorem ringItems_write (inside : head < capacity) (room : size < capacity) (item : Item) :
    ringItems (Function.update cells ((head + size) % capacity) item) capacity head size =
      ringItems cells capacity head size := by
  unfold ringItems
  apply List.map_congr_left
  intro index member
  have earlier := List.mem_range.mp member
  apply Function.update_of_ne
  rw [wrap_eq inside (by omega), wrap_eq inside (by omega)]
  split_ifs <;> omega

/-- The item at the head is the first one. -/
theorem ringItems_pop (inside : head < capacity) :
    ringItems cells capacity head (size + 1) =
      cells head :: ringItems cells capacity ((head + 1) % capacity) size := by
  unfold ringItems
  rw [List.range_succ_eq_map, List.map_cons, List.map_map, Nat.add_zero, Nat.mod_eq_of_lt inside]
  congr 1
  apply List.map_congr_left
  intro index _
  rw [Function.comp_apply, Nat.mod_add_mod, Nat.succ_eq_add_one, Nat.add_assoc, Nat.add_comm 1]

end Items

end OrderEngine.Library
