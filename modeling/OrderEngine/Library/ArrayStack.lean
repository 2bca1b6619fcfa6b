import Mathlib.Data.List.Nodup
import Mathlib.Logic.Function.Basic
import Mathlib.Tactic

namespace OrderEngine.Library

/-- The stack shows the first `top` cells, the highest one first. -/
def stack {Cell : Type} (cells : Nat → Cell) (top : Nat) : List Cell :=
  (List.range top).reverse.map cells

section Stack

variable {Cell : Type} (cells : Nat → Cell) (top : Nat)

@[simp] theorem stack_zero : stack cells 0 = [] := rfl

@[simp] theorem stack_succ : stack cells (top + 1) = cells top :: stack cells top := by
  simp [stack, List.range_succ]

@[simp] theorem stack_length : (stack cells top).length = top := by
  simp [stack]

/-- A cell above the top does not show. -/
theorem stack_update_of_le {index : Nat} (above : top ≤ index) (cell : Cell) :
    stack (Function.update cells index cell) top = stack cells top := by
  simp only [stack]
  apply List.map_congr_left
  intro other member
  have inside : other < top := by simpa using member
  exact Function.update_of_ne (by omega) _ _

/-- A push writes the cell at the top. -/
theorem stack_push (cell : Cell) :
    stack (Function.update cells top cell) (top + 1) = cell :: stack cells top := by
  rw [stack_succ, Function.update_self, stack_update_of_le cells top (Nat.le_refl _)]

theorem stack_eq_nil : stack cells top = [] ↔ top = 0 := by
  cases top <;> simp

/-- Distinct cells below the top make a stack without repetition. -/
theorem stack_nodup (distinct : Set.InjOn cells {index | index < top}) :
    (stack cells top).Nodup := by
  refine List.Nodup.map_on ?_ (List.nodup_reverse.mpr List.nodup_range)
  intro first firstMember second secondMember equal
  exact distinct (by simpa using firstMember) (by simpa using secondMember) equal

theorem mem_stack {cell : Cell} : cell ∈ stack cells top ↔ ∃ index < top, cells index = cell := by
  simp [stack]

end Stack

end OrderEngine.Library
