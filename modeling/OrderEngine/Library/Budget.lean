import Mathlib.Tactic

namespace OrderEngine.Library

variable {Node : Type}

/-- A budget pays the nodes in order, and it stops when it is spent or does not cover the next one. -/
def paid (cost : Node → Nat) : Nat → List Node → List Node
  | _, [] => []
  | budget, node :: nodes =>
      if 0 < budget ∧ cost node ≤ budget then node :: paid cost (budget - cost node) nodes else []

section Paid

variable {cost other : Node → Nat} {budget : Nat} {nodes : List Node}

@[simp] theorem paid_zero : paid cost 0 nodes = [] := by
  cases nodes with
  | nil => rfl
  | cons node nodes => exact if_neg fun both => absurd both.1 (Nat.lt_irrefl 0)

/-- Nothing is paid exactly when the budget does not cover the first node. -/
theorem paid_eq_nil (some : 0 < budget) :
    paid cost budget nodes = [] ↔ ∀ node ∈ nodes.head?, budget < cost node := by
  cases nodes with
  | nil => simp [paid]
  | cons node nodes =>
      rw [paid]
      by_cases enough : cost node ≤ budget
      · simp [some, enough]
      · simp [enough, Nat.not_le.mp enough]

/-- Only the costs of the listed nodes matter. -/
theorem paid_congr (same : ∀ node ∈ nodes, other node = cost node) :
    paid other budget nodes = paid cost budget nodes := by
  induction nodes generalizing budget with
  | nil => rfl
  | cons node nodes ih =>
      rw [paid, paid, same node (by simp), ih fun later member => same later (by simp [member])]

end Paid

end OrderEngine.Library
