import Mathlib.Tactic

namespace OrderEngine.Library

variable {Node : Type}

/-- A budget is spent on the nodes in order, and each node takes at most its own amount. -/
def spend (amount : Node → Nat) : Nat → List Node → List (Node × Nat)
  | _, [] => []
  | budget, node :: nodes =>
      if budget = 0 then [] else (node, min (amount node) budget) :: spend amount (budget - amount node) nodes

/-- A plan costs this much when a unit at a node has the cost of the node. -/
def totalCost (cost : Node → Int) (plan : List (Node × Nat)) : Int :=
  (plan.map fun part => cost part.1 * (part.2 : Int)).sum

section Spend

variable {amount other : Node → Nat} {cost : Node → Int} {budget : Nat} {node : Node} {nodes : List Node}

@[simp] theorem spend_zero : spend amount 0 nodes = [] := by
  cases nodes with
  | nil => rfl
  | cons node nodes => exact if_pos rfl

theorem spend_cons (some : 0 < budget) : spend amount budget (node :: nodes) =
    (node, min (amount node) budget) :: spend amount (budget - amount node) nodes :=
  if_neg (Nat.ne_of_gt some)

/-- Only the amounts of the listed nodes matter. -/
theorem spend_congr (same : ∀ node ∈ nodes, other node = amount node) :
    spend other budget nodes = spend amount budget nodes := by
  induction nodes generalizing budget with
  | nil => rfl
  | cons node nodes ih =>
      rw [spend, spend, same node List.mem_cons_self,
        ih fun later member => same later (List.mem_cons_of_mem _ member)]

/-- The nodes that take a part are the first ones. -/
theorem spend_nodes : (spend amount budget nodes).map Prod.fst <+: nodes := by
  induction nodes generalizing budget with
  | nil => exact List.prefix_rfl
  | cons node nodes ih =>
      rw [spend]
      split
      · exact List.nil_prefix
      · exact List.cons_prefix_cons.mpr ⟨rfl, ih⟩

/-- The budget is spent unless the nodes take no more. -/
theorem spend_sum : ((spend amount budget nodes).map Prod.snd).sum = min budget (nodes.map amount).sum := by
  induction nodes generalizing budget with
  | nil => exact (Nat.min_zero budget).symm
  | cons node nodes ih =>
      rw [spend]
      split
      · next spent =>
          subst spent
          exact (Nat.zero_min _).symm
      · rw [List.map_cons, List.sum_cons, List.map_cons, List.sum_cons, ih]
        dsimp only
        omega

/-- When no node is cheaper than the floor, no plan is. -/
theorem floor_le (floor : Int) (low : ∀ node ∈ nodes, floor ≤ cost node) :
    floor * ((nodes.map other).sum : Int) ≤ (nodes.map fun node => cost node * (other node : Int)).sum := by
  induction nodes with
  | nil => simp
  | cons node nodes ih =>
      have rest := ih fun later member => low later (List.mem_cons_of_mem _ member)
      have first : floor * (other node : Int) ≤ cost node * other node :=
        mul_le_mul_of_nonneg_right (low node List.mem_cons_self) (Int.natCast_nonneg _)
      simp only [List.map_cons, List.sum_cons, Nat.cast_add, mul_add]
      exact add_le_add first rest

/-- Another plan that takes more by some extra costs at least the floor for each extra unit. -/
theorem spend_cost_le (sorted : nodes.Pairwise fun first second => cost first ≤ cost second)
    (fits : ∀ node ∈ nodes, other node ≤ amount node) (floor : Int) (low : ∀ node ∈ nodes, floor ≤ cost node)
    {extra : Nat} (more : (nodes.map other).sum = ((spend amount budget nodes).map Prod.snd).sum + extra) :
    totalCost cost (spend amount budget nodes) + floor * (extra : Int) ≤
      (nodes.map fun node => cost node * (other node : Int)).sum := by
  induction nodes generalizing budget floor extra with
  | nil =>
      obtain rfl : extra = 0 := by simpa [spend] using more.symm
      simp [spend, totalCost]
  | cons node nodes ih =>
      rw [List.pairwise_cons] at sorted
      have here := low node List.mem_cons_self
      have own := fits node List.mem_cons_self
      have later : ∀ node ∈ nodes, other node ≤ amount node := fun later member =>
        fits later (List.mem_cons_of_mem _ member)
      rcases Nat.eq_zero_or_pos budget with rfl | some
      · rw [spend_zero, List.map_nil, List.sum_nil, Nat.zero_add] at more
        rw [spend_zero, ← more]
        exact (zero_add _).trans_le (floor_le floor low)
      · rw [spend_cons some] at more ⊢
        rw [List.map_cons, List.sum_cons, List.map_cons, List.sum_cons] at more
        simp only [totalCost, List.map_cons, List.sum_cons]
        have extras : floor * (extra : Int) ≤ cost node * extra :=
          mul_le_mul_of_nonneg_right here (Int.natCast_nonneg _)
        by_cases less : other node ≤ min (amount node) budget
        · -- What the other plan does not take here it takes later, at no lower cost.
          have moved := @ih (budget - amount node) sorted.2 later (cost node) sorted.1
            (min (amount node) budget - other node + extra) (by omega)
          rw [Nat.cast_add, Nat.cast_sub less, mul_add, mul_sub] at moved
          unfold totalCost at moved
          linarith
        · -- The budget ends here, so the other plan takes more from here on.
          have spent : budget - amount node = 0 := by omega
          rw [spent, spend_zero] at more ⊢
          have rest := @floor_le _ other cost nodes (cost node) sorted.1
          have units : (extra : Int) = other node - min (amount node) budget + (nodes.map other).sum := by
            simp only [List.map_nil, List.sum_nil] at more
            omega
          have parts : cost node * (extra : Int) = cost node * other node -
              cost node * (min (amount node) budget : Nat) + cost node * (nodes.map other).sum := by
            rw [units, mul_add, mul_sub]
          simp only [List.map_nil, List.sum_nil]
          linarith

/-- No plan that takes as much costs less than the one that takes the cheapest nodes first. -/
theorem spend_cheapest (sorted : nodes.Pairwise fun first second => cost first ≤ cost second)
    (fits : ∀ node ∈ nodes, other node ≤ amount node)
    (equal : (nodes.map other).sum = ((spend amount budget nodes).map Prod.snd).sum) :
    totalCost cost (spend amount budget nodes) ≤ (nodes.map fun node => cost node * (other node : Int)).sum := by
  cases nodes with
  | nil => exact le_of_eq rfl
  | cons first nodes =>
      have low : ∀ node ∈ first :: nodes, cost first ≤ cost node := by
        intro node member
        rcases List.mem_cons.mp member with rfl | later
        · exact le_rfl
        · exact (List.pairwise_cons.mp sorted).1 node later
      have bound := spend_cost_le sorted fits (cost first) low (equal.trans (Nat.add_zero _).symm)
      rw [Nat.cast_zero, mul_zero, add_zero] at bound
      exact bound

end Spend

end OrderEngine.Library
