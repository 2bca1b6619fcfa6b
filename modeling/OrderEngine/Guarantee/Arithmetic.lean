import OrderEngine.Refinement.Exact
import OrderEngine.Refinement.Runs

namespace OrderEngine

open Library

/-- A clean audit stays clean over every admissible run. -/
theorem Audit.clean_run (tradeCb : Bool) (clock : Nat → Nanos) {calls : List Call}
    (admissible : ∀ call ∈ calls, call.Admissible) :
    (({ book := OrderBook.empty tradeCb clock } : Audit).run calls).Clean := by
  induction calls using List.reverseRecOn with
  | nil =>
      refine ⟨by simp [run], by simp [run], fun slot => ?_⟩
      exact UInt64.le_refl _
  | append_singleton past call ih =>
      have earlier : ∀ other ∈ past, other.Admissible := fun other member => admissible other (by simp [member])
      obtain ⟨ledger, same, settled⟩ := settled_run tradeCb clock earlier
      rw [run_append]
      exact (ih earlier).call ((run_book _ past).symm ▸ same) settled (admissible call (by simp))

/-- The audit of an admissible run follows the book. Every operation on the quantities of an order is exact, and no
order of any book on the way is filled beyond its quantity. -/
theorem quantities_never_wrap (tradeCb : Bool) (clock : Nat → Nanos) (calls : List Call)
    (admissible : ∀ call ∈ calls, call.Admissible) :
    let start := OrderBook.empty tradeCb clock
    let audit := ({ book := start } : Audit).run calls
    audit.book = start.run calls ∧ (∀ operation ∈ audit.noted, operation.Exact) ∧
      ∀ book ∈ audit.book :: audit.passed, ∀ slot, (book.order slot).filledQuantity ≤ (book.order slot).quantity := by
  intro start audit
  have clean : audit.Clean := Audit.clean_run tradeCb clock admissible
  refine ⟨Audit.run_book _ calls, clean.exact, fun book member => ?_⟩
  rcases List.mem_cons.mp member with rfl | passed
  · exact clean.bounded
  · exact clean.passed book passed

/-- One fill notes four operations, and a smaller quantity notes three. -/
example : (({ book := OrderBook.empty true fun _ => 1 } : Audit).run
      [.add (.sell 1 65535 5), .add (.buy 2 65535 3), .modify 1 1]).noted =
    [.difference 5 0, .difference 3 0, .sum 0 3, .sum 0 3, .difference 5 3, .difference 2 1, .sum 3 1] := by
  decide +kernel

/-- The greatest quantity is filled in part, reduced, and filled in part again. -/
theorem quantities_never_wrap_greatest :
    let start := OrderBook.empty true fun _ => 1
    let audit := ({ book := start } : Audit).run [.add (.sell 1 65535 18446744073709551615),
      .add (.buy 2 65535 18446744073709551614), .modify 1 0, .add (.buy 3 65535 18446744073709551615)]
    audit.book = start.run [.add (.sell 1 65535 18446744073709551615),
      .add (.buy 2 65535 18446744073709551614), .modify 1 0, .add (.buy 3 65535 18446744073709551615)] ∧
      (∀ operation ∈ audit.noted, operation.Exact) ∧
      ∀ book ∈ audit.book :: audit.passed, ∀ slot, (book.order slot).filledQuantity ≤ (book.order slot).quantity :=
  quantities_never_wrap true (fun _ => 1) [.add (.sell 1 65535 18446744073709551615),
    .add (.buy 2 65535 18446744073709551614), .modify 1 0, .add (.buy 3 65535 18446744073709551615)] (by decide)

end OrderEngine
