import OrderEngine.Refinement.Runs

namespace OrderEngine

open Library

section Represented

variable {book : OrderBook} {ledger : Ledger}

/-- The pool refuses an add before the book changes. -/
theorem addOrder_refused {msg : OrderMessage} (refused : (book.addOrder msg).1 = none) :
    (book.addOrder msg).2 = book := by
  rcases served : book.orderPool.construct {} with ⟨_ | slot, pool⟩
  · rw [OrderBook.addOrder, served]
  · rw [OrderBook.addOrder, served] at refused
    exact absurd refused (Option.some_ne_none slot)

theorem cancelOrder_refused {id : OrderId} (refused : (book.cancelOrder id).1 = false) :
    (book.cancelOrder id).2 = book := by
  cases found : book.findLive id with
  | none => rw [OrderBook.cancelOrder, found]
  | some slot =>
      rw [OrderBook.cancelOrder, found] at refused
      exact absurd refused Bool.noConfusion

/-- The order that a modify cancels leaves a free slot for its replacement. -/
theorem Represents.modify_none_iff (same : Represents book ledger) (inv : ledger.Inv none) (id : OrderId)
    (newQty : Quantity) : (book.modifyOrder id newQty).1 = none ↔ book.findLive id = none := by
  rw [same.findLive_eq]
  rcases same.modify inv id newQty with
    ⟨missing, unchanged⟩ | ⟨slot, found, ⟨-, answer, -⟩ | ⟨-, after, run, -⟩⟩
  · rw [missing, unchanged]
  · rw [found, answer]
  · have placed := run.placed_eq
    rw [Ledger.ticked_free, Ledger.withdraw_free, List.head?_cons] at placed
    rw [found, placed]

theorem modifyOrder_missing {id : OrderId} (missing : book.findLive id = none) (newQty : Quantity) :
    (book.modifyOrder id newQty).2 = book := by
  rw [OrderBook.modifyOrder, missing]

end Represented

/-- A call that signals failure leaves the whole book as it was, and a modify fails only when it finds no
order to cancel. -/
theorem failures_atomic (tradeCb : Bool) (clock : Nat → Nanos) (calls : List Call)
    (admissible : ∀ call ∈ calls, call.Admissible) :
    let book := (OrderBook.empty tradeCb clock).run calls
    (∀ call, call.Admissible → (book.call call).1 = false → (book.call call).2 = book) ∧
      ∀ id newQty, (book.modifyOrder id newQty).1 = none ↔ book.findLive id = none := by
  obtain ⟨ledger, same, settled⟩ := settled_run tradeCb clock admissible
  intro book
  have modify := same.modify_none_iff settled.toInv
  refine ⟨fun call _ refused => ?_, modify⟩
  cases call with
  | add msg => exact addOrder_refused (Option.not_isSome_iff_eq_none.mp (by simpa [OrderBook.call] using refused))
  | cancel id => exact cancelOrder_refused refused
  | modify id newQty =>
      have none := Option.not_isSome_iff_eq_none.mp (by simpa [OrderBook.call] using refused)
      exact modifyOrder_missing ((modify id newQty).mp none) newQty

/-- Two identifiers share an entry of the map, so the first order can no longer be found. -/
theorem failures_atomic_of_collision :
    let book := (OrderBook.empty true fun _ => 1).run [.add (.sell 1 65535 5), .add (.sell 1048577 65535 6)]
    (∀ call, call.Admissible → (book.call call).1 = false → (book.call call).2 = book) ∧
      ∀ id newQty, (book.modifyOrder id newQty).1 = none ↔ book.findLive id = none :=
  failures_atomic true (fun _ => 1) _ (by decide)

end OrderEngine
