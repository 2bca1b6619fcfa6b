import OrderEngine.Ledger.Replace
import OrderEngine.Refinement.Runs

namespace OrderEngine

open Library

namespace OrderBook

/-- These resting orders cross a message, in the order in which the book matches them. -/
def crossing (book : OrderBook) (msg : OrderMessage) : List Ptr :=
  (msg.side.wing.opposite.ticks msg.price).flatMap (book.queue msg.side.wing.opposite)

/-- This is the quantity that remains on some orders. -/
def volume (book : OrderBook) (slots : List Ptr) : Nat :=
  (slots.map fun slot => (book.remaining slot).toNat).sum

end OrderBook

namespace Represents

variable {book : OrderBook} {ledger : Ledger} {pending : Option Ptr}

theorem crossing_eq (same : Represents book ledger) (inv : ledger.Inv pending) (msg : OrderMessage) :
    book.crossing msg = ledger.crossing msg.side.wing.opposite msg.price := by
  unfold OrderBook.crossing Ledger.crossing
  congr 1
  funext price
  exact same.queue_eq inv _ price

theorem volume_eq (same : Represents book ledger) (slots : List Ptr) :
    book.volume slots = ledger.volume slots := by
  unfold OrderBook.volume Ledger.volume
  congr 2
  funext slot
  rw [same.remaining_eq]
  rfl

/-- The pool is exhausted exactly when no slot is free. -/
theorem available_eq_zero (same : Represents book ledger) :
    book.orderPool.available = 0 ↔ ledger.free = [] := by
  rw [← same.free, MemoryPool.free, stack_eq_nil]
  rfl

end Represents

namespace Ledger

variable {ledger after : Ledger} {slot other : Ptr} {rest : List Ptr} {msg : OrderMessage}

section Enroll

variable (settled : ledger.Settled) (free : ledger.free = slot :: rest)

theorem enroll_left_self : (ledger.enroll slot rest msg).left slot = msg.quantity.toNat := by
  rw [left, enroll_data_self, OrderData.remaining]
  simp

theorem enroll_left_other (different : other ≠ slot) :
    (ledger.enroll slot rest msg).left other = ledger.left other := by
  rw [left, enroll_data_other _ _ _ different]
  rfl

theorem enroll_matchable : (ledger.enroll slot rest msg).matchable slot =
    ledger.crossing msg.side.wing.opposite msg.price := by
  rw [matchable, facing, wing, price, enroll_data_self]
  rfl

include settled free

/-- The new order is none of those that it can match. -/
theorem enroll_left_crossing : ∀ other ∈ ledger.crossing msg.side.wing.opposite msg.price,
    (ledger.enroll slot rest msg).left other = ledger.left other := by
  intro other member
  apply enroll_left_other
  intro equal
  subst equal
  exact settled.toInv.fresh (by simp [free]) (settled.toInv.mem_crossing.mp member).1

theorem enroll_volume : (ledger.enroll slot rest msg).volume
      (ledger.crossing msg.side.wing.opposite msg.price) =
    ledger.volume (ledger.crossing msg.side.wing.opposite msg.price) :=
  volume_congr (enroll_left_crossing settled free)

theorem enroll_completed : (ledger.enroll slot rest msg).completed slot =
    paid ledger.left msg.quantity.toNat (ledger.crossing msg.side.wing.opposite msg.price) := by
  rw [completed, enroll_left_self, enroll_matchable, paid_congr (enroll_left_crossing settled free)]

section Matched

variable (inside : InTicks msg.price) (positive : 0 < msg.quantity)
  (run : MatchRun slot (ledger.enroll slot rest msg) after) (stopped : ¬ after.Crosses slot)

include inside positive run stopped

/-- A new order is filled exactly when the orders that cross it have enough left. -/
theorem arrival_filled_iff : (after.data slot).status = .filled ↔
    msg.quantity.toNat ≤ ledger.volume (ledger.crossing msg.side.wing.opposite msg.price) := by
  have inv := settled.toInv.enroll free inside positive
  rw [run.filled_iff inv stopped, enroll_left_self, enroll_matchable, enroll_volume settled free]

theorem arrival_left : after.left slot =
    msg.quantity.toNat - ledger.volume (ledger.crossing msg.side.wing.opposite msg.price) := by
  have inv := settled.toInv.enroll free inside positive
  rw [run.excess inv stopped, enroll_left_self, enroll_matchable, enroll_volume settled free]

/-- A new order takes exactly the orders that its quantity pays for. -/
theorem arrival_linked_iff : after.Linked other ↔ ledger.Linked other ∧
    other ∉ paid ledger.left msg.quantity.toNat
      (ledger.crossing msg.side.wing.opposite msg.price) := by
  have inv := settled.toInv.enroll free inside positive
  rw [run.linked_iff inv stopped, settled.toInv.enroll_linked (by simp [free]), enroll_completed settled free]

end Matched

end Enroll

end Ledger

end OrderEngine
