import OrderEngine.Refinement.Runs

namespace OrderEngine

open Library

/-- The map, the queues and the free stack agree on who owns each slot, and no slot is released twice. -/
structure OrderBook.SlotsOwned (book : OrderBook) : Prop where
  mapped : ∀ index slot, book.orderMap index = some slot →
    IsSlot slot ∧ slot ∉ book.orderPool.free ∧ (book.order slot).id.toNat % kMaxOrders = index
  linked : ∀ slot, book.Linked slot → IsSlot slot ∧ slot ∉ book.orderPool.free
  distinct : book.orderPool.free.Nodup
  released : ∀ slot free, (slot, free) ∈ book.released → slot ∉ free

theorem Represents.slotsOwned {book : OrderBook} {ledger : Ledger} (same : Represents book ledger)
    (inv : ledger.Inv none) : book.SlotsOwned where
  mapped := by
    intro index slot here
    rw [same.core] at here
    obtain ⟨used, place⟩ := inv.mapped here
    rw [same.free, same.id_eq]
    exact ⟨used.1, used.2, place⟩
  linked := by
    intro slot linked
    rw [same.free]
    exact inv.used ((same.linked_iff inv slot).mp linked)
  distinct := by
    rw [same.free]
    exact inv.freeNodup
  released := by
    intro slot free member
    rw [same.core] at member
    exact inv.released (slot, free) member

/-- Slot ownership is sound after every run, whatever the identifiers are. -/
theorem slots_owned (tradeCb : Bool) (clock : Nat → Nanos) (calls : List Call)
    (admissible : ∀ call ∈ calls, call.Admissible) :
    ((OrderBook.empty tradeCb clock).run calls).SlotsOwned := by
  obtain ⟨ledger, same, settled⟩ := settled_run tradeCb clock admissible
  exact same.slotsOwned settled.toInv

theorem slots_owned_with_colliding_ids : ((OrderBook.empty true fun _ => 1).run
    [.add (.buy 1 9 5), .add (.buy 1048577 9 5), .cancel 1048577, .cancel 1, .add (.sell 1 9 5)]).SlotsOwned :=
  slots_owned true (fun _ => 1) _ (by decide)

end OrderEngine
