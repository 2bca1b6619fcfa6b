import OrderEngine.Ledger.Withdrawals
import OrderEngine.Refinement.Runs

namespace OrderEngine

open Library

/-- None of the identifiers finds the order. -/
def OrderBook.Spares (book : OrderBook) (ids : List OrderId) (slot : Ptr) : Prop :=
  ∀ id ∈ ids, book.findLive id ≠ some slot

instance (book : OrderBook) (ids : List OrderId) : DecidablePred (book.Spares ids) :=
  fun slot => List.decidableBAll (fun id => book.findLive id ≠ some slot) ids

/-- Two books agree on their levels, their best prices and the map, and their pools have the same free slots. -/
structure OrderBook.Agrees (first second : OrderBook) : Prop where
  queue : ∀ wing price, first.queue wing price = second.queue wing price
  orderCount : ∀ wing price, (first.level wing price).orderCount = (second.level wing price).orderCount
  totalQuantity : ∀ wing price, (first.level wing price).totalQuantity = (second.level wing price).totalQuantity
  bestBid : first.bestBid = second.bestBid
  bestAsk : first.bestAsk = second.bestAsk
  orderMap : first.orderMap = second.orderMap
  free : first.orderPool.free.Perm second.orderPool.free

section Represented

variable {book : OrderBook} {ledger : Ledger} {ids others : List OrderId}

/-- The orders that a list of identifiers finds are all linked. -/
theorem Ledger.Settled.linked_of_found (settled : ledger.Settled) :
    ∀ slot ∈ ids.filterMap ledger.findLive, ledger.Linked slot := by
  intro slot member
  obtain ⟨id, -, found⟩ := List.mem_filterMap.mp member
  exact (settled.toInv.found_linked found).1

/-- Distinct identifiers find distinct orders. -/
theorem Ledger.Settled.found_nodup (settled : ledger.Settled) (distinct : ids.Nodup) :
    (ids.filterMap ledger.findLive).Nodup := by
  apply distinct.filterMap
  intro id other slot found foundOther
  exact (settled.toInv.found_linked found).2.symm.trans (settled.toInv.found_linked foundOther).2

theorem Represents.accepted_iff (same : Represents book ledger) (inv : ledger.Inv none) (id : OrderId) :
    (book.cancelOrder id).1 = true ↔ (ledger.findLive id).isSome = true := by
  cases found : ledger.findLive id with
  | none =>
      rw [OrderBook.cancelOrder, same.findLive_eq, found]
      simp
  | some slot =>
      obtain ⟨linked, named⟩ := inv.found_linked found
      rw [(same.cancel inv found linked named).1]
      simp

/-- A run of cancels succeeds throughout and cancels the orders that the identifiers find at the start. -/
theorem Represents.cancelAll (same : Represents book ledger) (inv : ledger.Inv none) (distinct : ids.Nodup)
    (live : ∀ id ∈ ids, (ledger.findLive id).isSome = true) :
    book.answers (ids.map .cancel) = List.replicate ids.length true ∧
      Represents (book.run (ids.map .cancel)) (ledger.withdrawAll (ids.filterMap ledger.findLive)) := by
  induction ids generalizing book ledger with
  | nil => exact ⟨rfl, same⟩
  | cons id ids ih =>
      obtain ⟨fresh, distinct⟩ := List.nodup_cons.mp distinct
      obtain ⟨slot, found⟩ := Option.isSome_iff_exists.mp (live id List.mem_cons_self)
      obtain ⟨linked, named⟩ := inv.found_linked found
      obtain ⟨answer, cancelled⟩ := same.cancel inv found linked named
      have kept : ∀ other ∈ ids, (ledger.withdraw slot).findLive other = ledger.findLive other := by
        intro other member
        obtain ⟨slot', foundOther⟩ := Option.isSome_iff_exists.mp (live other (List.mem_cons_of_mem _ member))
        have different : other ≠ id := by
          rintro rfl
          exact fresh member
        rw [foundOther, Ledger.withdraw_findLive found foundOther different]
      have rest : ∀ other ∈ ids, ((ledger.withdraw slot).findLive other).isSome = true := by
        intro other member
        rw [kept other member]
        exact live other (List.mem_cons_of_mem _ member)
      obtain ⟨answers, represents⟩ := ih cancelled (inv.withdraw linked) distinct rest
      rw [List.filterMap_congr kept] at represents
      rw [List.filterMap_cons_some found]
      refine ⟨?_, represents⟩
      rw [List.map_cons, OrderBook.answers, OrderBook.call, answer, answers]
      rfl

end Represented

/-- Cancels of distinct live orders succeed in every order of the cancels, and they all lead to the same book. -/
theorem cancels_commute (tradeCb : Bool) (clock : Nat → Nanos) (calls : List Call)
    (admissible : ∀ call ∈ calls, call.Admissible) (ids others : List OrderId) (distinct : ids.Nodup)
    (reordered : ids.Perm others)
    (accepted : ∀ id ∈ ids, (((OrderBook.empty tradeCb clock).run calls).cancelOrder id).1 = true) :
    let book := (OrderBook.empty tradeCb clock).run calls
    let first := book.run (ids.map .cancel)
    let second := book.run (others.map .cancel)
    book.answers (ids.map .cancel) = List.replicate ids.length true ∧
      book.answers (others.map .cancel) = List.replicate others.length true ∧
      (∀ wing price, first.queue wing price = (book.queue wing price).filter (book.Spares ids)) ∧
      first.Agrees second := by
  obtain ⟨ledger, same, settled⟩ := settled_run tradeCb clock admissible
  intro book first second
  have inv := settled.toInv
  have live : ∀ id ∈ ids, (ledger.findLive id).isSome = true := fun id member =>
    (same.accepted_iff inv id).mp (accepted id member)
  have distinctOthers := reordered.nodup_iff.mp distinct
  obtain ⟨answers, represents⟩ := same.cancelAll inv distinct live
  obtain ⟨answersOther, representsOther⟩ := same.cancelAll inv distinctOthers fun id member =>
    live id (reordered.mem_iff.mpr member)
  obtain ⟨settledFirst, cleared⟩ := settled.withdrawAll (settled.found_nodup distinct) settled.linked_of_found
  obtain ⟨settledSecond, clearedOther⟩ :=
    settled.withdrawAll (settled.found_nodup distinctOthers) settled.linked_of_found
  have perm := reordered.filterMap ledger.findLive
  have queue := cleared.queue_eq perm clearedOther
  have best (wing : Wing) : first.best wing = second.best wing := by
    rw [represents.best_eq, representsOther.best_eq]
    apply settledFirst.best_unique settledSecond
    intro price
    rw [queue]
  refine ⟨answers, answersOther, ?_, ?_⟩
  · intro wing price
    rw [represents.queue_eq settledFirst.toInv, same.queue_eq inv, cleared.queue]
    apply List.filter_congr
    intro slot _
    simp only [book, OrderBook.Spares, same.findLive_eq, List.mem_filterMap, not_exists, not_and, ne_eq]
  · constructor
    · intro wing price
      rw [represents.queue_eq settledFirst.toInv, representsOther.queue_eq settledSecond.toInv, queue]
    · intro wing price
      rw [represents.count, representsOther.count, queue]
    · intro wing price
      rw [represents.total, representsOther.total, cleared.total_eq perm clearedOther]
    · exact best .bid
    · exact best .ask
    · rw [represents.core, representsOther.core]
      exact cleared.orderMap_eq perm clearedOther
    · rw [represents.free, representsOther.free]
      exact cleared.free_perm perm clearedOther

/-- The head of a level and the only order of the best level leave, and one order stays. -/
theorem cancels_commute_two :
    let book := (OrderBook.empty true fun _ => 1).run
      [.add (.sell 1 65535 5), .add (.sell 2 65535 6), .add (.sell 3 65534 7)]
    let first := book.run ([1, 3].map .cancel)
    let second := book.run ([3, 1].map .cancel)
    book.answers ([1, 3].map .cancel) = List.replicate 2 true ∧
      book.answers ([3, 1].map .cancel) = List.replicate 2 true ∧
      (∀ wing price, first.queue wing price = (book.queue wing price).filter (book.Spares [1, 3])) ∧
      first.Agrees second := by
  intro book
  have head : (book.cancelOrder 1).1 = true := by decide +kernel
  have only : (book.cancelOrder 3).1 = true := by decide +kernel
  refine cancels_commute true (fun _ => 1) [.add (.sell 1 65535 5), .add (.sell 2 65535 6), .add (.sell 3 65534 7)]
    (by decide) [1, 3] [3, 1] (by decide) (by decide) ?_
  intro id member
  rcases List.mem_pair.mp member with rfl | rfl
  · exact head
  · exact only

end OrderEngine
