import OrderEngine.Ledger.Timeline
import OrderEngine.Refinement.Arrival

namespace OrderEngine

open Library

/-- A sound run keeps the timeline while its clock moves forward. -/
theorem timed_run (tradeCb : Bool) {clock : Nat → Nanos} (forward : Forward clock) {calls : List Call}
    (sound : ∀ call ∈ calls, call.Sound) : ∃ ledger, Represents ((OrderBook.empty tradeCb clock).run calls) ledger ∧
      ledger.Inv none ∧ ledger.Timed clock none := by
  induction calls using List.reverseRecOn with
  | nil =>
      refine ⟨_, .empty tradeCb clock, Ledger.empty_settled.toInv, ?_⟩
      exact {
        running := rfl
        forward := forward
        sorted := fun _ _ => List.Pairwise.nil
        entered := fun member => absurd member List.not_mem_nil
        arrived := fun here => absurd here.symm (Option.some_ne_none _)
        chronicle := List.Pairwise.nil
        matched := fun _ member => absurd member List.not_mem_nil }
  | append_singleton past call ih =>
      obtain ⟨ledger, same, inv, timed⟩ := ih fun other member => sound other (by simp [member])
      obtain ⟨after, run, represents, invAfter⟩ := same.call inv (sound call (by simp))
      rw [OrderBook.run_append]
      exact ⟨after, represents, invAfter, run.timed inv timed⟩

/-- The orders that a message crosses stand by price, and by entry at one price. -/
theorem Ledger.Timed.crossing {ledger : Ledger} {clock : Nat → Nanos} {pending : Option Ptr}
    (timed : ledger.Timed clock pending) (inv : ledger.Inv pending) (wing : Wing) (limit : Int) :
    (ledger.crossing wing limit).Pairwise fun first second =>
      wing.rank (ledger.price first) < wing.rank (ledger.price second) ∨
        ledger.price first = ledger.price second ∧ ledger.entryNanos first ≤ ledger.entryNanos second := by
  unfold Ledger.crossing
  rw [List.pairwise_flatMap]
  constructor
  · intro price _
    refine List.Pairwise.imp_of_mem ?_ (timed.sorted wing price)
    intro first second here there less
    exact .inr ⟨(inv.placed here).2.trans (inv.placed there).2.symm, less⟩
  · refine (wing.ticks_sorted limit).imp fun {price worse} less first here second there => ?_
    rw [(inv.placed here).2, (inv.placed there).2]
    exact .inl less

/-- On a clock that never goes back, price and time of entry order the book: each level stands in the order of
entry, a message meets the orders that it crosses by price and then by entry, the reports stand in the order of their
matches, and no latency wraps. -/
theorem time_priority_by_clock (tradeCb : Bool) (clock : Nat → Nanos) (forward : Forward clock) (calls : List Call)
    (sound : ∀ call ∈ calls, call.Sound) :
    let book := (OrderBook.empty tradeCb clock).run calls
    (∀ wing price, (book.queue wing price).Pairwise fun first second =>
        (book.order first).entryNanos ≤ (book.order second).entryNanos) ∧
      (∀ msg : OrderMessage, (book.crossing msg).Pairwise fun first second =>
        msg.side.wing.opposite.rank (book.order first).price < msg.side.wing.opposite.rank (book.order second).price ∨
          (book.order first).price = (book.order second).price ∧
            (book.order first).entryNanos ≤ (book.order second).entryNanos) ∧
      (book.reports.Pairwise fun first second => first.matchNanos ≤ second.matchNanos) ∧
      ∀ report ∈ book.reports, report.Measured clock := by
  intro book
  obtain ⟨ledger, same, inv, timed⟩ := timed_run tradeCb forward sound
  have entry (slot : Ptr) : (book.order slot).entryNanos = ledger.entryNanos slot :=
    congrArg OrderData.entryNanos (same.data slot)
  have price (slot : Ptr) : (book.order slot).price = ledger.price slot := same.price_eq slot
  have reports : book.reports = ledger.reports := congrArg BookCore.reports same.core
  simp only [entry, price, reports]
  refine ⟨fun wing price => ?_, fun msg => ?_, timed.chronicle, fun report member => (timed.matched report member).2⟩
  · rw [show book.queue wing price = ledger.queue wing price from same.queue_eq inv wing price]
    exact timed.sorted wing price
  · rw [show book.crossing msg = ledger.crossing _ _ from same.crossing_eq inv msg]
    exact timed.crossing inv _ _

/-- The clock counts its readings, and the second sell waits behind the first one. -/
theorem time_priority_of_three_orders :
    let clock := fun reading => UInt64.ofNat (min reading 9)
    let calls := [Call.add (.sell 1 65535 5), .add (.sell 2 65535 5), .add (.buy 3 65535 7)]
    ((OrderBook.empty true clock).run calls).reports.map TradeReport.latencyCycles = [1, 2] ∧
      (((OrderBook.empty true clock).run calls).reports.Pairwise fun first second =>
        first.matchNanos ≤ second.matchNanos) := by
  intro clock calls
  have forward : Forward clock := by
    intro first second less
    rw [UInt64.le_iff_toNat_le]
    have inside (reading : Nat) : (clock reading).toNat = min reading 9 := by
      show (UInt64.ofNat (min reading 9)).toNat = _
      rw [UInt64.toNat_ofNat']
      omega
    rw [inside, inside]
    omega
  exact ⟨by decide +kernel, (time_priority_by_clock true clock forward calls (by decide)).2.2.1⟩

end OrderEngine
