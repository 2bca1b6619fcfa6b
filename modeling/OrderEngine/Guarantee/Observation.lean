import OrderEngine.Refinement.Blind

namespace OrderEngine

namespace OrderBook.Alike

variable {watched : Bool} {book other : OrderBook}

/-- Two runs of the same calls, whenever they were stamped, answer alike and leave the books alike. -/
theorem run {calls stamped : List Call} (alike : Alike watched book other)
    (same : calls.map Call.untimed = stamped.map Call.untimed) :
    book.answers calls = other.answers stamped ∧ Alike watched (book.run calls) (other.run stamped) := by
  induction calls generalizing book other stamped with
  | nil =>
      obtain rfl := List.map_eq_nil_iff.mp same.symm
      exact ⟨rfl, alike⟩
  | cons call calls ih =>
      cases stamped with
      | nil => exact absurd same (List.cons_ne_nil _ _)
      | cons first stamped =>
          rw [List.map_cons, List.map_cons, List.cons.injEq] at same
          obtain ⟨-, answer, after⟩ := alike.call same.1
          obtain ⟨answers, alikeAfter⟩ := ih after same.2
          exact ⟨congrArg₂ List.cons answer answers, alikeAfter⟩

theorem level_eq (alike : Alike watched book other) (wing : Wing) : book.level wing = other.level wing := by
  rw [← book.blind_level watched, alike, blind_level]

theorem free_eq (alike : Alike watched book other) : book.orderPool.free = other.orderPool.free := by
  have pool := congrArg (fun book : OrderBook => book.orderPool.free) alike
  exact pool

end OrderBook.Alike

open OrderBook

/-- The clock and the callback only observe: replaying the calls of a run at any other times, with or without a
callback, gives the same answers and the same market. Two callbacks are told the same trades. -/
theorem replay_rebuilds_book (tradeCb otherCb : Bool) (clock otherClock : Nat → Nanos) {calls stamped : List Call}
    (same : calls.map Call.untimed = stamped.map Call.untimed) :
    let book := (OrderBook.empty tradeCb clock).run calls
    let other := (OrderBook.empty otherCb otherClock).run stamped
    (OrderBook.empty tradeCb clock).answers calls = (OrderBook.empty otherCb otherClock).answers stamped ∧
      (∀ wing, book.level wing = other.level wing) ∧
      (∀ slot, (book.order slot).untimed = (other.order slot).untimed) ∧
      book.orderPool.free = other.orderPool.free ∧ book.orderMap = other.orderMap ∧
      book.bestBid = other.bestBid ∧ book.bestAsk = other.bestAsk ∧ book.matchCount = other.matchCount ∧
      book.tradeVolume = other.tradeVolume ∧ book.fills = other.fills ∧ book.released = other.released ∧
      book.faults = other.faults ∧
      (tradeCb = otherCb → book.reports.map TradeReport.untimed = other.reports.map TradeReport.untimed) := by
  intro book other
  have unwatched : Alike false (OrderBook.empty tradeCb clock) (OrderBook.empty otherCb otherClock) := rfl
  obtain ⟨answers, alike⟩ := unwatched.run same
  have core : book.toBookCore.blind false = other.toBookCore.blind false := congrArg OrderBook.toBookCore alike
  obtain ⟨map, bid, ask, -, count, volume, -, -, fills, -, released, faults⟩ := BookCore.mk.inj core
  refine ⟨answers, alike.level_eq, alike.order, alike.free_eq, map, bid, ask, count, volume, fills, released, faults,
    ?_⟩
  rintro rfl
  have watched : Alike true (OrderBook.empty tradeCb clock) (OrderBook.empty tradeCb otherClock) := by
    cases tradeCb <;> rfl
  exact congrArg BookCore.reports (congrArg OrderBook.toBookCore (watched.run same).2)

/-- The same two orders are added at other times, to a book with another clock and without a callback. -/
theorem replay_rebuilds_two_orders :
    let calls := [Call.add { OrderMessage.sell 1 65535 5 with arrivalCycles := 3 }, .add (.buy 2 65535 2)]
    let stamped := [Call.add (.sell 1 65535 5), .add { OrderMessage.buy 2 65535 2 with arrivalCycles := 9 }]
    ((OrderBook.empty true fun reading => UInt64.ofNat reading).run calls).tradeVolume =
      ((OrderBook.empty false fun _ => 7).run stamped).tradeVolume := by
  intro calls stamped
  have same : calls.map Call.untimed = stamped.map Call.untimed := by decide
  obtain ⟨-, -, -, -, -, -, -, -, volume, -⟩ :=
    replay_rebuilds_book true false (fun reading => UInt64.ofNat reading) (fun _ => 7) same
  exact volume

end OrderEngine
