import OrderEngine.Guarantee.Portions
import OrderEngine.Ledger.Undo
import OrderEngine.Reference.Exchange

namespace OrderEngine

open Library

/-- The maker opens a new best level without crossing the other wing, and the taker wants exactly the maker. -/
structure OrderBook.MadeFor (book : OrderBook) (maker taker : OrderMessage) : Prop where
  passive : book.best maker.side.wing.opposite = kInvalidPrice ∨
    maker.side.wing.opposite.rank maker.price < maker.side.wing.opposite.rank (book.best maker.side.wing.opposite)
  leads : book.best maker.side.wing = kInvalidPrice ∨
    maker.side.wing.rank maker.price < maker.side.wing.rank (book.best maker.side.wing)
  facing : taker.side.wing.opposite = maker.side.wing
  crosses : maker.side.wing.rank maker.price ≤ maker.side.wing.rank taker.price
  equal : taker.quantity = maker.quantity

/-- The taker takes all of the maker at the maker's price. -/
def takenTrade (maker taker : OrderMessage) : Trade :=
  Reference.tradeWith taker.orderId maker.side.wing (maker.price, maker.orderId, maker.quantity.toNat)

/-- The reference forgets a maker and its taker but for their trade. -/
theorem Reference.make_take {book : Reference} {maker taker : OrderMessage} (positive : 0 < maker.quantity)
    (inside : InTicks maker.price) (facing : taker.side.wing.opposite = maker.side.wing)
    (equal : taker.quantity = maker.quantity)
    (crosses : maker.side.wing.rank maker.price ≤ maker.side.wing.rank taker.price)
    (passive : ∀ price ∈ maker.side.wing.opposite.ticks maker.price, book.queue maker.side.wing.opposite price = [])
    (leads : ∀ price ∈ maker.side.wing.ticks maker.price, book.queue maker.side.wing price = []) :
    ((book.add maker).taking taker).wanted = 0 ∧
      (book.add maker).add taker = ⟨book.queue, book.trades ++ [takenTrade maker taker]⟩ := by
  have wanted : maker.quantity.toNat ≠ 0 := Nat.ne_of_gt (UInt64.lt_iff_toNat_lt.mp positive)
  have front := @Wing.front_rank_le maker.side.wing maker.price inside
  have own : book.queue maker.side.wing maker.price = [] :=
    leads _ (Wing.mem_ticks.mpr ⟨front, le_refl _⟩)
  obtain ⟨before, after, parts⟩ := List.append_of_mem (Wing.mem_ticks.mpr ⟨front, crosses⟩)
  have sorted := maker.side.wing.ticks_sorted taker.price
  rw [parts, List.pairwise_append] at sorted
  have better (price : Int) (member : price ∈ before) : maker.side.wing.rank price < maker.side.wing.rank maker.price :=
    sorted.2.2 price member _ List.mem_cons_self
  have apart : maker.price ∉ before := fun member => lt_irrefl _ (better _ member)
  let made := setCell book.queue maker.side.wing maker.price [(maker.orderId, maker.quantity.toNat)]
  have rested : book.add maker = ⟨made, book.trades⟩ := by
    rw [add_of_uncrossed positive passive, append, setQueue, own]
    rfl
  have empty (price : Int) (member : price ∈ before) : made maker.side.wing price = [] := by
    have different : price ≠ maker.price := fun same => apart (same ▸ member)
    have near : price ∈ maker.side.wing.ticks taker.price := by
      rw [parts]
      exact List.mem_append_left _ member
    rw [show made maker.side.wing price = _ from setCell_of_ne _ _ fun both => different both.2]
    exact leads price (Wing.mem_ticks.mpr ⟨(Wing.mem_ticks.mp near).1, le_of_lt (better price member)⟩)
  have head : made maker.side.wing maker.price = [(maker.orderId, maker.quantity.toNat)] := setCell_self ..
  have taken := @sweep_head _ _ _ (made maker.side.wing) maker.price before after _ _ _ _ wanted empty apart head
  rw [tradeHead, if_pos (le_refl _), Nat.sub_self, sweep_zero] at taken
  have back : Function.update (made maker.side.wing) maker.price [] = book.queue maker.side.wing := by
    funext price
    by_cases here : price = maker.price
    · rw [here, Function.update_self, own]
    · rw [Function.update_of_ne here]
      exact setCell_of_ne _ _ fun both => here both.2
  rw [back] at taken
  have taking : (Reference.mk made book.trades).taking taker =
      ⟨[(maker.price, maker.orderId, min maker.quantity.toNat maker.quantity.toNat)],
        book.queue maker.side.wing, 0⟩ := by
    rw [Reference.taking, facing, equal, parts]
    exact taken
  have kept : Function.update made maker.side.wing (book.queue maker.side.wing) = book.queue := by
    funext wing price
    by_cases here : wing = maker.side.wing
    · rw [here, Function.update_self]
    · rw [Function.update_of_ne here]
      exact setCell_of_ne _ _ fun both => here both.1
  rw [rested, add_eq, taking, if_pos rfl, drained, taking, facing, Nat.min_self, kept]
  exact ⟨rfl, rfl⟩

namespace Ledger

variable {ledger between after : Ledger} {maker taker : OrderMessage} {first second : Option Ptr}

/-- No order stands in front of a price that is better than the best one. -/
theorem Settled.nothing_near (settled : ledger.Settled) {wing : Wing} {price : Int}
    (ahead : ledger.best wing = kInvalidPrice ∨ wing.rank price < wing.rank (ledger.best wing)) :
    ∀ tick ∈ wing.ticks price, ledger.view wing tick = [] := by
  intro tick member
  have near := (Wing.mem_ticks.mp member).2
  rw [view, List.map_eq_nil_iff]
  by_contra occupied
  obtain ⟨valid, bound⟩ := settled.bestBound occupied
  rcases ahead with missing | less
  · exact valid missing
  · omega

/-- A maker and its taker leave the queues as they were. One slot is lost. -/
theorem Settled.make_take (settled : ledger.Settled) (callback : ledger.tradeCb = true)
    (sound : (Call.add maker).Admissible) (takerSound : (Call.add taker).Admissible)
    (passive : ledger.best maker.side.wing.opposite = kInvalidPrice ∨
      maker.side.wing.opposite.rank maker.price <
        maker.side.wing.opposite.rank (ledger.best maker.side.wing.opposite))
    (leads : ledger.best maker.side.wing = kInvalidPrice ∨
      maker.side.wing.rank maker.price < maker.side.wing.rank (ledger.best maker.side.wing))
    (facing : taker.side.wing.opposite = maker.side.wing)
    (crosses : maker.side.wing.rank maker.price ≤ maker.side.wing.rank taker.price)
    (equal : taker.quantity = maker.quantity) (room : 2 ≤ ledger.free.length)
    (run : ledger.AddRun maker first between) (takerRun : between.AddRun taker second after) :
    after.Settled ∧ after.tradeCb = true ∧ after.view = ledger.view ∧
      after.free.length + 1 = ledger.free.length ∧
      after.reports.map TradeReport.trade = ledger.reports.map TradeReport.trade ++ [takenTrade maker taker] := by
  have tracks := tracks_self callback
  have settledBetween := settled.add sound.1 sound.2.1 sound.2.2 run
  have served : ledger.free ≠ [] := by
    intro none_
    rw [none_] at room
    exact absurd room (by decide)
  have middle := tracks.add settled sound.2.1 sound.2.2 served run
  have nothing := settled.nothing_near passive
  obtain ⟨counts, kept⟩ : between.free.length + 1 = ledger.free.length ∧ between.leaked first = 0 := by
    cases free : ledger.free with
    | nil => exact absurd free served
    | cons own rest =>
        have stops := @Passive.stops ledger own rest maker passive
        obtain ⟨rfl, rfl⟩ := settled.rests_at_once free stops run
        rw [rest_free, enroll_free, leaked, rest_data, enroll_data_self]
        exact ⟨rfl, rfl⟩
  have servedTaker : between.free ≠ [] := by
    intro none_
    rw [none_] at counts
    change 0 + 1 = _ at counts
    omega
  have final := middle.add settledBetween takerSound.2.1 takerSound.2.2 servedTaker takerRun
  obtain ⟨met, forgotten⟩ := @Reference.make_take ⟨ledger.view, ledger.reports.map TradeReport.trade⟩ maker taker
    sound.2.2 sound.2.1 facing equal crosses nothing (settled.nothing_near leads)
  rw [forgotten] at final
  have whole := run.occupancy settled.toInv sound.2.1 sound.2.2
  have wholeTaker := takerRun.occupancy settledBetween.toInv takerSound.2.1 takerSound.2.2
  have same := linkedCount_of_view (final.view : after.view = ledger.view)
  have lost : after.leaked second = 1 :=
    (takerRun.leaked_eq middle settledBetween takerSound.2.1 takerSound.2.2 servedTaker).trans (if_pos met)
  refine ⟨settledBetween.add takerSound.1 takerSound.2.1 takerSound.2.2 takerRun, final.callback, final.view, ?_,
    final.trades⟩
  omega

end Ledger

/-- The calls of a list of makers, each with its taker after it. -/
def quotes (pairs : List (OrderMessage × OrderMessage)) : List Call :=
  pairs.flatMap fun pair => [.add pair.1, .add pair.2]

theorem quotes_admissible {pairs : List (OrderMessage × OrderMessage)}
    (sound : ∀ pair ∈ pairs, (Call.add pair.1).Admissible ∧ (Call.add pair.2).Admissible) :
    ∀ call ∈ quotes pairs, call.Admissible := by
  intro call member
  obtain ⟨pair, inside, which⟩ := List.mem_flatMap.mp member
  rcases List.mem_cons.mp which with rfl | taker
  · exact (sound pair inside).1
  · obtain rfl := List.mem_singleton.mp taker
    exact (sound pair inside).2

/-- Each pair meets the best prices that the first one met. -/
theorem quotes_run {book : OrderBook} {ledger : Ledger} (same : Represents book ledger) (settled : ledger.Settled)
    (callback : ledger.tradeCb = true) (pairs : List (OrderMessage × OrderMessage))
    (sound : ∀ pair ∈ pairs, (Call.add pair.1).Admissible ∧ (Call.add pair.2).Admissible)
    (made : ∀ pair ∈ pairs, book.MadeFor pair.1 pair.2) (room : pairs.length < ledger.free.length) :
    ∃ next, Represents (book.run (quotes pairs)) next ∧ next.Settled ∧ next.tradeCb = true ∧
      next.view = ledger.view ∧ next.free.length + pairs.length = ledger.free.length ∧
      next.reports.map TradeReport.trade = ledger.reports.map TradeReport.trade ++
        pairs.map fun pair => takenTrade pair.1 pair.2 := by
  induction pairs using List.reverseRecOn with
  | nil => exact ⟨ledger, same, settled, callback, rfl, rfl, (List.append_nil _).symm⟩
  | append_singleton past pair ih =>
      rw [List.length_append, List.length_singleton] at room
      obtain ⟨next, represents, settledNext, installed, view, free, trades⟩ :=
        ih (fun other member => sound other (by simp [member])) (fun other member => made other (by simp [member]))
          (by omega)
      obtain ⟨maker, taker⟩ := sound pair (by simp)
      obtain ⟨passive, leads, facing, crosses, equal⟩ := made pair (by simp)
      have best (wing : Wing) : book.best wing = next.best wing := by
        rw [same.best_eq]
        exact settledNext.best_of_view settled fun price => by rw [view]
      rw [best] at passive leads
      obtain ⟨between, madeRun, sameBetween, -⟩ := represents.add settledNext.toInv maker.2.1 maker.2.2
      have settledBetween := settledNext.add maker.1 maker.2.1 maker.2.2 madeRun
      obtain ⟨last, takenRun, sameLast, -⟩ := sameBetween.add settledBetween.toInv taker.2.1 taker.2.2
      obtain ⟨settledLast, callbackLast, viewLast, freeLast, tradesLast⟩ := settledNext.make_take installed maker
        taker passive leads facing crosses equal (by omega) madeRun takenRun
      refine ⟨last, ?_, settledLast, callbackLast, viewLast.trans view, ?_, ?_⟩
      · unfold quotes
        rw [List.flatMap_append, ← OrderBook.run_run]
        exact sameLast
      · rw [List.length_append, List.length_singleton]
        omega
      · rw [tradesLast, trades, List.map_append, List.map_singleton, List.append_assoc]

/-- A book makes a market without a trace but for the reports: each maker that opens a new best level is taken whole by
its taker, at its own price, and the queues, the best prices and what follows from them are as before. Each pair costs
one slot of the pool for good. -/
theorem quotes_leave_no_trace (clock : Nat → Nanos) (calls : List Call)
    (admissible : ∀ call ∈ calls, call.Admissible) (pairs : List (OrderMessage × OrderMessage))
    (sound : ∀ pair ∈ pairs, (Call.add pair.1).Admissible ∧ (Call.add pair.2).Admissible) :
    let book := (OrderBook.empty true clock).run calls
    let after := book.run (quotes pairs)
    (∀ pair ∈ pairs, book.MadeFor pair.1 pair.2) → pairs.length < book.orderPool.available →
      after.view = book.view ∧ after.bestBid = book.bestBid ∧ after.bestAsk = book.bestAsk ∧
        after.orderCount = book.orderCount + pairs.length ∧
        after.reports.map TradeReport.trade = book.reports.map TradeReport.trade ++
          pairs.map (fun pair => takenTrade pair.1 pair.2) ∧
        after.matchCount = book.matchCount + UInt64.ofNat pairs.length := by
  intro book after made room
  obtain ⟨ledger, same, settled, callback, -⟩ := @balanced_run true clock calls admissible
  have available : book.orderPool.available = ledger.free.length := same.available_eq
  rw [available] at room
  obtain ⟨next, represents, settledNext, -, view, free, trades⟩ :=
    quotes_run same settled callback pairs sound made room
  have best (wing : Wing) : after.best wing = book.best wing := by
    rw [same.best_eq, represents.best_eq]
    exact settled.best_of_view settledNext fun price => by rw [view]
  have before : book.reports = ledger.reports := congrArg BookCore.reports same.core
  have later : after.reports = next.reports := congrArg BookCore.reports represents.core
  have count : after.orderPool.available = next.free.length := represents.available_eq
  have reports : after.reports.length = book.reports.length + pairs.length := by
    have lengths := congrArg List.length trades
    rw [List.length_append, List.length_map, List.length_map, List.length_map] at lengths
    rw [before, later]
    exact lengths
  refine ⟨?_, best .bid, best .ask, ?_, ?_, ?_⟩
  · rw [same.view_eq settled.toInv, represents.view_eq settledNext.toInv]
    exact view
  · have pool := length_le_of_slots settled.freeNodup settled.freeSlots
    rw [OrderBook.orderCount, OrderBook.orderCount, count, available]
    omega
  · rw [before, later]
    exact trades
  · have whole : after = (OrderBook.empty true clock).run (calls ++ quotes pairs) := OrderBook.run_run ..
    have all : ∀ call ∈ calls ++ quotes pairs, call.Admissible := fun call member =>
      (List.mem_append.mp member).elim (admissible call) (quotes_admissible sound call)
    rw [whole, matchCount_run clock all, ← whole, reports, UInt64.ofNat_add, ← matchCount_run clock admissible]

/-- A maker of each side comes to a book with one sell. -/
def twoPairs : List (OrderMessage × OrderMessage) :=
  [(.sell 7 65530 3, .buy 8 65535 3), (.buy 9 2 4, .sell 10 1 4)]

theorem quotes_leave_no_trace_of_two :
    let book := (OrderBook.empty true fun _ => 1).run [.add (.sell 1 65534 5)]
    let after := book.run (quotes twoPairs)
    after.view = book.view ∧ after.reports.map TradeReport.trade = [⟨8, 7, 65530, 3⟩, ⟨9, 10, 2, 4⟩] := by
  have made : ∀ pair ∈ twoPairs,
      ((OrderBook.empty true fun _ => 1).run [.add (.sell 1 65534 5)]).MadeFor pair.1 pair.2 := by
    intro pair member
    rcases List.mem_cons.mp member with rfl | member
    · constructor <;> decide +kernel
    · obtain rfl := List.mem_singleton.mp member
      constructor <;> decide +kernel
  have whole := quotes_leave_no_trace (fun _ => 1) [.add (.sell 1 65534 5)] (by decide) twoPairs (by decide) made
    (by decide +kernel)
  obtain ⟨view, -, -, -, trades, -⟩ := whole
  exact ⟨view, trades.trans (by decide +kernel)⟩

end OrderEngine
