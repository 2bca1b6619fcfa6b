import OrderEngine.Guarantee.Conservation
import OrderEngine.Ledger.Plan
import OrderEngine.Refinement.Arrival

namespace OrderEngine

open Library

namespace Ledger

variable {ledger after : Ledger} {slot : Ptr} {rest : List Ptr} {msg : OrderMessage} {placed : Option Ptr}

/-- A new order is going to trade at what the orders that cross its price offer. -/
theorem enroll_quotes (settled : ledger.Settled) (free : ledger.free = slot :: rest) :
    (ledger.enroll slot rest msg).quotes slot =
      ledger.offers msg.side.wing.opposite msg.price msg.quantity.toNat := by
  have matchable : (ledger.enroll slot rest msg).crossing _ _ = _ := enroll_matchable
  unfold quotes offers
  rw [matchable, enroll_left_self, spend_congr (enroll_left_crossing settled free)]
  apply List.map_congr_left
  intro part member
  have crosses : part.1 ∈ ledger.crossing msg.side.wing.opposite msg.price :=
    spend_nodes.subset (List.mem_map_of_mem member)
  have different : part.1 ≠ slot := by
    intro equal
    have linked := (settled.toInv.mem_crossing.mp crosses).1
    rw [equal] at linked
    exact settled.toInv.fresh (by simp [free]) linked
  rw [price, price, enroll_data_other _ _ _ different]

/-- An add reports what its quantity takes from the orders that cross its price, and nothing else. -/
theorem AddRun.quotes_eq (run : ledger.AddRun msg placed after) (settled : ledger.Settled) (inside : InTicks msg.price)
    (positive : 0 < msg.quantity) (callback : ledger.tradeCb = true) (served : placed.isSome = true) :
    after.reports.map TradeReport.quote = ledger.reports.map TradeReport.quote ++
      ledger.offers msg.side.wing.opposite msg.price msg.quantity.toNat := by
  cases run with
  | full free => exact absurd served (by simp)
  | @filled slot rest after free run stopped tight done =>
      rw [run.quotes_eq (settled.toInv.enroll free inside positive) stopped callback, enroll_quotes settled free]
      rfl
  | @rested slot rest matched free run stopped tight left =>
      rw [rest_reports, run.quotes_eq (settled.toInv.enroll free inside positive) stopped callback,
        enroll_quotes settled free]
      rfl

/-- The orders that cross a price stand in the order of their ranks. -/
theorem Inv.crossing_sorted {pending : Option Ptr} {wing : Wing} {limit : Int} (inv : ledger.Inv pending) :
    (ledger.crossing wing limit).Pairwise fun first second =>
      wing.rank (ledger.price first) ≤ wing.rank (ledger.price second) := by
  unfold crossing
  rw [List.pairwise_flatMap]
  constructor
  · intro price _
    apply List.pairwise_of_forall_mem_list
    intro first here second also
    rw [(inv.placed here).2, (inv.placed also).2]
  · refine (wing.ticks_sorted limit).imp fun {price worse} less first here second there => ?_
    rw [(inv.placed here).2, (inv.placed there).2]
    exact le_of_lt less

end Ledger

/-- A sum of products has the rank of the sum. -/
theorem Wing.rank_sum {Item : Type} (wing : Wing) (price : Item → Int) (quantity : Item → Int) (items : List Item) :
    (items.map fun item => wing.rank (price item) * quantity item).sum =
      wing.rank (items.map fun item => price item * quantity item).sum := by
  cases wing with
  | ask => rfl
  | bid =>
      induction items with
      | nil => rfl
      | cons item items ih =>
          rw [List.map_cons, List.sum_cons, List.map_cons, List.sum_cons, ih]
          simp only [Wing.rank]
          ring

/-- An add of a settled book with a callback reports a plan: it takes the crossing orders in turn. -/
theorem Represents.executed {book : OrderBook} {ledger : Ledger} (same : Represents book ledger)
    (settled : ledger.Settled) (callback : ledger.tradeCb = true) {msg : OrderMessage}
    (sound : (Call.add msg).Admissible) (served : (book.addOrder msg).1.isSome = true) :
    (((book.addOrder msg).2.reports.drop book.reports.length).map TradeReport.quote) =
      ledger.offers msg.side.wing.opposite msg.price msg.quantity.toNat := by
  obtain ⟨after, run, represents, -⟩ := same.add settled.toInv sound.2.1 sound.2.2
  have quotes := run.quotes_eq settled sound.2.1 sound.2.2 callback served
  have before : book.reports = ledger.reports := congrArg BookCore.reports same.core
  have later : (book.addOrder msg).2.reports = after.reports := congrArg BookCore.reports represents.core
  rw [List.map_drop, later, before, quotes, List.drop_append_of_le_length (by rw [List.length_map]),
    List.drop_eq_nil_of_le (by rw [List.length_map]), List.nil_append]

/-- The trades of an add execute it at the best terms that the book has: they take as much as the orders that cross
its limit hold, from better prices to worse ones, and no other way to take as much from these orders costs a buyer
less or brings a seller more. -/
theorem best_execution (clock : Nat → Nanos) (calls : List Call) (admissible : ∀ call ∈ calls, call.Admissible)
    (msg : OrderMessage) (sound : (Call.add msg).Admissible) :
    let book := (OrderBook.empty true clock).run calls
    let made := (book.addOrder msg).2.reports.drop book.reports.length
    let crossing := book.crossing msg
    let traded : Nat := (made.map fun report => report.quantity.toNat).sum
    let paid : Int := (made.map fun report => report.price * (report.quantity.toNat : Int)).sum
    (book.addOrder msg).1.isSome = true →
      traded = min msg.quantity.toNat (book.volume crossing) ∧
      (made.Pairwise fun first second =>
        msg.side.wing.opposite.rank first.price ≤ msg.side.wing.opposite.rank second.price) ∧
      ∀ take : Ptr → Nat, (∀ slot ∈ crossing, take slot ≤ (book.remaining slot).toNat) →
        (crossing.map take).sum = traded →
          let other : Int := (crossing.map fun slot => (book.order slot).price * (take slot : Int)).sum
          (msg.side = Side.buy → paid ≤ other) ∧ (msg.side = Side.sell → other ≤ paid) := by
  obtain ⟨ledger, same, settled, callback, -⟩ := @balanced_run true clock calls admissible
  intro book made crossing traded paid served
  have crosses : crossing = ledger.crossing msg.side.wing.opposite msg.price := same.crossing_eq settled.toInv msg
  have quotes : made.map TradeReport.quote = _ := same.executed settled callback sound served
  have quantities := congrArg (List.map Prod.snd) quotes
  have prices := congrArg (List.map fun quote : Int × Nat => msg.side.wing.opposite.rank quote.1) quotes
  have payments := congrArg (List.map fun quote : Int × Nat => quote.1 * (quote.2 : Int)) quotes
  unfold Ledger.offers at quantities prices payments
  simp only [List.map_map] at quantities prices payments
  have volume : traded = ((spend ledger.left msg.quantity.toNat crossing).map Prod.snd).sum := by
    rw [crosses]
    exact congrArg List.sum quantities
  have sorted : crossing.Pairwise fun first second => msg.side.wing.opposite.rank (ledger.price first) ≤
      msg.side.wing.opposite.rank (ledger.price second) := by
    rw [crosses]
    exact settled.toInv.crossing_sorted
  refine ⟨?_, ?_, ?_⟩
  · rw [volume, spend_sum, same.volume_eq]
    rfl
  · have ranks := sorted.sublist (@spend_nodes Ptr ledger.left msg.quantity.toNat crossing).sublist
    rw [List.pairwise_map] at ranks
    have ordered : (made.map fun report => msg.side.wing.opposite.rank report.price).Pairwise (· ≤ ·) := by
      rw [crosses] at ranks
      exact (congrArg (List.Pairwise (· ≤ ·)) prices).mpr (List.pairwise_map.mpr ranks)
    exact List.pairwise_map.mp ordered
  · intro take fits equal other
    have cheapest := @spend_cheapest Ptr ledger.left take
      (fun slot => msg.side.wing.opposite.rank (ledger.price slot)) msg.quantity.toNat crossing sorted
      (fun slot member => by
        have bound := fits slot member
        rw [same.remaining_eq] at bound
        exact bound) (equal.trans volume)
    rw [totalCost, Wing.rank_sum, Wing.rank_sum] at cheapest
    have cost : ((spend ledger.left msg.quantity.toNat crossing).map fun part =>
        ledger.price part.1 * (part.2 : Int)).sum = paid := by
      rw [crosses]
      exact congrArg List.sum payments.symm
    have offered : (crossing.map fun slot => ledger.price slot * (take slot : Int)).sum = other := by
      apply congrArg List.sum
      apply List.map_congr_left
      intro slot _
      exact congrArg (· * (take slot : Int)) (same.price_eq slot).symm
    rw [cost, offered] at cheapest
    constructor
    · intro buy
      rw [buy] at cheapest
      exact cheapest
    · intro sell
      rw [sell] at cheapest
      exact neg_le_neg_iff.mp cheapest

/-- A buy of seven takes five from the cheaper sell and two from the other one. -/
theorem best_execution_of_two_sells :
    let calls := [Call.add (.sell 1 65534 5), .add (.sell 2 65535 6)]
    let book := (OrderBook.empty true fun _ => 1).run calls
    let made := (book.addOrder (.buy 3 65535 7)).2.reports.drop book.reports.length
    made.map TradeReport.quote = [(65534, 5), (65535, 2)] ∧
      (made.map fun report => report.quantity.toNat).sum = min 7 (book.volume (book.crossing (.buy 3 65535 7))) :=
  ⟨by decide +kernel,
    (best_execution (fun _ => 1) [.add (.sell 1 65534 5), .add (.sell 2 65535 6)] (by decide) (.buy 3 65535 7)
      (by decide) (by decide +kernel)).1⟩

end OrderEngine
