import OrderEngine.Refinement.Arrival

namespace OrderEngine

open Library

/-- One resting order gets a new remaining quantity. It keeps its place when the quantity shrinks and is
the last one of its level otherwise, and nothing else of the book changes. -/
structure OrderBook.Amended (book : OrderBook) (slot : Ptr) (newQty : Quantity) (after : OrderBook) : Prop where
  resting : slot ∈ book.queue (book.order slot).side.wing (book.order slot).price
  id : (after.order slot).id = (book.order slot).id
  side : (after.order slot).side = (book.order slot).side
  price : (after.order slot).price = (book.order slot).price
  filledLe : (after.order slot).filledQuantity ≤ (after.order slot).quantity
  remaining : after.remaining slot = newQty
  queue : after.queue (book.order slot).side.wing (book.order slot).price =
    if newQty ≤ book.remaining slot then book.queue (book.order slot).side.wing (book.order slot).price
    else (book.queue (book.order slot).side.wing (book.order slot).price).erase slot ++ [slot]
  otherQueues : ∀ wing price, ¬ (wing = (book.order slot).side.wing ∧ price = (book.order slot).price) →
    after.queue wing price = book.queue wing price
  others : ∀ other, other ≠ slot → (after.order other).toOrderData = (book.order other).toOrderData
  total : ∀ wing price, (after.level wing price).totalQuantity =
    if wing = (book.order slot).side.wing ∧ price = (book.order slot).price then
      (book.level wing price).totalQuantity + (newQty - book.remaining slot)
    else (book.level wing price).totalQuantity
  reports : after.reports = book.reports
  matchCount : after.matchCount = book.matchCount
  tradeVolume : after.tradeVolume = book.tradeVolume
  bestBid : after.bestBid = book.bestBid
  bestAsk : after.bestAsk = book.bestAsk
  available : after.orderPool.available = book.orderPool.available

section Represented

variable {book after : OrderBook} {ledger next : Ledger} {slot : Ptr} {newQty : Quantity}

theorem Represents.available_eq (same : Represents book ledger) :
    book.orderPool.available = ledger.free.length := by
  rw [← same.free, MemoryPool.free, stack_length]
  rfl

/-- The book changes one order when its ledger does. -/
theorem Represents.amended (same : Represents book ledger) (inv : ledger.Inv none)
    (sameNext : Represents after next) (invNext : next.Inv none) (linked : ledger.Linked slot)
    (amended : ledger.Amended slot newQty
      (if newQty ≤ (ledger.data slot).remaining then ledger.queue (ledger.wing slot) (ledger.price slot)
        else (ledger.queue (ledger.wing slot) (ledger.price slot)).erase slot ++ [slot]) next) :
    book.Amended slot newQty after := by
  have queue := same.queue_eq inv
  have queueNext := sameNext.queue_eq invNext
  have reports : after.reports = book.reports := by
    rw [same.core, sameNext.core]
    exact amended.reports
  have matchCount : after.matchCount = book.matchCount := by
    rw [same.core, sameNext.core]
    exact amended.matchCount
  have tradeVolume : after.tradeVolume = book.tradeVolume := by
    rw [same.core, sameNext.core]
    exact amended.tradeVolume
  have best (wing : Wing) : after.best wing = book.best wing := by
    rw [same.best_eq, sameNext.best_eq]
    exact amended.best wing
  constructor
  · rw [queue, same.wing_eq, same.price_eq]
    exact linked
  · rw [sameNext.id_eq, same.id_eq]
    exact amended.id
  · rw [sameNext.side_eq, same.side_eq]
    exact amended.side
  · rw [sameNext.price_eq, same.price_eq]
    exact amended.price
  · have data := sameNext.data slot
    rw [show (after.order slot).filledQuantity = _ from congrArg OrderData.filledQuantity data,
      show (after.order slot).quantity = _ from congrArg OrderData.quantity data]
    exact amended.filledLe
  · rw [sameNext.remaining_eq]
    exact amended.remaining
  · rw [queueNext, queue, same.wing_eq, same.price_eq, same.remaining_eq, amended.queue, setCell_self]
  · intro wing price elsewhere
    rw [same.wing_eq, same.price_eq] at elsewhere
    rw [queueNext, queue, amended.queue, setCell_of_ne _ _ elsewhere]
  · intro other different
    rw [same.data, sameNext.data]
    exact amended.others other different
  · intro wing price
    rw [sameNext.total, same.total, same.wing_eq, same.price_eq, same.remaining_eq, amended.total, setCell_apply]
    split
    · next here => rw [here.1, here.2]
    · rfl
  · exact reports
  · exact matchCount
  · exact tradeVolume
  · exact best .bid
  · exact best .ask
  · rw [same.available_eq, sameNext.available_eq, amended.free]

end Represented

/-- A modify that succeeds changes one order's remaining quantity and nothing else, whichever way it takes. -/
theorem modify_amends (tradeCb : Bool) (clock : Nat → Nanos) (calls : List Call)
    (admissible : ∀ call ∈ calls, call.Admissible) (id : OrderId) (newQty : Quantity) (slot : Ptr)
    (modified : (((OrderBook.empty tradeCb clock).run calls).modifyOrder id newQty).1 = some slot) :
    (((OrderBook.empty tradeCb clock).run calls).order slot).id = id ∧
      ((OrderBook.empty tradeCb clock).run calls).Amended slot newQty
        (((OrderBook.empty tradeCb clock).run calls).modifyOrder id newQty).2 := by
  obtain ⟨ledger, same, settled⟩ := settled_run tradeCb clock admissible
  generalize (OrderBook.empty tradeCb clock).run calls = book at same modified ⊢
  have inv := settled.toInv
  rcases same.modify inv id newQty with
    ⟨-, missing⟩ | ⟨own, found, ⟨fits, answer, after⟩ | ⟨larger, next, run, after, invAfter⟩⟩
  · rw [missing] at modified
    exact absurd modified.symm (Option.some_ne_none slot)
  · obtain rfl := Option.some.inj (answer.symm.trans modified)
    obtain ⟨linked, named⟩ := inv.found_linked found
    refine ⟨(same.id_eq own).trans named, ?_⟩
    apply same.amended inv after (inv.shrink linked fits) linked
    rw [if_pos fits]
    exact settled.shrink_amended linked fits
  · obtain ⟨linked, named⟩ := inv.found_linked found
    obtain rfl := Option.some.inj ((settled.replace_eq linked run).1.symm.trans modified)
    refine ⟨(same.id_eq own).trans named, ?_⟩
    apply same.amended inv after invAfter linked
    rw [if_neg larger]
    exact settled.replace_amended linked larger run named

/-- The first of two orders asks for more and moves behind the second one. -/
theorem modify_amends_larger :
    let book := (OrderBook.empty true fun _ => 1).run [.add (.sell 1 65535 5), .add (.sell 2 65535 6)]
    (book.order 0).id = 1 ∧ book.Amended 0 9 (book.modifyOrder 1 9).2 := by
  intro book
  exact modify_amends true (fun _ => 1) [.add (.sell 1 65535 5), .add (.sell 2 65535 6)] (by decide) 1 9 0
    (by decide +kernel)

end OrderEngine
