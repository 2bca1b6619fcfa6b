import OrderEngine.Guarantee.Chains
import OrderEngine.Ledger.Undo
import OrderEngine.Refinement.Arrival

namespace OrderEngine

open Library

namespace OrderBook

/-- A message does not cross the best price of the other side. -/
def Passive (book : OrderBook) (msg : OrderMessage) : Prop :=
  if msg.side = Side.buy then book.bestAsk = kInvalidPrice ∨ msg.price < book.bestAsk
  else book.bestBid = kInvalidPrice ∨ book.bestBid < msg.price

instance (book : OrderBook) (msg : OrderMessage) : Decidable (book.Passive msg) :=
  inferInstanceAs (Decidable (ite _ _ _))

/-- The levels with their queues and links, the best prices, the map, the free stack and the statistics are
as they were. -/
structure Restored (book after : OrderBook) : Prop where
  queue : ∀ wing price, after.queue wing price = book.queue wing price
  orders : ∀ slot, book.Linked slot → after.order slot = book.order slot
  head : ∀ wing price, (after.level wing price).head = (book.level wing price).head
  tail : ∀ wing price, (after.level wing price).tail = (book.level wing price).tail
  orderCount : ∀ wing price, (after.level wing price).orderCount = (book.level wing price).orderCount
  totalQuantity : ∀ wing price, (after.level wing price).totalQuantity = (book.level wing price).totalQuantity
  bestBid : after.bestBid = book.bestBid
  bestAsk : after.bestAsk = book.bestAsk
  orderMap : after.orderMap = book.orderMap
  free : after.orderPool.free = book.orderPool.free
  reports : after.reports = book.reports
  matchCount : after.matchCount = book.matchCount
  tradeVolume : after.tradeVolume = book.tradeVolume

end OrderBook

theorem Order.eq_of_parts {first second : Order} (next : first.next = second.next) (prev : first.prev = second.prev)
    (data : first.toOrderData = second.toOrderData) : first = second := by
  obtain ⟨⟨_, _⟩, _⟩ := first
  obtain ⟨⟨_, _⟩, _⟩ := second
  cases next
  cases prev
  cases data
  rfl

section Represented

variable {book after : OrderBook} {ledger next : Ledger} {slot : Ptr} {rest : List Ptr} {msg : OrderMessage}

theorem Represents.passive (same : Represents book ledger) (passive : book.Passive msg) : ledger.Passive msg := by
  have ask : book.bestAsk = ledger.best .ask := same.best_eq .ask
  have bid : book.bestBid = ledger.best .bid := same.best_eq .bid
  unfold OrderBook.Passive at passive
  unfold Ledger.Passive Side.wing
  by_cases buy : msg.side = Side.buy
  · rw [if_pos buy, ask] at passive
    rw [if_pos buy]
    exact passive
  · rw [if_neg buy, bid] at passive
    rw [if_neg buy]
    exact passive.imp_right neg_lt_neg

/-- Two books with the same queues link their orders in the same way. -/
theorem Represents.order_eq (same : Represents book ledger) (sameNext : Represents after next)
    (queue : next.queue = ledger.queue) (data : next.data slot = ledger.data slot) {wing : Wing} {price : Int}
    (member : slot ∈ ledger.queue wing price) : after.order slot = book.order slot := by
  obtain ⟨index, inside, rfl⟩ := List.getElem_of_mem member
  have onward := same.next_eq inside
  have back := same.prev_eq inside
  have onwardNext := @Represents.next_eq _ _ wing price sameNext index (by rw [queue]; exact inside)
  have backNext := @Represents.prev_eq _ _ wing price sameNext index (by rw [queue]; exact inside)
  simp only [queue] at onwardNext backNext
  exact Order.eq_of_parts (onwardNext.trans onward.symm) (backNext.trans back.symm)
    ((sameNext.data _).trans (data.trans (same.data _).symm))

/-- The book gets its former levels back when its ledger does. -/
theorem Represents.restored (same : Represents book ledger) (inv : ledger.Inv none)
    (sameNext : Represents after next) (invNext : next.Inv none) (free : slot ∈ ledger.free)
    (restored : ledger.Restored slot next) : book.Restored after := by
  have queue := same.queue_eq inv
  have queueNext := sameNext.queue_eq invNext
  have best (wing : Wing) : after.best wing = book.best wing := by
    rw [same.best_eq, sameNext.best_eq]
    exact restored.best wing
  have core {Field : Type} (field : BookCore → Field)
      (kept : field next.toBookCore = field ledger.toBookCore) : field after.toBookCore = field book.toBookCore := by
    rw [same.core, sameNext.core, kept]
  constructor
  · intro wing price
    rw [queue, queueNext, restored.queue]
  · rintro other ⟨wing, price, member⟩
    rw [queue] at member
    have different : other ≠ slot := by
      rintro rfl
      exact inv.fresh free member
    exact same.order_eq sameNext restored.queue (restored.data other different) member
  · intro wing price
    rw [same.head_eq, sameNext.head_eq, restored.queue]
  · intro wing price
    rw [same.tail_eq, sameNext.tail_eq, restored.queue]
  · intro wing price
    rw [same.count, sameNext.count, restored.queue]
  · intro wing price
    rw [same.total, sameNext.total, restored.total]
  · exact best .bid
  · exact best .ask
  · exact core BookCore.orderMap restored.orderMap
  · rw [same.free, sameNext.free, restored.free]
  · exact core BookCore.reports restored.reports
  · exact core BookCore.matchCount restored.matchCount
  · exact core BookCore.tradeVolume restored.tradeVolume

end Represented

/-- A cancel takes back a passive add whose identifier finds a null entry of the map and whose order finds a
free slot. -/
theorem cancel_undoes_add (tradeCb : Bool) (clock : Nat → Nanos) (calls : List Call)
    (admissible : ∀ call ∈ calls, call.Admissible) (msg : OrderMessage) (sound : (Call.add msg).Admissible)
    (passive : ((OrderBook.empty tradeCb clock).run calls).Passive msg)
    (vacant : ((OrderBook.empty tradeCb clock).run calls).orderMap (mapSlot msg.orderId) = none)
    (served : 0 < ((OrderBook.empty tradeCb clock).run calls).orderPool.available) :
    let book := (OrderBook.empty tradeCb clock).run calls
    let added := (book.addOrder msg).2
    (book.addOrder msg).1.isSome = true ∧ (added.cancelOrder msg.orderId).1 = true ∧
      added.reports = book.reports ∧ book.Restored (added.cancelOrder msg.orderId).2 := by
  obtain ⟨ledger, same, settled⟩ := settled_run tradeCb clock admissible
  generalize (OrderBook.empty tradeCb clock).run calls = book at same passive vacant served ⊢
  intro _ added
  rw [same.core] at vacant
  cases free : ledger.free with
  | nil =>
      rw [same.available_eq_zero.mpr free] at served
      exact absurd served (Nat.lt_irrefl 0)
  | cons slot rest =>
      obtain ⟨side, inside, positive⟩ := sound
      obtain ⟨next, run, represents, -⟩ := same.add settled.toInv inside positive
      obtain ⟨placed, rfl⟩ := settled.rests_at_once free (same.passive passive).stops run
      have settledArrive : (ledger.arrive slot rest msg).Settled := settled.add side inside positive run
      have found := @Ledger.arrive_findLive ledger slot rest msg
      obtain ⟨linked, named⟩ := settledArrive.toInv.found_linked found
      obtain ⟨answer, cancelled⟩ := represents.cancel settledArrive.toInv found linked named
      have restored := settled.arrive_withdraw free vacant settledArrive
      have reports : added.reports = book.reports := by
        rw [same.core, represents.core]
        exact (Ledger.rest_reports _ _).trans (Ledger.enroll_reports _ _ _ _)
      refine ⟨by rw [placed]; rfl, answer, reports, ?_⟩
      exact same.restored settled.toInv cancelled (settledArrive.toInv.withdraw linked) (by simp [free]) restored

/-- The buy becomes the best bid before an older one and leaves again. -/
theorem cancel_undoes_add_of_better_bid :
    let book := (OrderBook.empty true fun _ => 1).run [.add (.buy 1 65530 5), .add (.sell 2 65535 6)]
    let added := (book.addOrder (.buy 3 65533 7)).2
    (book.addOrder (.buy 3 65533 7)).1.isSome = true ∧ (added.cancelOrder 3).1 = true ∧
      added.reports = book.reports ∧ book.Restored (added.cancelOrder 3).2 :=
  cancel_undoes_add true (fun _ => 1) [.add (.buy 1 65530 5), .add (.sell 2 65535 6)] (by decide)
    (.buy 3 65533 7) (by decide) (by decide +kernel) (by decide +kernel) (by decide +kernel)

end OrderEngine
