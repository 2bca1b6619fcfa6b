import OrderEngine.Construction.Calls
import OrderEngine.Refinement.Orders

namespace OrderEngine

open Library

def OrderData.untimed (data : OrderData) : OrderData := { data with timestamp := 0, entryNanos := 0 }

def Order.untimed (order : Order) : Order := { order with toOrderData := order.toOrderData.untimed }

def TradeReport.untimed (report : TradeReport) : TradeReport := { report with matchNanos := 0, latencyCycles := 0 }

def OrderMessage.untimed (msg : OrderMessage) : OrderMessage := { msg with arrivalCycles := 0 }

def Call.untimed : Call → Call
  | .add msg => .add msg.untimed
  | call => call

/-- The times are gone, and so are the callback and its reports unless they are watched. -/
def BookCore.blind (watched : Bool) (core : BookCore) : BookCore :=
  { core with
    tradeCb := watched && core.tradeCb
    clock := fun _ => 0
    readings := if watched then core.readings else 0
    reports := if watched then core.reports.map TradeReport.untimed else [] }

def OrderBook.blind (watched : Bool) (book : OrderBook) : OrderBook :=
  { book with
    toBookCore := book.toBookCore.blind watched
    orderPool := { book.orderPool with slots := Order.untimed ∘ book.orderPool.slots } }

namespace Order

variable (order : Order)

@[simp] theorem untimed_id : order.untimed.id = order.id := rfl

@[simp] theorem untimed_side : order.untimed.side = order.side := rfl

@[simp] theorem untimed_status : order.untimed.status = order.status := rfl

@[simp] theorem untimed_price : order.untimed.price = order.price := rfl

@[simp] theorem untimed_quantity : order.untimed.quantity = order.quantity := rfl

@[simp] theorem untimed_filledQuantity : order.untimed.filledQuantity = order.filledQuantity := rfl

@[simp] theorem untimed_next : order.untimed.next = order.next := rfl

end Order

section Slots

variable (slots : Slots)

theorem untimed_update (slot : Ptr) (order : Order) :
    Order.untimed ∘ Function.update slots slot order = Function.update (Order.untimed ∘ slots) slot order.untimed :=
  Function.comp_update ..

/-- A write to the links of an order does not see its times. -/
theorem untimed_relink (slot : Ptr) (links : IntrusiveListNode) :
    Function.update (Order.untimed ∘ slots) slot
        { links with toOrderData := ((Order.untimed ∘ slots) slot).toOrderData } =
      Order.untimed ∘ Function.update slots slot { links with toOrderData := (slots slot).toOrderData } :=
  (untimed_update slots slot { links with toOrderData := (slots slot).toOrderData }).symm

namespace LimitLevel

variable (level : LimitLevel)

theorem linkNext_untimed (before next : Option Ptr) : level.linkNext (Order.untimed ∘ slots) before next =
    ((level.linkNext slots before next).1, Order.untimed ∘ (level.linkNext slots before next).2) := by
  cases before with
  | none => rfl
  | some node => exact congrArg (Prod.mk level) (untimed_relink slots node ⟨next, (slots node).prev⟩)

theorem linkPrev_untimed (after prev : Option Ptr) : level.linkPrev (Order.untimed ∘ slots) after prev =
    ((level.linkPrev slots after prev).1, Order.untimed ∘ (level.linkPrev slots after prev).2) := by
  cases after with
  | none => rfl
  | some node => exact congrArg (Prod.mk level) (untimed_relink slots node ⟨(slots node).next, prev⟩)

theorem pushBack_untimed (order : Ptr) : level.pushBack (Order.untimed ∘ slots) order =
    ((level.pushBack slots order).1, Order.untimed ∘ (level.pushBack slots order).2) := by
  have unlinked := untimed_relink slots order ⟨none, level.tail⟩
  simp only [pushBack, unlinked, linkNext_untimed]
  rfl

theorem remove_untimed (order : Ptr) : level.remove (Order.untimed ∘ slots) order =
    ((level.remove slots order).1, Order.untimed ∘ (level.remove slots order).2) := by
  have next (slots : Slots) : ((Order.untimed ∘ slots) order).next = (slots order).next := rfl
  have prev (slots : Slots) : ((Order.untimed ∘ slots) order).prev = (slots order).prev := rfl
  have unlinked (slots : Slots) := untimed_relink slots order ⟨none, none⟩
  simp only [remove, next, prev, linkNext_untimed, linkPrev_untimed, unlinked]
  rfl

end LimitLevel

end Slots

/-- A report differs in its times alone, and it is gone when the callback is not watched. -/
theorem BookCore.blind_report (watched : Bool) (core : BookCore) (resting aggressor : OrderData) (qty : Quantity) :
    (core.report resting aggressor qty).blind watched =
      (core.blind watched).report resting.untimed aggressor.untimed qty := by
  unfold BookCore.report
  cases watched with
  | false =>
      rw [if_neg (show ¬ (core.blind false).tradeCb = true from Bool.false_ne_true)]
      split <;> rfl
  | true =>
      show _ = if core.tradeCb then _ else _
      split
      · simp only [BookCore.blind, tick, if_true, List.map_append]
        rfl
      · rfl

namespace OrderBook

section Steps

variable (watched : Bool) (book : OrderBook) (slot : Ptr)

@[simp] theorem blind_order : (book.blind watched).order slot = (book.order slot).untimed := rfl

@[simp] theorem blind_slots : (book.blind watched).orderPool.slots = Order.untimed ∘ book.orderPool.slots := rfl

@[simp] theorem blind_level (wing : Wing) : (book.blind watched).level wing = book.level wing := by
  cases wing <;> rfl

theorem blind_setLevel (wing : Wing) (price : Int) (level : LimitLevel) :
    (book.setLevel wing price level).blind watched = (book.blind watched).setLevel wing price level := by
  cases wing <;> rfl

theorem blind_setSlots (slots : Slots) :
    (book.setSlots slots).blind watched = (book.blind watched).setSlots (Order.untimed ∘ slots) := rfl

theorem blind_setData (data : OrderData) :
    (book.setData slot data).blind watched = (book.blind watched).setData slot data.untimed := by
  unfold setData
  rw [blind_setSlots, untimed_update]
  rfl

theorem blind_setStatus (status : OrderStatus) :
    (book.setStatus slot status).blind watched = (book.blind watched).setStatus slot status :=
  blind_setData ..

theorem blind_touch (price : Int) : (book.touch price).blind watched = (book.blind watched).touch price := by
  unfold touch
  split <;> rfl

theorem blind_destroy : (book.destroy slot).blind watched = (book.blind watched).destroy slot := rfl

theorem blind_updateBest (wing : Wing) (price : Int) :
    (book.updateBest wing price).blind watched = (book.blind watched).updateBest wing price := by
  cases wing with
  | bid =>
      simp only [updateBest, updateBestBid, touch]
      split
      · split <;> rfl
      · rfl
  | ask =>
      simp only [updateBest, updateBestAsk, touch]
      split
      · split <;> rfl
      · rfl

theorem blind_removeFromLevel :
    (book.removeFromLevel slot).blind watched = (book.blind watched).removeFromLevel slot := by
  simp only [removeFromLevel, blind_setSlots, blind_setLevel, blind_order, Order.untimed_side, Order.untimed_price,
    ← blind_touch, blind_level, blind_slots, LimitLevel.remove_untimed]

theorem blind_pushBack (wing : Wing) (price : Int) :
    (book.pushBack wing price slot).blind watched = (book.blind watched).pushBack wing price slot := by
  simp only [pushBack, blind_setSlots, blind_setLevel, blind_level, blind_slots, LimitLevel.pushBack_untimed]

theorem blind_improveBest (wing : Wing) (price : Int) :
    (book.improveBest wing price).blind watched = (book.blind watched).improveBest wing price := by
  unfold improveBest
  cases wing with
  | bid => exact apply_ite (blind watched) ..
  | ask => exact apply_ite (blind watched) ..

/-- Whatever the price is, an order joins its level and may become the best of its wing. -/
theorem restOrder_touch : book.restOrder slot =
    ((book.touch (book.order slot).price).pushBack (book.order slot).side.wing (book.order slot).price slot).improveBest
      (book.order slot).side.wing (book.order slot).price := by
  unfold restOrder
  generalize (book.order slot).side.wing = wing
  cases wing with
  | bid => simp only [improveBest, Wing.rank, neg_lt_neg_iff, gt_iff_lt]; rfl
  | ask => rfl

theorem blind_restOrder : (book.restOrder slot).blind watched = (book.blind watched).restOrder slot := by
  rw [restOrder_touch, restOrder_touch, blind_improveBest, blind_pushBack, blind_touch]
  rfl

theorem blind_addFilled (qty : Quantity) :
    (book.addFilled slot qty).blind watched = (book.blind watched).addFilled slot qty := blind_setData ..

theorem blind_deductTotal (qty : Quantity) :
    (book.deductTotal slot qty).blind watched = (book.blind watched).deductTotal slot qty := by
  simp only [deductTotal, blind_setLevel, blind_order, Order.untimed_side, Order.untimed_price, ← blind_touch,
    blind_level]

theorem blind_settleResting : (book.settleResting slot).blind watched = (book.blind watched).settleResting slot := by
  unfold settleResting
  by_cases full : (book.order slot).filledQuantity ≥ (book.order slot).quantity
  · have also : ((book.blind watched).order slot).filledQuantity ≥ ((book.blind watched).order slot).quantity := full
    rw [if_pos full, if_pos also, ← blind_setStatus]
    dsimp only
    rw [← blind_removeFromLevel]
    rfl
  · have also : ¬ ((book.blind watched).order slot).filledQuantity ≥ ((book.blind watched).order slot).quantity := full
    rw [if_neg full, if_neg also, blind_setStatus]

theorem blind_settleAggressor :
    (book.settleAggressor slot).blind watched = (book.blind watched).settleAggressor slot := by
  unfold settleAggressor
  rw [apply_ite (blind watched), blind_setStatus, blind_setStatus]
  rfl

/-- What the book counts and reports of a trade depends on no time. -/
theorem blind_recordTrade (aggressor : Ptr) (qty : Quantity) : (book.recordTrade slot aggressor qty).blind watched =
    (book.blind watched).recordTrade slot aggressor qty := by
  have core : ((book.toBookCore.count slot aggressor qty).report (book.order slot).toOrderData
      (book.order aggressor).toOrderData qty).blind watched = _ := BookCore.blind_report ..
  exact congrArg (fun core : BookCore => { book.blind watched with toBookCore := core }) core

theorem blind_fill (aggressor : Ptr) (qty : Quantity) :
    (book.fill slot aggressor qty).blind watched = (book.blind watched).fill slot aggressor qty := by
  simp only [fill, blind_recordTrade, blind_settleAggressor, blind_settleResting, blind_deductTotal, blind_addFilled]

end Steps

section Loops

variable (watched : Bool) (book : OrderBook) (incoming : Ptr)

theorem blind_remaining : (book.blind watched).remaining incoming = book.remaining incoming := rfl

theorem blind_crosses (wing : Wing) : (book.blind watched).crosses wing incoming = book.crosses wing incoming := by
  cases wing <;> rfl

theorem blind_walkLevel (resting : Option Ptr) : (book.walkLevel incoming resting).blind watched =
    (book.blind watched).walkLevel incoming resting := by
  unfold walkLevel
  generalize kMaxOrders + 1 = fuel
  have round (state : OrderBook × Option Ptr) :
      ((fillNext incoming state).1.blind watched, (fillNext incoming state).2) =
      fillNext incoming (state.1.blind watched, state.2) := by
    obtain ⟨book, resting⟩ := state
    cases resting with
    | none => rfl
    | some resting => simp only [fillNext, blind_fill, blind_remaining, blind_order, Order.untimed_next]
  have view := @whileLoop_view _ (fun state => state.2.isSome && state.1.hasRemaining incoming)
    (fillNext incoming) (fun state => (state.1.markEndless, state.2)) _
    (fun state => state.2.isSome && state.1.hasRemaining incoming) (fillNext incoming)
    (fun state => (state.1.markEndless, state.2)) (fun state => (state.1.blind watched, state.2))
    (fun _ => rfl) round (fun _ => rfl) fuel (book, resting)
  exact congrArg Prod.fst view

theorem blind_matchBody (wing : Wing) : (matchBody wing incoming book).blind watched =
    matchBody wing incoming (book.blind watched) := by
  have best (book : OrderBook) : (book.blind watched).best wing = book.best wing := by
    cases wing <;> rfl
  unfold matchBody
  dsimp only
  rw [best, ← blind_touch, blind_level, ← blind_walkLevel, blind_level, best, best]
  simp only [apply_ite (blind watched), blind_updateBest]

theorem blind_match : (book.match incoming).blind watched = (book.blind watched).match incoming := by
  rw [match_eq, match_eq]
  generalize kMaxPriceTicks + 1 = fuel
  have stops (book : OrderBook) : book.markEndless.blind watched = (book.blind watched).markEndless := rfl
  exact whileLoop_view (blind watched) (fun book => blind_crosses watched book incoming _)
    (fun book => blind_matchBody watched book incoming _) stops fuel book

end Loops

/-- Nobody who ignores times, and reports unless they are watched, can tell the two books apart. -/
def Alike (watched : Bool) (book other : OrderBook) : Prop := book.blind watched = other.blind watched

namespace Alike

variable {watched : Bool} {book other : OrderBook} (alike : Alike watched book other)

include alike

theorem order (slot : Ptr) : (book.order slot).untimed = (other.order slot).untimed :=
  congrArg (fun book : OrderBook => book.order slot) alike

/-- What an order shows without its times is the same in both books. -/
theorem same_order (slot : Ptr) : (book.order slot).side = (other.order slot).side ∧
    (book.order slot).price = (other.order slot).price ∧ (book.order slot).status = (other.order slot).status := by
  have shown := congrArg (fun order : Order => (order.side, order.price, order.status)) (alike.order slot)
  simpa using shown

end Alike

section Calls

variable (watched : Bool) (book : OrderBook)

theorem blind_blind : (book.blind watched).blind watched = book.blind watched := by
  cases watched with
  | false => rfl
  | true =>
      unfold blind BookCore.blind
      simp only [if_true, List.map_map]
      rfl

theorem blind_findLive (id : OrderId) : (book.blind watched).findLive id = book.findLive id := by
  have map : (book.blind watched).orderMap = book.orderMap := rfl
  unfold findLive
  rw [map]
  cases book.orderMap (mapSlot id) with
  | none => rfl
  | some slot => rfl

theorem blind_construct : (book.blind watched).orderPool.construct {} =
    ((book.orderPool.construct {}).1, { (book.orderPool.construct {}).2 with
      slots := Order.untimed ∘ (book.orderPool.construct {}).2.slots }) := by
  unfold MemoryPool.construct MemoryPool.acquire
  cases top : book.orderPool.freeTop with
  | zero => simp [blind, top]
  | succ height =>
      simp only [blind, top]
      rw [if_neg (Nat.succ_ne_zero height), if_neg (Nat.succ_ne_zero height), untimed_update]
      rfl

/-- The entry of an order into the book reads the clock once. -/
theorem blind_register (pool : MemoryPool Order) (slot : Ptr) (msg : OrderMessage) :
    ((book.blind watched).register { pool with slots := Order.untimed ∘ pool.slots } slot msg.untimed).blind watched =
      (book.register pool slot msg).blind watched := by
  have written := blind_setData watched { book with orderPool := pool } slot
    { id := msg.orderId, side := msg.side, status := .active, price := msg.price,
      quantity := msg.quantity, filledQuantity := 0, timestamp := msg.arrivalCycles,
      entryNanos := book.rdtsc }
  have core : ((book.toBookCore.blind watched).tick.setSlot msg.orderId (some slot)).blind watched =
      (book.tick.setSlot msg.orderId (some slot)).blind watched := by
    cases watched with
    | false => rfl
    | true =>
        simp only [BookCore.blind, BookCore.tick, BookCore.setSlot, if_true, List.map_map]
        rfl
  have slots := congrArg (fun other : OrderBook => { other.orderPool with
    slots := Order.untimed ∘ other.orderPool.slots }) written.symm
  exact congrArg₂ (fun (core : BookCore) (pool : MemoryPool Order) => { book with
    toBookCore := core
    orderPool := pool }) core slots

/-- Two books that look the same to the blind serve the same slot and still look the same. -/
theorem blind_addOrder (msg : OrderMessage) :
    ((book.blind watched).addOrder msg.untimed).1 = (book.addOrder msg).1 ∧
      ((book.blind watched).addOrder msg.untimed).2.blind watched = (book.addOrder msg).2.blind watched := by
  have built := book.blind_construct watched
  rcases served : book.orderPool.construct {} with ⟨_ | slot, pool⟩
  · rw [served] at built
    unfold addOrder
    rw [served, built]
    exact ⟨rfl, blind_blind ..⟩
  · rw [served] at built
    rw [addOrder_eq msg served, addOrder_eq msg.untimed built]
    refine ⟨rfl, ?_⟩
    have entered := book.blind_register watched pool slot msg
    dsimp only
    generalize (book.blind watched).register _ slot msg.untimed = other at entered
    generalize book.register pool slot msg = entering at entered
    have matched : (other.match slot).blind watched = (entering.match slot).blind watched := by
      rw [blind_match, entered, blind_match]
    have status : ((other.match slot).order slot).status = ((entering.match slot).order slot).status :=
      (Alike.same_order matched slot).2.2
    rw [status, apply_ite (blind watched), apply_ite (blind watched), blind_restOrder, blind_restOrder, matched]

theorem blind_rescanAfterCancel (slot : Ptr) :
    (book.rescanAfterCancel slot).blind watched = (book.blind watched).rescanAfterCancel slot := by
  have bid (price : Int) := book.blind_updateBest watched .bid price
  have ask (price : Int) := book.blind_updateBest watched .ask price
  unfold rescanAfterCancel
  simp only [blind_order, Order.untimed_side, Order.untimed_price, blind_level, apply_ite (blind watched)]
  simp only [updateBest] at bid ask
  rw [bid, ask]
  rfl

theorem blind_cancelOrder (id : OrderId) : (book.blind watched).cancelOrder id =
    ((book.cancelOrder id).1, (book.cancelOrder id).2.blind watched) := by
  unfold cancelOrder
  rw [blind_findLive]
  cases book.findLive id with
  | none => rfl
  | some slot =>
      dsimp only
      rw [blind_destroy, blind_rescanAfterCancel, blind_removeFromLevel, ← blind_setStatus]
      rfl

end Calls

namespace Alike

variable {watched : Bool} {book other : OrderBook} (alike : Alike watched book other)

include alike

theorem addOrder {msg stamped : OrderMessage} (same : msg.untimed = stamped.untimed) :
    (book.addOrder msg).1 = (other.addOrder stamped).1 ∧
      Alike watched (book.addOrder msg).2 (other.addOrder stamped).2 := by
  obtain ⟨slot, after⟩ := book.blind_addOrder watched msg
  obtain ⟨otherSlot, otherAfter⟩ := other.blind_addOrder watched stamped
  rw [alike, same] at slot after
  exact ⟨slot.symm.trans otherSlot, after.symm.trans otherAfter⟩

theorem cancelOrder (id : OrderId) : (book.cancelOrder id).1 = (other.cancelOrder id).1 ∧
    Alike watched (book.cancelOrder id).2 (other.cancelOrder id).2 := by
  have cancelled := book.blind_cancelOrder watched id
  rw [alike, other.blind_cancelOrder watched id] at cancelled
  exact ⟨(congrArg Prod.fst cancelled).symm, (congrArg Prod.snd cancelled).symm⟩

/-- The order in this slot gets a new quantity. -/
theorem setQuantity (slot : Ptr) (newQty : Quantity) :
    Alike watched (book.setData slot { (book.order slot).toOrderData with
        quantity := (book.order slot).filledQuantity + newQty })
      (other.setData slot { (other.order slot).toOrderData with
        quantity := (other.order slot).filledQuantity + newQty }) := by
  have data := congrArg (fun order : Order => { order.toOrderData with
    quantity := order.filledQuantity + newQty }) (alike.order slot)
  unfold Alike
  rw [blind_setData, blind_setData, alike]
  exact congrArg (setData (other.blind watched) slot) data

theorem ticked : Alike watched { book with toBookCore := book.tick } { other with toBookCore := other.tick } := by
  have core (book : OrderBook) : book.tick.blind watched =
      (if watched then (book.blind watched).tick else (book.blind watched).toBookCore) := by
    cases watched <;> rfl
  have ticks (book : OrderBook) : { book with toBookCore := book.tick }.blind watched =
      { book.blind watched with toBookCore := book.tick.blind watched } := rfl
  unfold Alike
  rw [ticks, ticks, core, core, alike]

theorem findLive (id : OrderId) : book.findLive id = other.findLive id := by
  rw [← book.blind_findLive watched, alike, blind_findLive]

/-- The message of a replacement carries a fresh time. -/
theorem modifyOrder (id : OrderId) (newQty : Quantity) :
    (book.modifyOrder id newQty).1 = (other.modifyOrder id newQty).1 ∧
      Alike watched (book.modifyOrder id newQty).2 (other.modifyOrder id newQty).2 := by
  unfold OrderBook.modifyOrder
  rw [alike.findLive]
  cases other.findLive id with
  | none => exact ⟨rfl, alike⟩
  | some slot =>
      have remaining : book.remaining slot = other.remaining slot := by
        rw [← book.blind_remaining watched, alike, blind_remaining]
      dsimp only
      rw [remaining]
      by_cases fits : newQty ≤ other.remaining slot
      · rw [if_pos fits, if_pos fits]
        refine ⟨rfl, ?_⟩
        have deducted : Alike watched (book.deductTotal slot (other.remaining slot - newQty))
            (other.deductTotal slot (other.remaining slot - newQty)) := by
          unfold Alike
          rw [blind_deductTotal, blind_deductTotal, alike]
        exact deducted.setQuantity slot newQty
      · rw [if_neg fits, if_neg fits]
        obtain ⟨-, cancelled⟩ := alike.cancelOrder id
        obtain ⟨side, price, -⟩ := cancelled.same_order slot
        refine cancelled.ticked.addOrder ?_
        dsimp only [OrderMessage.untimed]
        rw [side, price]

/-- A call answers alike, and it leaves the books alike. -/
theorem call {call stamped : Call} (same : call.untimed = stamped.untimed) :
    book.result call = other.result stamped ∧ (book.call call).1 = (other.call stamped).1 ∧
      Alike watched (book.call call).2 (other.call stamped).2 := by
  cases call with
  | add msg =>
      cases stamped with
      | add stamped =>
          obtain ⟨slot, after⟩ := alike.addOrder (Call.add.inj same)
          exact ⟨congrArg Result.order slot, congrArg Option.isSome slot, after⟩
      | cancel id => exact Call.noConfusion same
      | modify id newQty => exact Call.noConfusion same
  | cancel id =>
      cases stamped with
      | add stamped => exact Call.noConfusion same
      | cancel other =>
          obtain rfl := Call.cancel.inj same
          obtain ⟨answer, after⟩ := alike.cancelOrder id
          exact ⟨congrArg Result.cancelled answer, answer, after⟩
      | modify id newQty => exact Call.noConfusion same
  | modify id newQty =>
      cases stamped with
      | add stamped => exact Call.noConfusion same
      | cancel id => exact Call.noConfusion same
      | modify id newQty =>
          obtain ⟨rfl, rfl⟩ := Call.modify.inj same
          obtain ⟨slot, after⟩ := alike.modifyOrder _ _
          exact ⟨congrArg Result.order slot, congrArg Option.isSome slot, after⟩

end Alike

end OrderBook

end OrderEngine
