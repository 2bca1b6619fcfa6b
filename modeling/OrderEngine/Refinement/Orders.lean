import OrderEngine.Refinement.Match

namespace OrderEngine

open Library

namespace OrderBook

/-- Both branches of `rest_order` compare in the direction of their own wing. -/
def improveBest (book : OrderBook) (wing : Wing) (price : Int) : OrderBook :=
  if book.best wing = kInvalidPrice ∨ wing.rank price < wing.rank (book.best wing) then
    { book with toBookCore := book.setBest wing price }
  else book

def pushBack (book : OrderBook) (wing : Wing) (price : Int) (slot : Ptr) : OrderBook :=
  (book.setLevel wing price
      ((book.level wing price).pushBack book.orderPool.slots slot).1).setSlots
    ((book.level wing price).pushBack book.orderPool.slots slot).2

theorem restOrder_eq (book : OrderBook) (slot : Ptr) (inside : InTicks (book.order slot).price) :
    book.restOrder slot =
      (book.pushBack (book.order slot).side.wing (book.order slot).price slot).improveBest
        (book.order slot).side.wing (book.order slot).price := by
  simp only [restOrder, touch_of_inTicks inside]
  cases (book.order slot).side.wing with
  | bid => simp only [improveBest, Wing.rank, neg_lt_neg_iff, gt_iff_lt]; rfl
  | ask => rfl

/-- A new order is written to its slot and to the map before it is matched. -/
def register (book : OrderBook) (pool : MemoryPool Order) (slot : Ptr) (msg : OrderMessage) : OrderBook :=
  { { book with orderPool := pool }.setData slot
      { id := msg.orderId, side := msg.side, status := .active, price := msg.price,
        quantity := msg.quantity, filledQuantity := 0, timestamp := msg.arrivalCycles,
        entryNanos := book.rdtsc } with
    toBookCore := book.tick.setSlot msg.orderId (some slot) }

theorem addOrder_eq {book : OrderBook} {pool : MemoryPool Order} {slot : Ptr} (msg : OrderMessage)
    (served : book.orderPool.construct {} = (some slot, pool)) : book.addOrder msg =
      (some slot,
        if (((book.register pool slot msg).match slot).order slot).status = .filled then
          (book.register pool slot msg).match slot
        else ((book.register pool slot msg).match slot).restOrder slot) := by
  rw [addOrder, served]
  simp only [ne_eq, ite_not]
  rfl

end OrderBook

namespace Represents

variable {book : OrderBook} {ledger : Ledger} {slot : Ptr}

/-- The pool serves the first free slot, and its construction touches no linked order. -/
theorem construct (same : Represents book ledger) {rest : List Ptr} (next : ledger.free = slot :: rest)
    (fresh : ∀ wing price, slot ∉ ledger.queue wing price) :
    ∃ pool, book.orderPool.construct {} = (some slot, pool) ∧
      Represents { book with orderPool := pool }
        { ledger.setData slot {} with free := rest } := by
  have free := same.free
  rw [next, MemoryPool.free] at free
  cases top : book.orderPool.freeTop with
  | zero =>
      rw [top] at free
      simp at free
  | succ height =>
      rw [top, stack_succ, List.cons.injEq] at free
      obtain ⟨served, remaining⟩ := free
      refine ⟨{ book.orderPool with
        freeTop := height
        slots := Function.update book.orderPool.slots slot {} }, ?_, ?_⟩
      · simp [MemoryPool.construct, MemoryPool.acquire, top, served]
      · have other {slot' : Ptr} (different : slot' ≠ slot) :
            Function.update book.orderPool.slots slot {} slot' = book.order slot' :=
          Function.update_of_ne different _ _
        exact {
          core := same.core
          linked := fun wing price => same.frame fun slot' member => by
            apply other
            intro equal
            subst equal
            exact fresh wing price member
          count := same.count
          total := same.total
          data := fun slot' => by
            by_cases here : slot' = slot
            · subst here
              simp [OrderBook.order, Ledger.setData]
            · have kept := same.data slot'
              rw [← other here] at kept
              exact kept.trans (Function.update_of_ne here _ _).symm
          free := remaining }

/-- An order that joins its level may become the best of its wing. -/
theorem restOrder (same : Represents book ledger) (shelved : ledger.Shelved)
    (fresh : ∀ wing price, slot ∉ ledger.queue wing price) (inside : InTicks (ledger.price slot)) :
    Represents (book.restOrder slot) (ledger.rest slot) := by
  have pushed : Represents (book.pushBack (ledger.wing slot) (ledger.price slot) slot) _ :=
    same.pushBack shelved fresh (ledger.wing slot) (ledger.price slot)
  have best : (book.pushBack (ledger.wing slot) (ledger.price slot) slot).best (ledger.wing slot) =
      ledger.best (ledger.wing slot) := pushed.best_eq _
  rw [OrderBook.restOrder_eq _ _ (by rw [same.price_eq]; exact inside), same.wing_eq, same.price_eq,
    OrderBook.improveBest, Ledger.rest, best]
  by_cases better : ledger.best (ledger.wing slot) = kInvalidPrice ∨
      (ledger.wing slot).rank (ledger.price slot) <
        (ledger.wing slot).rank (ledger.best (ledger.wing slot))
  · rw [if_pos better, if_pos better]
    exact pushed.setCore (congrArg (BookCore.setBest · _ _) pushed.core)
  · rw [if_neg better, if_neg better]
    exact pushed

/-- A pool without a free slot serves nothing. -/
theorem refused (same : Represents book ledger) (free : ledger.free = []) :
    book.orderPool.construct {} = (none, book.orderPool) := by
  have empty : book.orderPool.freeTop = 0 := by
    have shown := same.free
    rw [free, MemoryPool.free, stack_eq_nil] at shown
    exact shown
  simp [MemoryPool.construct, MemoryPool.acquire, empty]

theorem enroll (same : Represents book ledger) {rest : List Ptr} (next : ledger.free = slot :: rest)
    (fresh : ∀ wing price, slot ∉ ledger.queue wing price) (msg : OrderMessage) :
    ∃ pool, book.orderPool.construct {} = (some slot, pool) ∧
      Represents (book.register pool slot msg) (ledger.enroll slot rest msg) := by
  obtain ⟨pool, served, built⟩ := same.construct next fresh
  refine ⟨pool, served, ?_⟩
  have written := built.setData slot
    { id := msg.orderId, side := msg.side, status := .active, price := msg.price,
      quantity := msg.quantity, filledQuantity := 0, timestamp := msg.arrivalCycles,
      entryNanos := book.rdtsc }
  have core : book.tick.setSlot msg.orderId (some slot) =
      ledger.tick.setSlot msg.orderId (some slot) := by rw [same.core]
  refine (written.setCore core).congr rfl rfl rfl ?_ rfl
  rw [same.core]
  exact Function.update_idem ..

/-- A cancel scans again exactly when the ledger does. -/
theorem rescanAfterCancel (same : Represents book ledger) (slot : Ptr)
    (inside : InTicks (ledger.price slot)) :
    Represents (book.rescanAfterCancel slot) (ledger.rescanAfterCancel slot) := by
  have side := same.side_eq slot
  have price := same.price_eq slot
  simp only [OrderBook.rescanAfterCancel, Ledger.rescanAfterCancel, side, price, same.empty_eq,
    List.isEmpty_iff]
  by_cases empty : ledger.queue (ledger.data slot).side.wing (ledger.price slot) = []
  · rw [if_pos empty]
    by_cases buy : (ledger.data slot).side = Side.buy
    · have wing : (ledger.data slot).side.wing = .bid := if_pos buy
      have other : (ledger.data slot).side ≠ Side.sell := by
        rw [buy]
        decide
      rw [wing] at empty ⊢
      by_cases top : ledger.price slot = ledger.best .bid
      · rw [if_pos ⟨buy, top.trans (same.best_eq .bid).symm⟩, if_pos ⟨empty, .inl buy, top⟩]
        exact same.updateBest .bid (top ▸ inside)
      · rw [if_neg, if_neg (fun both => other both.1), if_neg (fun both => top both.2.2)]
        · exact same
        · exact fun both => top (both.2.trans (same.best_eq .bid))
    · have wing : (ledger.data slot).side.wing = .ask := if_neg buy
      rw [wing] at empty ⊢
      rw [if_neg (fun both => buy both.1)]
      by_cases top : (ledger.data slot).side = Side.sell ∧ ledger.price slot = ledger.best .ask
      · rw [if_pos ⟨top.1, top.2.trans (same.best_eq .ask).symm⟩,
          if_pos ⟨empty, .inr top.1, top.2⟩]
        exact same.updateBest .ask (top.2 ▸ inside)
      · rw [if_neg, if_neg]
        · exact same
        · exact fun both => top ⟨both.2.1.resolve_left buy, both.2.2⟩
        · exact fun both => top ⟨both.1, both.2.trans (same.best_eq .ask)⟩
  · rw [if_neg empty, if_neg (fun both => empty both.1)]
    exact same

theorem findLive_eq (same : Represents book ledger) (id : OrderId) :
    book.findLive id = ledger.findLive id := by
  rw [OrderBook.findLive, Ledger.findLive, same.core]
  cases ledger.orderMap (mapSlot id) with
  | none => rfl
  | some slot =>
      have dead : ((ledger.data slot).status ≠ .active ∧ (ledger.data slot).status ≠ .partiallyFilled) ↔
          ¬ (ledger.data slot).live := not_or.symm
      simp only [same.id_eq, same.status_eq]
      by_cases here : (ledger.data slot).id = id
      · rw [if_neg (fun other => other here)]
        by_cases live : (ledger.data slot).live
        · rw [if_neg (fun both => dead.mp both live), if_pos ⟨here, live⟩]
        · rw [if_pos (dead.mpr live), if_neg (fun both => live both.2)]
      · rw [if_pos here, if_neg (fun both => here both.1)]

/-- The statements of `cancel_order` add up to one step of the ledger. -/
theorem cancel (same : Represents book ledger) (inv : ledger.Inv none) {id : OrderId}
    (found : ledger.findLive id = some slot) (linked : ledger.Linked slot)
    (named : (ledger.data slot).id = id) :
    (book.cancelOrder id).1 = true ∧ Represents (book.cancelOrder id).2 (ledger.withdraw slot) := by
  have inside : InTicks (ledger.price slot) := inv.inTicks linked
  let marked : Ledger := { ledger.setStatus slot .cancelled with
    toBookCore := ledger.setSlot ((ledger.setStatus slot .cancelled).data slot).id none }
  have core : book.setSlot id none =
      ledger.setSlot ((ledger.setStatus slot .cancelled).data slot).id none := by
    rw [same.core, ← named, Ledger.setStatus, Ledger.setData, Ledger.withData_data, Function.update_self]
  have wing : ∀ other, marked.wing other = ledger.wing other := ledger.setStatus_wing .cancelled
  have price : ∀ other, marked.price other = ledger.price other := ledger.setStatus_price .cancelled
  have cleared : Represents { book.setStatus slot .cancelled with toBookCore := book.setSlot id none }
      marked := (same.setStatus slot .cancelled).setCore core
  have removed := cleared.removeFromLevel (inv.toShelved.congr rfl wing price)
    (by rw [price]; exact inside) (by rw [wing, price]; exact linked)
  have rescanned := removed.rescanAfterCancel slot (by
    rw [Ledger.removeFromLevel, Ledger.price, Ledger.setLevel_data, ← Ledger.price, price]
    exact inside)
  have destroyed := rescanned.destroy slot
  rw [OrderBook.cancelOrder, same.findLive_eq, found]
  exact ⟨rfl, destroyed⟩

/-- A smaller quantity is written in place. -/
theorem shrink (same : Represents book ledger) (inside : InTicks (ledger.price slot)) (newQty : Quantity) :
    Represents
      ((book.deductTotal slot (book.remaining slot - newQty)).setData slot
        { ((book.deductTotal slot (book.remaining slot - newQty)).order slot).toOrderData with
          quantity := ((book.deductTotal slot (book.remaining slot - newQty)).order slot).filledQuantity +
            newQty })
      (ledger.shrink slot newQty) := by
  have deducted := same.deductTotal inside ((ledger.data slot).remaining - newQty)
  rw [same.remaining_eq, deducted.data slot]
  exact deducted.setData slot _

/-- The book adds an order as the ledger does: it refuses, fills or rests it. -/
theorem add (same : Represents book ledger) (inv : ledger.Inv none) {msg : OrderMessage}
    (inside : InTicks msg.price) (positive : 0 < msg.quantity) :
    ∃ after, ledger.AddRun msg (book.addOrder msg).1 after ∧ Represents (book.addOrder msg).2 after ∧
      after.Inv none := by
  cases free : ledger.free with
  | nil =>
      rw [OrderBook.addOrder, same.refused free]
      exact ⟨ledger, .full free, same, inv⟩
  | cons slot rest =>
      obtain ⟨pool, served, enrolled⟩ :=
        same.enroll free (fun _ _ => inv.fresh (by simp [free])) msg
      have arrived := inv.enroll free inside positive
      obtain ⟨after, matched, invAfter, run, stopped, tight⟩ := enrolled.match arrived
      have arrivedAfter := invAfter.arrived rfl
      rw [OrderBook.addOrder_eq msg served, matched.status_eq]
      by_cases done : (after.data slot).status = .filled
      · rw [if_pos done]
        exact ⟨after, .filled free run stopped tight done, matched, invAfter.complete done⟩
      · rw [if_neg done]
        refine ⟨after.rest slot, .rested free run stopped tight done, ?_,
          invAfter.rest (arrivedAfter.live_of_open done)⟩
        refine matched.restOrder invAfter.toShelved (fun wing price member => ?_) arrivedAfter.inTicks
        exact arrivedAfter.unlinked (invAfter.linked member)

end Represents

end OrderEngine
