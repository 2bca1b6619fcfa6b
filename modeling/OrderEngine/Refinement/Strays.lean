import OrderEngine.Refinement.Watch

namespace OrderEngine

open Library

namespace OrderBook

section Frames

variable (book : OrderBook) (slot other : Ptr)

@[simp] theorem setSlots_free (slots : Slots) : (book.setSlots slots).orderPool.free = book.orderPool.free :=
  rfl

@[simp] theorem setStatus_free (status : OrderStatus) :
    (book.setStatus slot status).orderPool.free = book.orderPool.free := rfl

@[simp] theorem addFilled_free (qty : Quantity) :
    (book.addFilled slot qty).orderPool.free = book.orderPool.free := rfl

@[simp] theorem touch_orderPool (price : Int) : (book.touch price).orderPool = book.orderPool := by
  unfold touch
  split <;> rfl

@[simp] theorem deductTotal_orderPool (qty : Quantity) :
    (book.deductTotal slot qty).orderPool = book.orderPool := by
  simp [deductTotal]

@[simp] theorem removeFromLevel_free : (book.removeFromLevel slot).orderPool.free = book.orderPool.free := by
  simp only [removeFromLevel, setSlots_free, setLevel_orderPool, touch_orderPool]

/-- An assignment to an order leaves the links of every order alone. -/
@[simp] theorem setData_links (data : OrderData) :
    ((book.setData slot data).order other).toIntrusiveListNode = (book.order other).toIntrusiveListNode :=
  update_field Order.toIntrusiveListNode book.orderPool.slots (by rfl) other

@[simp] theorem setStatus_links (status : OrderStatus) :
    ((book.setStatus slot status).order other).toIntrusiveListNode = (book.order other).toIntrusiveListNode :=
  book.setData_links slot other _

@[simp] theorem addFilled_links (qty : Quantity) :
    ((book.addFilled slot qty).order other).toIntrusiveListNode = (book.order other).toIntrusiveListNode :=
  book.setData_links slot other _

@[simp] theorem deductTotal_links (qty : Quantity) :
    ((book.deductTotal slot qty).order other).toIntrusiveListNode = (book.order other).toIntrusiveListNode := by
  rw [order, deductTotal_orderPool]
  rfl

@[simp] theorem settleAggressor_core : (book.settleAggressor slot).toBookCore = book.toBookCore := by
  unfold settleAggressor
  split <;> rfl

@[simp] theorem settleAggressor_free : (book.settleAggressor slot).orderPool.free = book.orderPool.free := by
  unfold settleAggressor
  split <;> rfl

end Frames

/-- Neither an order nor its neighbours are free. -/
structure Attached (book : OrderBook) (slot : Ptr) : Prop where
  own : slot ∉ book.orderPool.free
  prev : ∀ other, (book.order slot).toIntrusiveListNode.prev = some other → other ∉ book.orderPool.free
  next : ∀ other, (book.order slot).toIntrusiveListNode.next = some other → other ∉ book.orderPool.free

theorem Attached.congr {book other : OrderBook} {slot : Ptr} (attached : book.Attached slot)
    (free : other.orderPool.free = book.orderPool.free)
    (links : (other.order slot).toIntrusiveListNode = (book.order slot).toIntrusiveListNode) :
    other.Attached slot where
  own := by rw [free]; exact attached.own
  prev := by rw [free, links]; exact attached.prev
  next := by rw [free, links]; exact attached.next

end OrderBook

namespace Ledger

variable (ledger : Ledger) (resting : Ptr) (qty : Quantity)

theorem taken_free : (ledger.taken resting qty).free =
    if (ledger.data resting).completedBy qty then resting :: ledger.free else ledger.free := by
  unfold taken
  split <;> rfl

theorem taken_released : (ledger.taken resting qty).released =
    if (ledger.data resting).completedBy qty then ledger.released ++ [(resting, ledger.free)]
    else ledger.released := by
  unfold taken
  split <;> rfl

theorem taken_tradeCb : (ledger.taken resting qty).tradeCb = ledger.tradeCb := by
  unfold taken
  split <;> rfl

end Ledger

/-- The links of a linked order lead to linked orders, which hold their slots. -/
theorem Represents.attached {book : OrderBook} {ledger : Ledger} {pending : Option Ptr} {slot : Ptr}
    (same : Represents book ledger) (inv : ledger.Inv pending) (linked : ledger.Linked slot) :
    book.Attached slot where
  own := by
    rw [same.free]
    exact (inv.used linked).2
  prev := fun other link => by
    rw [same.free]
    exact (inv.used (inv.linked (same.neighbour_mem linked (.inl link)))).2
  next := fun other link => by
    rw [same.free]
    exact (inv.used (inv.linked (same.neighbour_mem linked (.inr link)))).2

namespace Watch

variable {watch : Watch} {slot : Ptr}

@[simp] theorem update_strays (effect : OrderBook → OrderBook) : (watch.update effect).strays = watch.strays := rfl

theorem use_of_held (held : slot ∉ watch.book.orderPool.free) : watch.use slot = watch :=
  if_neg fun released => held released.2

theorem useLink_of_held {link : Option Ptr} (held : ∀ slot, link = some slot → slot ∉ watch.book.orderPool.free) :
    watch.useLink link = watch := by
  cases link with
  | none => rfl
  | some slot => exact use_of_held (held slot rfl)

theorem destroy_of_held (held : slot ∉ watch.book.orderPool.free) :
    watch.destroy slot = watch.update fun book => book.destroy slot := by
  rw [destroy, use_of_held held]

/-- An attached order leaves its level without a stray use. -/
theorem removeFromLevel_of_attached (attached : watch.book.Attached slot) :
    watch.removeFromLevel slot = watch.update fun book => book.removeFromLevel slot := by
  unfold removeFromLevel
  simp only [use_of_held attached.own]
  rw [useLink_of_held attached.prev, useLink_of_held attached.next]

/-- Every use of a completed order comes before its release. -/
theorem settleResting_of_attached (attached : watch.book.Attached slot) :
    watch.settleResting slot = watch.update fun book => book.settleResting slot := by
  have own := attached.own
  have marked : (watch.update fun book => book.setStatus slot .filled).book.Attached slot :=
    attached.congr rfl (watch.book.setStatus_links slot slot .filled)
  have removed : slot ∉ ((watch.update fun book => book.setStatus slot .filled).update fun book =>
      book.removeFromLevel slot).book.orderPool.free := by
    simp only [update_book, OrderBook.removeFromLevel_free, OrderBook.setStatus_free]
    exact own
  unfold settleResting OrderBook.settleResting
  simp only [use_of_held own]
  by_cases full : (watch.book.order slot).filledQuantity ≥ (watch.book.order slot).quantity
  · rw [if_pos full, removeFromLevel_of_attached marked, use_of_held removed]
    rw [destroy_of_held]
    · simp only [update, if_pos full]
    · exact removed
  · rw [if_neg full]
    simp only [update, if_neg full]

section Fill

variable {ledger : Ledger} {resting aggressor : Ptr} {qty : Quantity}

/-- The statements of a fill before the aggressor's status is set. -/
def take (watch : Watch) (resting aggressor : Ptr) (qty : Quantity) : Watch :=
  watch.update fun book =>
    (((book.addFilled resting qty).addFilled aggressor qty).deductTotal resting qty).settleResting resting

/-- No use before the report strays from an attached resting order. -/
theorem fill_of_attached (attached : watch.book.Attached resting) (held : aggressor ∉ watch.book.orderPool.free) :
    watch.fill resting aggressor qty = (((watch.take resting aggressor qty).use aggressor).update fun book =>
      book.settleAggressor aggressor).recordTrade resting aggressor qty := by
  let first := watch.update fun book => book.addFilled resting qty
  let second := first.update fun book => book.addFilled aggressor qty
  let third := second.update fun book => book.deductTotal resting qty
  have here : first.use aggressor = first := use_of_held held
  have there : second.use resting = second := use_of_held attached.own
  have settled : third.settleResting resting = watch.take resting aggressor qty := by
    apply settleResting_of_attached
    apply attached.congr
    · simp [third, second, first]
    · simp [third, second, first]
  simp only [fill, use_of_held attached.own]
  rw [here, there, settled]

theorem recordTrade_strays (held : aggressor ∉ watch.book.orderPool.free) :
    (watch.recordTrade resting aggressor qty).strays =
      if watch.book.tradeCb = true ∧ watch.book.Released resting then watch.strays ++ [resting]
      else watch.strays := by
  unfold recordTrade
  by_cases reported : watch.book.tradeCb = true
  · rw [if_pos reported, use_of_held (by rw [use_book]; exact held), update_strays, use]
    simp only [reported, true_and]
    split <;> rfl
  · rw [if_neg reported, if_neg fun both => reported both.1, update_strays]

/-- A fill strays exactly when it reports the trade of an order that it completes. -/
theorem fill_strays (same : Represents watch.book ledger) (inv : ledger.Inv (some aggressor))
    (linked : ledger.Linked resting) (whole : (ledger.data resting).completedBy qty →
      (ledger.data resting).filledQuantity + qty = (ledger.data resting).quantity) :
    (watch.fill resting aggressor qty).strays =
      if ledger.tradeCb = true ∧ (ledger.data resting).completedBy qty then watch.strays ++ [resting]
      else watch.strays := by
  have arrived := inv.arrived rfl
  have different : resting ≠ aggressor := arrived.ne linked
  have held : aggressor ∉ watch.book.orderPool.free := by
    rw [same.free]
    exact arrived.used.2
  have settled : Represents (watch.take resting aggressor qty).book _ :=
    same.taken inv.toShelved different linked (inv.inTicks linked) whole
  have free : (watch.take resting aggressor qty).book.orderPool.free = _ :=
    settled.free.trans (ledger.taken_free resting qty)
  have released : (watch.take resting aggressor qty).book.released = _ :=
    (congrArg BookCore.released settled.core).trans (ledger.taken_released resting qty)
  have tradeCb : (watch.take resting aggressor qty).book.tradeCb = _ :=
    (congrArg BookCore.tradeCb settled.core).trans (ledger.taken_tradeCb resting qty)
  have still : aggressor ∉ (watch.take resting aggressor qty).book.orderPool.free := by
    rw [free]
    rw [same.free] at held
    split
    · exact fun member => (List.mem_cons.mp member).elim different.symm held
    · exact held
  rw [fill_of_attached (same.attached inv linked) held, use_of_held still, recordTrade_strays (by
    rw [update_book, OrderBook.settleAggressor_free]
    exact still)]
  simp only [update_book, OrderBook.Released, OrderBook.settleAggressor_core, OrderBook.settleAggressor_free, free,
    released, tradeCb]
  have own := (inv.used linked).2
  by_cases full : (ledger.data resting).completedBy qty
  · simp [full, take]
  · simp [full, own, take]

end Fill

end Watch

end OrderEngine
