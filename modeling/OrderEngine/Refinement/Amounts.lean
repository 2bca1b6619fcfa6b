import OrderEngine.Refinement.Audit
import OrderEngine.Refinement.Traced

namespace OrderEngine

open Library

/-- A slot that the pool hands out holds the new value, and the other slots are as before. -/
theorem MemoryPool.construct_slots {T : Type} {pool after : MemoryPool T} {value : T} {slot : Ptr}
    (served : pool.construct value = (some slot, after)) : after.slots = Function.update pool.slots slot value := by
  by_cases none : pool.freeTop = 0
  · rw [construct, acquire, if_pos none] at served
    exact absurd (Prod.mk.inj served).1.symm (Option.some_ne_none _)
  · rw [construct, acquire, if_neg none] at served
    obtain ⟨first, rfl⟩ := Prod.mk.inj served
    rw [Option.some.inj first]

namespace OrderBook

/-- These are the two quantities of an order. -/
def amounts (book : OrderBook) (slot : Ptr) : Quantity × Quantity :=
  ((book.order slot).filledQuantity, (book.order slot).quantity)

/-- No order is filled beyond its quantity. -/
def Bounded (book : OrderBook) : Prop := ∀ slot, (book.order slot).filledQuantity ≤ (book.order slot).quantity

theorem Bounded.congr {book other : OrderBook} (bounded : book.Bounded) (same : other.amounts = book.amounts) :
    other.Bounded := by
  intro slot
  obtain ⟨filled, quantity⟩ := Prod.mk.inj (congrFun same slot)
  rw [filled, quantity]
  exact bounded slot

section Frames

variable (book : OrderBook) (slot : Ptr)

/-- The two quantities of an order are among its data. -/
theorem amounts_congr {other : OrderBook}
    (data : ∀ slot, (other.order slot).toOrderData = (book.order slot).toOrderData) :
    other.amounts = book.amounts := by
  funext slot
  exact congrArg (fun data : OrderData => (data.filledQuantity, data.quantity)) (data slot)

@[simp] theorem setStatus_amounts (status : OrderStatus) : (book.setStatus slot status).amounts = book.amounts := by
  funext other
  exact update_field (fun order : Order => (order.filledQuantity, order.quantity)) book.orderPool.slots (by rfl) other

theorem addFilled_other {other : Ptr} (qty : Quantity) (different : other ≠ slot) :
    (book.addFilled slot qty).order other = book.order other :=
  Function.update_of_ne different ..

@[simp] theorem deductTotal_amounts (qty : Quantity) : (book.deductTotal slot qty).amounts = book.amounts := by
  funext other
  rw [amounts, order, deductTotal_orderPool]
  rfl

theorem touch_data (price : Int) (other : Ptr) :
    ((book.touch price).orderPool.slots other).toOrderData = (book.order other).toOrderData := by
  rw [touch_orderPool]
  rfl

@[simp] theorem removeFromLevel_amounts : (book.removeFromLevel slot).amounts = book.amounts := by
  apply amounts_congr
  intro other
  exact (LimitLevel.remove_data _ _ _ other).trans (book.touch_data _ other)

@[simp] theorem restOrder_amounts : (book.restOrder slot).amounts = book.amounts := by
  apply amounts_congr
  intro other
  have pushed (wing : Wing) (price : Int) :=
    (LimitLevel.pushBack_data ((book.touch price).level wing price) _ slot other).trans (book.touch_data price other)
  simp only [restOrder]
  cases (book.order slot).side.wing with
  | bid =>
      dsimp only
      split
      · exact pushed .bid _
      · exact pushed .bid _
  | ask =>
      dsimp only
      split
      · exact pushed .ask _
      · exact pushed .ask _

@[simp] theorem settleAggressor_amounts : (book.settleAggressor slot).amounts = book.amounts := by
  unfold settleAggressor
  split
  · exact book.setStatus_amounts slot _
  · exact book.setStatus_amounts slot _

@[simp] theorem recordTrade_amounts (aggressor : Ptr) (qty : Quantity) :
    (book.recordTrade slot aggressor qty).amounts = book.amounts := rfl

@[simp] theorem destroy_amounts : (book.destroy slot).amounts = book.amounts := rfl

@[simp] theorem updateBest_amounts (wing : Wing) (price : Int) : (book.updateBest wing price).amounts = book.amounts :=
  book.updateBest_keeps wing price (fun book => book.amounts)
    (fun book price => congrArg (fun pool : MemoryPool Order => fun slot =>
      ((pool.slots slot).filledQuantity, (pool.slots slot).quantity)) (book.touch_orderPool price)) fun _ _ _ => rfl

@[simp] theorem rescanAfterCancel_amounts : (book.rescanAfterCancel slot).amounts = book.amounts := by
  simp only [rescanAfterCancel]
  split
  · split
    · exact book.updateBest_amounts .bid _
    · split
      · exact book.updateBest_amounts .ask _
      · rfl
  · rfl

end Frames

end OrderBook

end OrderEngine
