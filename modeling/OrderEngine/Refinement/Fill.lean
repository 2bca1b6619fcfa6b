import OrderEngine.Ledger.Fill
import OrderEngine.Refinement.Represents

namespace OrderEngine

open Library

namespace Ledger

variable (ledger : Ledger) (resting aggressor : Ptr) (qty : Quantity)

/-- Both quantities are written before either status follows. -/
def added : Ptr → OrderData :=
  Function.update (Function.update ledger.data resting
    { ledger.data resting with filledQuantity := (ledger.data resting).filledQuantity + qty })
    aggressor { ledger.data aggressor with filledQuantity := (ledger.data aggressor).filledQuantity + qty }

variable {resting aggressor} in
theorem added_resting (different : resting ≠ aggressor) :
    ledger.added resting aggressor qty resting = { ledger.data resting with
      filledQuantity := (ledger.data resting).filledQuantity + qty } := by
  rw [added, Function.update_of_ne different, Function.update_self]

theorem added_aggressor : ledger.added resting aggressor qty aggressor = { ledger.data aggressor with
    filledQuantity := (ledger.data aggressor).filledQuantity + qty } :=
  Function.update_self ..

theorem added_field {Field : Type} (field : OrderData → Field)
    (same : ∀ data : OrderData, field { data with filledQuantity := data.filledQuantity + qty } = field data)
    (slot : Ptr) : field (ledger.added resting aggressor qty slot) = field (ledger.data slot) := by
  have taken := update_field field ledger.data (same (ledger.data resting))
  exact (update_field field _ ((same _).trans (taken aggressor).symm) slot).trans (taken slot)

theorem added_side (slot : Ptr) : (ledger.added resting aggressor qty slot).side = (ledger.data slot).side :=
  ledger.added_field resting aggressor qty OrderData.side (fun _ => rfl) slot

theorem added_price (slot : Ptr) : (ledger.added resting aggressor qty slot).price = ledger.price slot :=
  ledger.added_field resting aggressor qty OrderData.price (fun _ => rfl) slot

variable {resting aggressor} in
/-- Each of the two orders is written twice, and the second write is the one that stays. -/
theorem fill_data_of_added (different : resting ≠ aggressor) :
    Function.update (Function.update (ledger.added resting aggressor qty) resting
      ((ledger.data resting).filledBy qty)) aggressor ((ledger.data aggressor).filledBy qty) =
    Function.update (Function.update ledger.data resting ((ledger.data resting).filledBy qty)) aggressor
      ((ledger.data aggressor).filledBy qty) := by
  rw [added, Function.update_comm different.symm, Function.update_idem, Function.update_idem]

/-- The resting order's level loses the quantity, and the order leaves it when it is completed. -/
def taken : Ledger :=
  if (ledger.data resting).completedBy qty then (ledger.deductTotal resting qty).retire resting
  else ledger.deductTotal resting qty

end Ledger

namespace Represents

variable {book : OrderBook} {ledger : Ledger}

/-- A completed resting order leaves its level with nothing left to subtract. -/
theorem settleResting_full (same : Represents book ledger) (shelved : ledger.Shelved) {slot : Ptr}
    (member : slot ∈ ledger.queue (ledger.wing slot) (ledger.price slot))
    (inside : InTicks (ledger.price slot))
    (full : (ledger.data slot).filledQuantity = (ledger.data slot).quantity) :
    Represents (book.settleResting slot) ((ledger.setStatus slot .filled).retire slot) := by
  have reached : (book.order slot).filledQuantity ≥ (book.order slot).quantity := by
    rw [same.data slot, full]
    exact UInt64.le_refl _
  have removed := (same.setStatus slot .filled).removeFromLevel (shelved.setStatus .filled)
    (by simpa using inside) (by simpa using member)
  have nothing : ((ledger.setStatus slot .filled).data slot).remaining = 0 := by
    simp [Ledger.setStatus, Ledger.setData, OrderData.remaining, full]
  rw [Ledger.removeFromLevel, nothing, UInt64.sub_zero] at removed
  have id := removed.id_eq slot
  have core := removed.core
  simp only [OrderBook.settleResting, if_pos reached]
  refine (removed.setCore ?_).destroy slot
  rw [core, id]

theorem settleResting_partial (same : Represents book ledger) {slot : Ptr}
    (left : ¬ (ledger.data slot).filledQuantity ≥ (ledger.data slot).quantity) :
    Represents (book.settleResting slot) (ledger.setStatus slot .partiallyFilled) := by
  simp only [OrderBook.settleResting, same.data slot, if_neg left]
  exact same.setStatus slot _

theorem settleAggressor (same : Represents book ledger) (slot : Ptr) :
    Represents (book.settleAggressor slot) (ledger.setStatus slot
      (if (ledger.data slot).filledQuantity ≥ (ledger.data slot).quantity then .filled
        else .partiallyFilled)) := by
  simp only [OrderBook.settleAggressor, same.data slot]
  split
  · exact same.setStatus slot _
  · exact same.setStatus slot _

theorem recordTrade (same : Represents book ledger) (resting aggressor : Ptr) (qty : Quantity) :
    Represents (book.recordTrade resting aggressor qty)
      (ledger.recordTrade resting aggressor qty) := by
  apply same.setCore
  rw [same.core, same.data, same.data]

section Fill

variable (same : Represents book ledger) (shelved : ledger.Shelved) {resting aggressor : Ptr}
  {qty : Quantity} (different : resting ≠ aggressor)
  (member : resting ∈ ledger.queue (ledger.wing resting) (ledger.price resting))
  (inside : InTicks (ledger.price resting))
  (whole : (ledger.data resting).completedBy qty →
    (ledger.data resting).filledQuantity + qty = (ledger.data resting).quantity)

include same different in
theorem added : Represents ((book.addFilled resting qty).addFilled aggressor qty)
    (ledger.withData (ledger.added resting aggressor qty)) := by
  have twice := (same.addFilled resting qty).addFilled aggressor qty
  simpa only [Ledger.setData, Ledger.withData, Ledger.added, Function.update_of_ne different.symm] using twice

include same shelved different member inside whole in
/-- The level follows the resting order before the aggressor's status is set. -/
theorem taken : Represents
    ((((book.addFilled resting qty).addFilled aggressor qty).deductTotal resting qty).settleResting resting)
    ((ledger.taken resting qty).withData (Function.update (ledger.added resting aggressor qty) resting
      ((ledger.data resting).filledBy qty))) := by
  have price := ledger.added_price resting aggressor qty
  have wing (slot : Ptr) : (ledger.added resting aggressor qty slot).side.wing = ledger.wing slot :=
    congrArg Side.wing (ledger.added_side resting aggressor qty slot)
  have deducted := (same.added different).deductTotal
    (by rw [Ledger.price, Ledger.withData_data, price]; exact inside) qty
  rw [Ledger.withData_deductTotal (ledger.added_side ..) (price resting)] at deducted
  have queue : ((ledger.deductTotal resting qty).withData (ledger.added resting aggressor qty)).queue =
      ledger.queue := by simp [Ledger.deductTotal]
  have dataResting := ledger.added_resting qty different
  rw [Ledger.taken]
  by_cases full : (ledger.data resting).completedBy qty
  · have settled := deducted.settleResting_full (shelved.congr queue wing price)
      (by rw [queue, Ledger.wing, Ledger.withData_data, wing, Ledger.price, Ledger.withData_data, price]
          exact member)
      (by rw [Ledger.price, Ledger.withData_data, price]; exact inside)
      (by rw [Ledger.withData_data, dataResting]; exact whole full)
    have marked : { ledger.added resting aggressor qty resting with status := OrderStatus.filled } =
        (ledger.data resting).filledBy qty := by
      rw [dataResting, OrderData.filledBy, if_pos full]
    rw [Ledger.setStatus, Ledger.setData, Ledger.withData_data, marked, Ledger.withData_withData,
      Ledger.withData_retire (by simp [Ledger.deductTotal]) (by simp [Ledger.deductTotal])
        (by simp [Ledger.deductTotal])] at settled
    rw [if_pos full]
    exact settled
  · have settled := deducted.settleResting_partial
      (by rw [Ledger.withData_data, dataResting]; exact full)
    have marked : { ledger.added resting aggressor qty resting with status := OrderStatus.partiallyFilled } =
        (ledger.data resting).filledBy qty := by
      rw [dataResting, OrderData.filledBy, if_neg full]
    rw [Ledger.setStatus, Ledger.setData, Ledger.withData_data, marked, Ledger.withData_withData] at settled
    rw [if_neg full]
    exact settled

include same shelved different member inside whole in
/-- The statements of `fill` add up to one step of the ledger. -/
theorem fill : Represents (book.fill resting aggressor qty) (ledger.fill resting aggressor qty) := by
  have settled := same.taken shelved different member inside whole
  have finished := (settled.settleAggressor aggressor).recordTrade resting aggressor qty
  -- The aggressor's data are still those of the first write when its status is set.
  have dataAggressor : Function.update (ledger.added resting aggressor qty) resting
      ((ledger.data resting).filledBy qty) aggressor = { ledger.data aggressor with
        filledQuantity := (ledger.data aggressor).filledQuantity + qty } := by
    rw [Function.update_of_ne different.symm, Ledger.added_aggressor]
  rw [Ledger.setStatus, Ledger.setData, Ledger.withData_withData, Ledger.withData_data, dataAggressor]
    at finished
  rw [Ledger.fill, ← ledger.fill_data_of_added qty different]
  exact finished

end Fill

end Represents

end OrderEngine
