import OrderEngine.Ledger.Symmetry

namespace OrderEngine

open Library

namespace Symmetry

variable (symmetry : Symmetry)

section Ledgers

variable (book : Ledger)

@[simp] theorem ledger_data (slot : Ptr) :
    (symmetry.ledger book).data slot = symmetry.order (book.data slot) := rfl

@[simp] theorem ledger_free : (symmetry.ledger book).free = book.free := rfl

@[simp] theorem ledger_core : (symmetry.ledger book).toBookCore = symmetry.core book.toBookCore := rfl

theorem grid_apply {Cell : Type} (grid : Wing → Int → Cell) (place : Wing) (price : Int) :
    symmetry.grid grid (symmetry.wing place) (symmetry.tick price) = grid place price := by
  unfold Symmetry.grid
  rw [wing_wing, tick_tick]

theorem grid_setCell {Cell : Type} (grid : Wing → Int → Cell) (place : Wing) (price : Int) (cell : Cell) :
    symmetry.grid (setCell grid place price cell) =
      setCell (symmetry.grid grid) (symmetry.wing place) (symmetry.tick price) cell :=
  setCell_turned grid place price cell symmetry.wing_involutive symmetry.tick_involutive

@[simp] theorem ledger_queue (place : Wing) (price : Int) :
    (symmetry.ledger book).queue (symmetry.wing place) (symmetry.tick price) = book.queue place price :=
  symmetry.grid_apply book.queue place price

@[simp] theorem ledger_total (place : Wing) (price : Int) :
    (symmetry.ledger book).total (symmetry.wing place) (symmetry.tick price) = book.total place price :=
  symmetry.grid_apply book.total place price

variable {book} {slot : Ptr}

theorem ledger_wing (valid : book.price slot ≠ kInvalidPrice) :
    (symmetry.ledger book).wing slot = symmetry.wing (book.wing slot) :=
  symmetry.order_wing (book.data slot) valid

theorem ledger_price (valid : book.price slot ≠ kInvalidPrice) :
    (symmetry.ledger book).price slot = symmetry.tick (book.price slot) :=
  symmetry.order_price (book.data slot) valid

theorem ledger_update (data : OrderData) :
    (fun other => symmetry.order (Function.update book.data slot data other)) =
      Function.update (symmetry.ledger book).data slot (symmetry.order data) := by
  funext other
  exact Function.apply_update (fun _ => symmetry.order) book.data slot data other

theorem ledger_setLevel (place : Wing) (price : Int) (queue : List Ptr) (total : Quantity) :
    symmetry.ledger (book.setLevel place price queue total) =
      (symmetry.ledger book).setLevel (symmetry.wing place) (symmetry.tick price) queue total := by
  unfold Symmetry.ledger Ledger.setLevel
  simp only [grid_setCell]

theorem ledger_setData (data : OrderData) : symmetry.ledger (book.setData slot data) =
    (symmetry.ledger book).setData slot (symmetry.order data) := by
  unfold Ledger.setData Ledger.withData
  rw [← ledger_update]
  rfl

theorem ledger_release : symmetry.ledger (book.release slot) = (symmetry.ledger book).release slot := by
  unfold Symmetry.ledger Ledger.release Symmetry.core wing
  cases symmetry.mirrors <;> rfl

theorem ledger_setSlot (id : OrderId) (order : Option Ptr) :
    symmetry.ledger { book with toBookCore := book.setSlot id order } =
      { symmetry.ledger book with toBookCore := (symmetry.ledger book).setSlot id order } := by
  rw [ledger_core, ← core_setSlot]
  rfl

variable (valid : book.price slot ≠ kInvalidPrice)

include valid

theorem ledger_deductTotal (qty : Quantity) : symmetry.ledger (book.deductTotal slot qty) =
    (symmetry.ledger book).deductTotal slot qty := by
  unfold Ledger.deductTotal
  simp only [symmetry.ledger_wing valid, symmetry.ledger_price valid, ledger_setLevel, ledger_queue,
    ledger_total]

theorem ledger_retire : symmetry.ledger (book.retire slot) = (symmetry.ledger book).retire slot := by
  unfold Ledger.retire
  simp only [symmetry.ledger_wing valid, symmetry.ledger_price valid, ledger_release, ledger_queue,
    ledger_total, ledger_setSlot, ledger_setLevel]
  rfl

theorem ledger_recordTrade (aggressor : Ptr) (qty : Quantity) :
    symmetry.ledger (book.recordTrade slot aggressor qty) =
      (symmetry.ledger book).recordTrade slot aggressor qty := by
  unfold Ledger.recordTrade
  rw [ledger_data, ledger_data, ledger_core, ← core_count, ← core_report _ _ _ _ _ valid]
  rfl

theorem ledger_fill (aggressor : Ptr) (qty : Quantity) :
    symmetry.ledger (book.fill slot aggressor qty) = (symmetry.ledger book).fill slot aggressor qty := by
  have steps (book : Ledger) : book.fill slot aggressor qty =
      ((if (book.data slot).completedBy qty then (book.deductTotal slot qty).retire slot
        else book.deductTotal slot qty).withData (Function.update (Function.update book.data slot
          ((book.data slot).filledBy qty)) aggressor ((book.data aggressor).filledBy qty))).recordTrade
        slot aggressor qty := rfl
  have kept : (Function.update (Function.update book.data slot ((book.data slot).filledBy qty)) aggressor
      ((book.data aggressor).filledBy qty) slot).price ≠ kInvalidPrice := by
    rw [← Ledger.fill_data]
    exact (book.fill_price slot aggressor qty slot).trans_ne valid
  have data : (fun other => symmetry.order (Function.update (Function.update book.data slot
      ((book.data slot).filledBy qty)) aggressor ((book.data aggressor).filledBy qty) other)) =
      Function.update (Function.update (symmetry.ledger book).data slot
        (((symmetry.ledger book).data slot).filledBy qty)) aggressor
        (((symmetry.ledger book).data aggressor).filledBy qty) := by
    funext other
    rw [Function.apply_update (fun _ => symmetry.order)]
    congr 1
    exact symmetry.ledger_update _
  have settled : symmetry.ledger (if (book.data slot).completedBy qty then
        (book.deductTotal slot qty).retire slot else book.deductTotal slot qty) =
      if ((symmetry.ledger book).data slot).completedBy qty then
        ((symmetry.ledger book).deductTotal slot qty).retire slot
      else (symmetry.ledger book).deductTotal slot qty := by
    rw [apply_ite symmetry.ledger, ← symmetry.ledger_deductTotal valid, ← symmetry.ledger_retire (by exact valid)]
    rfl
  rw [steps, steps, ← data, ← settled]
  exact symmetry.ledger_recordTrade (by exact kept) aggressor qty

omit valid in
/-- An order joins the end of the image of its level. -/
theorem ledger_rest (inside : InTicks (book.price slot))
    (bestInTicks : ∀ wing, book.best wing ≠ kInvalidPrice → InTicks (book.best wing)) :
    symmetry.ledger (book.rest slot) = (symmetry.ledger book).rest slot := by
  have better : ((symmetry.ledger book).best (symmetry.wing (book.wing slot)) = kInvalidPrice ∨
      (symmetry.wing (book.wing slot)).rank (symmetry.tick (book.price slot)) <
        (symmetry.wing (book.wing slot)).rank ((symmetry.ledger book).best (symmetry.wing (book.wing slot)))) ↔
      (book.best (book.wing slot) = kInvalidPrice ∨
        (book.wing slot).rank (book.price slot) < (book.wing slot).rank (book.best (book.wing slot))) := by
    rw [ledger_core, core_best, wing_wing, symmetry.quote_eq_invalid (bestInTicks _)]
    by_cases missing : book.best (book.wing slot) = kInvalidPrice
    · simp only [missing, true_or]
    · rw [symmetry.quote_of_inTicks (bestInTicks _ missing), ← not_le, ← not_le, symmetry.rank_tick_le]
  have valid : book.price slot ≠ kInvalidPrice := fun missing => kInvalidPrice_outside (missing ▸ inside)
  rw [Ledger.rest_eq, Ledger.rest_eq, symmetry.ledger_wing valid, symmetry.ledger_price valid]
  simp only [better, ledger_queue, ledger_total, ledger_data, order_quantity, ← ledger_setLevel]
  split
  · rw [ledger_core, ← symmetry.quote_of_inTicks inside, ← core_setBest]
    rfl
  · rfl

theorem ledger_expunge : symmetry.ledger (book.expunge slot) = (symmetry.ledger book).expunge slot := by
  have marked : symmetry.ledger ((book.retire slot).setStatus slot .cancelled) =
      ((symmetry.ledger book).retire slot).setStatus slot .cancelled := by
    unfold Ledger.setStatus
    rw [ledger_setData, symmetry.ledger_retire valid]
    rfl
  have total : symmetry.grid book.total = (symmetry.ledger book).total := rfl
  unfold Ledger.expunge
  rw [← marked, symmetry.ledger_wing valid, symmetry.ledger_price valid, ledger_total, ← total,
    ← grid_setCell]
  rfl

theorem ledger_shrink (newQty : Quantity) :
    symmetry.ledger (book.shrink slot newQty) = (symmetry.ledger book).shrink slot newQty := by
  unfold Ledger.shrink
  simp only [ledger_setData, symmetry.ledger_deductTotal valid]
  rfl

omit valid

theorem ledger_rescan {place : Wing} (inside : InTicks (book.best place)) :
    symmetry.ledger (book.rescan place) = (symmetry.ledger book).rescan (symmetry.wing place) := by
  have next := symmetry.nextBest_tick place (fun price => !(book.queue place price).isEmpty) inside
  have queue : (symmetry.ledger book).queue (symmetry.wing place) =
      fun price => book.queue place (symmetry.tick price) := by
    show symmetry.grid book.queue (symmetry.wing place) = _
    unfold Symmetry.grid
    rw [wing_wing]
  unfold Ledger.rescan
  rw [ledger_core, core_best, wing_wing, symmetry.quote_of_inTicks inside, queue, next, ← core_setBest]
  rfl

theorem ledger_enroll {msg : OrderMessage} (inside : InTicks msg.price) (others : List Ptr) :
    symmetry.ledger (book.enroll slot others msg) =
      (symmetry.ledger book).enroll slot others (symmetry.message msg) := by
  have valid : msg.price ≠ kInvalidPrice := fun missing => kInvalidPrice_outside (missing ▸ inside)
  have steps (book : Ledger) (msg : OrderMessage) : book.enroll slot others msg =
      { book with
        data := Function.update book.data slot (msg.order book.rdtsc)
        free := others
        toBookCore := book.tick.setSlot msg.orderId (some slot) } := rfl
  have fresh : symmetry.order (msg.order book.rdtsc) =
      (symmetry.message msg).order (symmetry.ledger book).rdtsc := by
    unfold order quote OrderMessage.order
    simp only [valid, if_false]
    rfl
  rw [steps, steps, ← fresh, ledger_core, ← core_tick, ← core_setSlot, ← ledger_update]
  rfl

theorem ledger_ticked : symmetry.ledger book.ticked = (symmetry.ledger book).ticked := by
  unfold Ledger.ticked
  rw [ledger_core, ← core_tick]
  rfl

/-- A cancel that rescans on both sides of a symmetry, or on neither, commutes with it. -/
theorem ledger_withdraw (valid : book.price slot ≠ kInvalidPrice) (inside : InTicks (book.best (book.wing slot)))
    (agrees : (symmetry.ledger book).Exposes slot ↔ book.Exposes slot) :
    symmetry.ledger (book.withdraw slot) = (symmetry.ledger book).withdraw slot := by
  rw [Ledger.withdraw_eq, Ledger.withdraw_eq, ← symmetry.ledger_expunge valid, symmetry.ledger_wing valid]
  simp only [agrees]
  split
  · exact symmetry.ledger_rescan inside
  · rfl

/-- The two sides of a symmetry rescan alike for an order of a named side. -/
theorem exposes_iff (inside : InTicks (book.price slot))
    (bestInTicks : book.best (book.wing slot) ≠ kInvalidPrice → InTicks (book.best (book.wing slot)))
    (named : (symmetry.side (book.data slot).side).Named ↔ (book.data slot).side.Named) :
    (symmetry.ledger book).Exposes slot ↔ book.Exposes slot := by
  have valid : book.price slot ≠ kInvalidPrice := fun missing => kInvalidPrice_outside (missing ▸ inside)
  unfold Ledger.Exposes
  rw [symmetry.ledger_wing valid, symmetry.ledger_price valid, ledger_queue, ledger_data,
    symmetry.order_side _ valid, ledger_core, core_best, wing_wing, symmetry.tick_eq_quote inside bestInTicks]
  exact and_congr_right fun _ => and_congr_left fun _ => named

end Ledgers

end Symmetry

end OrderEngine
