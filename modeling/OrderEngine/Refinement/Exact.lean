import OrderEngine.Ledger.Settled
import OrderEngine.Refinement.Amounts
import OrderEngine.Refinement.Calls

namespace OrderEngine

open Library

namespace Audit

/-- Everything that the audit has noted is exact, and in no book on its way an order is filled beyond its quantity. -/
structure Clean (audit : Audit) : Prop where
  exact : ∀ operation ∈ audit.noted, operation.Exact
  passed : ∀ book ∈ audit.passed, book.Bounded
  bounded : audit.book.Bounded

variable {audit : Audit} {ledger now : Ledger} {slot resting aggressor incoming : Ptr} {qty : Quantity} {left : Nat}

namespace Clean

theorem note (clean : audit.Clean) {operation : Arithmetic} (exact : operation.Exact) :
    (audit.note operation).Clean where
  exact := by
    intro other member
    rcases List.mem_append.mp member with before | last
    · exact clean.exact other before
    · rw [List.mem_singleton.mp last]
      exact exact
  passed := clean.passed
  bounded := clean.bounded

theorem update (clean : audit.Clean) {effect : OrderBook → OrderBook} (bounded : (effect audit.book).Bounded) :
    (audit.update effect).Clean where
  exact := clean.exact
  passed := by
    intro other member
    rcases List.mem_append.mp member with before | last
    · exact clean.passed other before
    · rw [List.mem_singleton.mp last]
      exact bounded
  bounded := bounded

/-- Most statements change no quantity of an order. -/
theorem keep (clean : audit.Clean) {effect : OrderBook → OrderBook}
    (same : (effect audit.book).amounts = audit.book.amounts) : (audit.update effect).Clean :=
  clean.update (clean.bounded.congr same)

/-- A statement that writes one order keeps that order within its quantity. -/
theorem write (clean : audit.Clean) {effect : OrderBook → OrderBook} {order : Order}
    (written : (effect audit.book).orderPool.slots = Function.update audit.book.orderPool.slots slot order)
    (within : order.filledQuantity ≤ order.quantity) : (audit.update effect).Clean := by
  refine clean.update fun other => ?_
  rw [OrderBook.order, written]
  by_cases here : other = slot
  · rw [here, Function.update_self]
    exact within
  · rw [Function.update_of_ne here]
    exact clean.bounded other

theorem noteRemaining (clean : audit.Clean) (slot : Ptr) : (audit.noteRemaining slot).Clean :=
  clean.note (clean.bounded slot)

theorem removeFromLevel (clean : audit.Clean) (slot : Ptr) : (audit.removeFromLevel slot).Clean :=
  (clean.noteRemaining slot).keep (OrderBook.removeFromLevel_amounts _ _)

/-- A fill that fits in what remains of an order does not fill it beyond its quantity. -/
theorem addFilled (clean : audit.Clean) (fits : qty ≤ audit.book.remaining slot) :
    (audit.addFilled slot qty).Clean := by
  have inside := clean.bounded slot
  have sum : (Arithmetic.sum (audit.book.order slot).filledQuantity qty).Exact := by
    rw [Arithmetic.Exact, ← toNat_add_of_fits inside fits]
    exact UInt64.toNat_lt _
  exact (clean.note sum).write rfl (add_le_of_fits inside fits)

theorem settleResting (clean : audit.Clean) (slot : Ptr) : (audit.settleResting slot).Clean := by
  unfold Audit.settleResting
  split
  · have marked : (audit.update fun book => book.setStatus slot .filled).Clean :=
      clean.keep (audit.book.setStatus_amounts slot .filled)
    exact ((marked.removeFromLevel slot).keep rfl).keep rfl
  · exact clean.keep (audit.book.setStatus_amounts slot .partiallyFilled)

/-- A fill that fits in both orders is clean. -/
theorem fill (clean : audit.Clean) (different : aggressor ≠ resting) (first : qty ≤ audit.book.remaining resting)
    (second : qty ≤ audit.book.remaining aggressor) : (audit.fill resting aggressor qty).Clean := by
  let filled := (audit.addFilled resting qty).addFilled aggressor qty
  let deducted := filled.update fun book => book.deductTotal resting qty
  have kept : (audit.addFilled resting qty).book.remaining aggressor = audit.book.remaining aggressor := by
    rw [addFilled_book, OrderBook.remaining, OrderBook.addFilled_other _ _ _ different]
    rfl
  have both : filled.Clean := (clean.addFilled first).addFilled (kept.symm ▸ second)
  have total : deducted.Clean := both.keep (filled.book.deductTotal_amounts resting qty)
  have settled : ((deducted.settleResting resting).update fun book => book.settleAggressor aggressor).Clean :=
    (total.settleResting resting).keep (OrderBook.settleAggressor_amounts _ aggressor)
  unfold Audit.fill
  exact settled.keep (OrderBook.recordTrade_amounts _ resting aggressor qty)

/-- Each round of the inner loop fills the two orders within what remains of them. -/
theorem fillNext {cursor : Option Ptr} (clean : audit.Clean)
    (walking : Walking incoming ledger left (audit.book, cursor) now)
    (going : (cursor.isSome && audit.book.hasRemaining incoming) = true) :
    (Audit.fillNext incoming (audit, cursor)).1.Clean := by
  obtain ⟨resting, rest, rfl, -, head⟩ := walking.head going
  have linked := (Ledger.head_linked walking.inv.toShelved head).1
  have different : resting ≠ incoming := (walking.inv.arrived rfl).ne linked
  have fits := word_min_le (audit.book.remaining resting) (audit.book.remaining incoming)
  exact ((clean.noteRemaining resting).noteRemaining incoming).fill different.symm fits.1 fits.2

theorem walkLevel (clean : audit.Clean) (same : Represents audit.book ledger) (inv : ledger.Inv (some incoming))
    (valid : ledger.best (ledger.facing incoming) ≠ kInvalidPrice)
    (behind : (ledger.facing incoming).rank (ledger.best (ledger.facing incoming)) ≤
      (ledger.facing incoming).rank (ledger.price incoming)) :
    (audit.walkLevel incoming
      (audit.book.level (ledger.facing incoming) (ledger.best (ledger.facing incoming))).head).Clean := by
  obtain ⟨bound, enough, start⟩ := same.walking inv
  refine whileLoop_follow (fun state : Audit × Option Ptr => (state.1.book, state.2)) (fillNext_view incoming)
    (fun left state => ∃ now, Walking incoming ledger left state now) (fun state => state.1.Clean) ?_ enough
    ⟨ledger, start⟩ clean
  rintro left state ⟨now, walking⟩ going clean
  obtain ⟨smaller, after, less, next⟩ := walking.next valid behind going
  exact ⟨⟨smaller, less, after, next⟩, clean.fillNext walking going⟩

/-- A round of the outer loop is clean on its level and in its scan. -/
theorem matchBody (clean : audit.Clean) (sweeping : Sweeping incoming ledger left audit.book now)
    (going : audit.book.crosses (ledger.facing incoming) incoming = true) :
    (audit.matchBody (ledger.facing incoming) incoming).Clean := by
  have facing := sweeping.run.facing_eq
  obtain ⟨valid, behind, unfilled⟩ := sweeping.same.crosses_iff.mp (facing ▸ going)
  have untouched : audit.book.touch (audit.book.best (ledger.facing incoming)) = audit.book := by
    rw [sweeping.same.best_eq, ← facing]
    exact OrderBook.touch_of_inTicks (sweeping.inv.bestInTicks valid)
  have touched : (audit.update fun book => book.touch (audit.book.best (ledger.facing incoming))).Clean :=
    clean.keep (congrArg OrderBook.amounts untouched)
  have walked := @walkLevel _ now incoming touched (by rw [update_book, untouched]; exact sweeping.same) sweeping.inv
    valid behind
  rw [facing, ← sweeping.same.best_eq] at walked
  simp only [Audit.matchBody]
  split
  · exact touched.keep (OrderBook.updateBest_amounts _ _ _)
  · split
    · exact walked.keep (OrderBook.updateBest_amounts _ _ _)
    · exact walked

theorem «match» (clean : audit.Clean) (same : Represents audit.book ledger) (inv : ledger.Inv (some incoming)) :
    (audit.match incoming).Clean := by
  obtain ⟨bound, enough, start⟩ := same.sweeping inv
  have wing : (audit.book.order incoming).side.wing.opposite = ledger.facing incoming := by
    rw [same.wing_eq]
    rfl
  rw [match_eq, wing]
  refine whileLoop_follow Audit.book (fun audit => audit.matchBody_book _ incoming)
    (fun left book => ∃ now, Sweeping incoming ledger left book now) Clean ?_ enough ⟨ledger, start⟩ clean
  rintro left audit ⟨now, sweeping⟩ going clean
  obtain ⟨smaller, after, less, next⟩ := sweeping.next going
  exact ⟨⟨smaller, less, after, next⟩, clean.matchBody sweeping going⟩

/-- A new order starts with nothing filled. -/
theorem addOrder {msg : OrderMessage} (clean : audit.Clean) (same : Represents audit.book ledger)
    (inv : ledger.Inv none) (inside : InTicks msg.price) (positive : 0 < msg.quantity) :
    (audit.addOrder msg).2.Clean := by
  cases free : ledger.free with
  | nil =>
      rw [Audit.addOrder, same.refused free]
      exact clean
  | cons slot rest =>
      obtain ⟨pool, served, enrolled⟩ := same.enroll free (fun _ _ => inv.fresh (by simp [free])) msg
      have lent : (audit.update fun book => { book with orderPool := pool }).Clean :=
        clean.write (MemoryPool.construct_slots served) (UInt64.le_refl _)
      let written := (audit.update fun book => { book with orderPool := pool }).update fun book => book.setData slot
        { id := msg.orderId, side := msg.side, status := .active, price := msg.price, quantity := msg.quantity,
          filledQuantity := 0, timestamp := msg.arrivalCycles, entryNanos := book.rdtsc }
      let entered := written.update fun book => { book with toBookCore := book.tick.setSlot msg.orderId (some slot) }
      have writtenClean : written.Clean := lent.write rfl UInt64.zero_le
      have enteredClean : entered.Clean := writtenClean.keep rfl
      have matched : (entered.match slot).Clean :=
        enteredClean.match enrolled (inv.enroll free inside positive)
      rw [Audit.addOrder, served]
      dsimp only
      split
      · exact matched.keep (OrderBook.restOrder_amounts _ _)
      · exact matched

theorem cancelOrder (clean : audit.Clean) (id : OrderId) : (audit.cancelOrder id).2.Clean := by
  unfold Audit.cancelOrder
  cases audit.book.findLive id with
  | none => exact clean
  | some slot =>
      let marked := audit.update fun book => book.setStatus slot .cancelled
      let cleared := marked.update fun book => { book with toBookCore := book.setSlot id none }
      have first : marked.Clean := clean.keep (audit.book.setStatus_amounts slot .cancelled)
      have second : cleared.Clean := first.keep rfl
      let scanned := (cleared.removeFromLevel slot).update fun book => book.rescanAfterCancel slot
      have third : scanned.Clean := (second.removeFromLevel slot).keep (OrderBook.rescanAfterCancel_amounts _ _)
      have fourth : (scanned.update fun book => book.destroy slot).Clean :=
        third.keep (scanned.book.destroy_amounts slot)
      exact fourth

/-- A new quantity that adds to what is filled does not fall behind it. -/
theorem setQuantity (clean : audit.Clean)
    (exact : (Arithmetic.sum (audit.book.order slot).filledQuantity qty).Exact) :
    ((audit.note (.sum (audit.book.order slot).filledQuantity qty)).update fun book => book.setData slot
      { (book.order slot).toOrderData with quantity := (book.order slot).filledQuantity + qty }).Clean :=
  (clean.note exact).write rfl (le_add_of_toNat_lt exact)

/-- A modify keeps what is filled, or it cancels the order and adds a new one. -/
theorem modifyOrder (clean : audit.Clean) (same : Represents audit.book ledger) (settled : ledger.Settled)
    (id : OrderId) (newQty : Quantity) : (audit.modifyOrder id newQty).2.Clean := by
  unfold Audit.modifyOrder
  cases found : audit.book.findLive id with
  | none => exact clean
  | some slot =>
      have looked := clean.noteRemaining slot
      dsimp only
      split
      · next fits =>
          let lost := (audit.noteRemaining slot).note
            (.difference ((audit.noteRemaining slot).book.remaining slot) newQty)
          let deducted := lost.update fun book => book.deductTotal slot (book.remaining slot - newQty)
          have noted : lost.Clean := looked.note (show Arithmetic.Exact (.difference _ newQty) from fits)
          have total : deducted.Clean := noted.keep (lost.book.deductTotal_amounts _ _)
          have filled : (deducted.book.order slot).filledQuantity = (audit.book.order slot).filledQuantity :=
            congrArg Prod.fst (congrFun (lost.book.deductTotal_amounts slot _) slot)
          have sum : (Arithmetic.sum (deducted.book.order slot).filledQuantity newQty).Exact := by
            rw [Arithmetic.Exact, filled, ← toNat_add_of_fits (clean.bounded slot) fits]
            exact UInt64.toNat_lt _
          exact total.setQuantity sum
      · next larger =>
          have here := (same.findLive_eq id).symm.trans found
          obtain ⟨linked, named⟩ := settled.toInv.found_linked here
          obtain ⟨-, cancelled⟩ := same.cancel settled.toInv here linked named
          have book : ((audit.noteRemaining slot).cancelOrder id).2.book = (audit.book.cancelOrder id).2 :=
            congrArg Prod.snd ((audit.noteRemaining slot).cancelOrder_book id)
          have again := looked.cancelOrder id
          have admissible : (Call.add ((ledger.withdraw slot).replacement slot id newQty)).Admissible :=
            settled.replacement_admissible linked (by rw [← same.remaining_eq]; exact larger)
          rw [← cancelled.replacement_eq] at admissible
          rw [book]
          refine addOrder (again.keep rfl) ?_ (settled.toInv.withdraw linked).ticked admissible.2.1 admissible.2.2
          rw [update_book, book]
          exact cancelled.ticked

/-- Each admissible call keeps the audit clean. -/
theorem call {call : Call} (clean : audit.Clean) (same : Represents audit.book ledger) (settled : ledger.Settled)
    (admissible : call.Admissible) : (audit.call call).Clean := by
  cases call with
  | add msg => exact clean.addOrder same settled.toInv admissible.2.1 admissible.2.2
  | cancel id => exact clean.cancelOrder id
  | modify id newQty => exact clean.modifyOrder same settled id newQty

end Clean

end Audit

end OrderEngine
