import OrderEngine.Ledger.Trades
import OrderEngine.Refinement.Arrival

namespace OrderEngine

open Library

/-- A call passes this message to `add_order`, and this book receives it. A modify that asks for more cancels its
order first. -/
def OrderBook.sends (book : OrderBook) : Call → Option (OrderMessage × OrderBook)
  | .add msg => some (msg, book)
  | .cancel _ => none
  | .modify id newQty =>
    match book.findLive id with
    | none => none
    | some slot =>
      if newQty ≤ book.remaining slot then none
      else
        let book := (book.cancelOrder id).2
        some ({ action := .add
                side := (book.order slot).side
                orderId := id
                price := (book.order slot).price
                quantity := newQty
                arrivalCycles := book.rdtsc }, { book with toBookCore := book.tick })

/-- A match ended by itself. It made at most one fill for each order that crossed the message, and each fill but
possibly the last took its order from the book. In the end the new order is full or nothing crosses the message. -/
structure OrderBook.Matched (ready : OrderBook) (msg : OrderMessage) (slot : Ptr) (after : OrderBook) : Prop where
  ended : after.faults = []
  bounded : after.fills.length ≤ ready.fills.length + (ready.crossing msg).length
  distinct : (ready.crossing msg).Nodup
  fills : ∃ fills unlinked last, after.fills = ready.fills ++ fills ∧
    fills.map Fill.resting = unlinked ++ last ∧ last.length ≤ 1 ∧ unlinked ++ last <+: ready.crossing msg ∧
      ∀ other, after.Linked other ↔ ready.Linked other ∧ other ∉ unlinked
  exit : (after.order slot).filledQuantity = (after.order slot).quantity ∨ after.crossing msg = []

section Represented

variable {book ready : OrderBook} {ledger after : Ledger} {msg : OrderMessage} {slot : Ptr} {rest : List Ptr}

/-- The rest of the call is the add. -/
theorem OrderBook.call_of_sends {call : Call} (sent : book.sends call = some (msg, ready)) :
    (book.call call).2 = (ready.addOrder msg).2 := by
  cases call with
  | add own =>
      obtain ⟨rfl, rfl⟩ := Prod.mk.inj (Option.some.inj sent)
      rfl
  | cancel id => exact absurd sent.symm (Option.some_ne_none _)
  | modify id newQty =>
      rw [call, modifyOrder]
      rw [sends] at sent
      cases found : book.findLive id with
      | none =>
          rw [found] at sent
          exact absurd sent.symm (Option.some_ne_none _)
      | some slot =>
          simp only [found] at sent
          split at sent
          · exact absurd sent.symm (Option.some_ne_none _)
          · next larger =>
              obtain ⟨rfl, rfl⟩ := Prod.mk.inj (Option.some.inj sent)
              simp only [if_neg larger]

/-- The book that receives a message is settled, and the message is sound. -/
theorem Represents.sends (same : Represents book ledger) (settled : ledger.Settled) {call : Call}
    (admissible : call.Admissible) (sent : book.sends call = some (msg, ready)) :
    ∃ now, Represents ready now ∧ now.Settled ∧ InTicks msg.price ∧ 0 < msg.quantity := by
  cases call with
  | add own =>
      obtain ⟨rfl, rfl⟩ := Prod.mk.inj (Option.some.inj sent)
      exact ⟨ledger, same, settled, admissible.2⟩
  | cancel id => exact absurd sent.symm (Option.some_ne_none _)
  | modify id newQty =>
      rw [OrderBook.sends, same.findLive_eq] at sent
      cases found : ledger.findLive id with
      | none =>
          rw [found] at sent
          exact absurd sent.symm (Option.some_ne_none _)
      | some slot =>
          simp only [found, same.remaining_eq] at sent
          split at sent
          · exact absurd sent.symm (Option.some_ne_none _)
          · next larger =>
              obtain ⟨rfl, rfl⟩ := Prod.mk.inj (Option.some.inj sent)
              obtain ⟨linked, named⟩ := settled.toInv.found_linked found
              obtain ⟨-, cancelled⟩ := same.cancel settled.toInv found linked named
              have sound : (Call.add ((ledger.withdraw slot).replacement slot id newQty)).Admissible :=
                settled.replacement_admissible linked larger
              rw [← cancelled.replacement_eq] at sound
              exact ⟨_, cancelled.ticked, (settled.withdraw linked).ticked, sound.2⟩

/-- A ledger that has stopped matching a new order shows what the match did. -/
theorem Represents.matched (same : Represents ready ledger) (settled : ledger.Settled)
    (free : ledger.free = slot :: rest) (inside : InTicks msg.price) (positive : 0 < msg.quantity) {final : OrderBook}
    (represents : Represents final after) (run : Ledger.MatchRun slot (ledger.enroll slot rest msg) after)
    (stopped : ¬ after.Crosses slot) : ready.Matched msg slot final := by
  have inv := settled.toInv.enroll free inside positive
  have invAfter := run.inv inv
  obtain ⟨fills, last, traded⟩ := run.traded inv stopped
  have crossing := same.crossing_eq settled.toInv msg
  have made : final.fills = ready.fills ++ fills := by
    rw [same.core, represents.core]
    exact traded.made
  have reached := traded.reached
  have short := traded.length_le
  rw [Ledger.enroll_matchable, ← crossing] at reached short
  have place : after.matchable slot = final.crossing msg := by
    rw [represents.crossing_eq invAfter, Ledger.matchable, run.facing_eq, (run.same_order slot).2.2.1, Ledger.facing,
      Ledger.wing, Ledger.price, Ledger.enroll_data_self]
  constructor
  · rw [represents.core]
    exact invAfter.faults
  · rw [made, List.length_append]
    exact Nat.add_le_add_left short _
  · rw [crossing]
    exact settled.toInv.crossing_nodup
  · refine ⟨fills, _, last, made, traded.resting, traded.atMostOne, reached, fun other => ?_⟩
    rw [represents.linked_iff invAfter, same.linked_iff settled.toInv, run.linked_iff inv stopped,
      settled.toInv.enroll_linked (by simp [free])]
  · have arrived := invAfter.arrived rfl
    rcases invAfter.stopped stopped with done | nothing
    · left
      have full : ¬ (after.data slot).unfilled := by
        rw [Ledger.unfilled_iff arrived.filledLe]
        omega
      have data := represents.data slot
      rw [show (final.order slot).filledQuantity = _ from congrArg OrderData.filledQuantity data,
        show (final.order slot).quantity = _ from congrArg OrderData.quantity data]
      exact UInt64.le_antisymm arrived.filledLe (UInt64.not_lt.mp full)
    · right
      rw [← place, nothing]

end Represented

/-- Every match that a call starts ends by itself, within one fill for each order that crosses. -/
theorem match_terminates (tradeCb : Bool) (clock : Nat → Nanos) (calls : List Call)
    (admissible : ∀ call ∈ calls, call.Admissible) (call : Call) (sound : call.Admissible) (msg : OrderMessage)
    (ready : OrderBook) (sent : ((OrderBook.empty tradeCb clock).run calls).sends call = some (msg, ready))
    (slot : Ptr) (pool : MemoryPool Order) (served : ready.orderPool.construct {} = (some slot, pool)) :
    let book := (OrderBook.empty tradeCb clock).run calls
    let after := (ready.register pool slot msg).match slot
    ready.Matched msg slot after ∧
      (book.call call).2 = if (after.order slot).status = .filled then after else after.restOrder slot := by
  obtain ⟨start, same, settled⟩ := settled_run tradeCb clock admissible
  intro book after
  obtain ⟨ledger, ready_same, ready_settled, inside, positive⟩ := same.sends settled sound sent
  cases free : ledger.free with
  | nil =>
      rw [ready_same.refused free] at served
      exact absurd (Prod.mk.inj served).1.symm (Option.some_ne_none _)
  | cons next rest =>
      obtain ⟨own, lent, enrolled⟩ :=
        ready_same.enroll free (fun _ _ => ready_settled.toInv.fresh (by simp [free])) msg
      obtain ⟨first, second⟩ := Prod.mk.inj (lent.symm.trans served)
      obtain rfl := Option.some.inj first
      subst second
      have arrived := ready_settled.toInv.enroll free inside positive
      obtain ⟨final, represents, -, run, stopped, -⟩ := enrolled.match arrived
      refine ⟨ready_same.matched ready_settled free inside positive represents run stopped, ?_⟩
      rw [OrderBook.call_of_sends sent, OrderBook.addOrder_eq msg lent]

/-- The buy takes an order with nothing left, and then a part of the next one. -/
theorem match_terminates_after_shrink :
    let book := (OrderBook.empty true fun _ => 1).run [.add (.sell 1 65535 5), .add (.sell 2 65535 6), .modify 1 0]
    let after := (book.register (book.orderPool.construct {}).2 256 (.buy 3 65535 4)).match 256
    book.Matched (.buy 3 65535 4) 256 after ∧
      (book.call (.add (.buy 3 65535 4))).2 =
        if (after.order 256).status = .filled then after else after.restOrder 256 := by
  intro book
  have third : (book.orderPool.construct {}).1 = some 256 := by decide +kernel
  have sent : book.sends (.add (.buy 3 65535 4)) = some (.buy 3 65535 4, book) := by rw [OrderBook.sends]
  have served : book.orderPool.construct {} = (some 256, (book.orderPool.construct {}).2) := by rw [← third]
  exact match_terminates true (fun _ => 1) [.add (.sell 1 65535 5), .add (.sell 2 65535 6), .modify 1 0] (by decide)
    (.add (.buy 3 65535 4)) (by decide) (.buy 3 65535 4) book sent 256 (book.orderPool.construct {}).2 served

end OrderEngine
