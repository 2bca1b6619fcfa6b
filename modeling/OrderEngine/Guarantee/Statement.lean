import OrderEngine.Guarantee.Conservation
import OrderEngine.Ledger.Statement
import OrderEngine.Library.Potential

namespace OrderEngine

open Library

namespace Call

/-- The call names this identifier. -/
def names (id : OrderId) : Call → Bool
  | .add msg => msg.orderId = id
  | .cancel other => other = id
  | .modify other _ => other = id

/-- An add asks for its quantity under its own identifier. -/
def asks (id : OrderId) : Call → Nat
  | .add msg => if msg.orderId = id then msg.quantity.toNat else 0
  | _ => 0

end Call

namespace OrderBook

/-- This is what is left of an order of the identifier. -/
def owned (book : OrderBook) (id : OrderId) (slot : Ptr) : Nat :=
  if (book.order slot).id = id then (book.remaining slot).toNat else 0

/-- The calls of one identifier bring this to it. -/
def creditOf (id : OrderId) (book : OrderBook) (call : Call) : Int := if call.names id then book.credit call else 0

def cancelledOf (id : OrderId) (book : OrderBook) (call : Call) : Int :=
  if call.names id then book.cancelled call else 0

end OrderBook

/-- Each admissible call changes the account of an identifier by what the call itself brings or takes away. -/
theorem Represents.stated {book : OrderBook} {ledger : Ledger} (same : Represents book ledger)
    (settled : ledger.Settled) (installed : ledger.tradeCb = true) {call : Call} (admissible : call.Admissible)
    (id : OrderId) : ∃ after, Represents (book.call call).2 after ∧ after.Settled ∧ after.tradeCb = true ∧
      ledger.Stated id (book.creditOf id call) (book.cancelledOf id call) after := by
  have inv := settled.toInv
  unfold OrderBook.creditOf OrderBook.cancelledOf
  cases call with
  | add msg =>
      obtain ⟨after, run, represents, -⟩ := same.add inv admissible.2.1 admissible.2.2
      have callback := (run.booked inv admissible.2.1 admissible.2.2).tradeCb.trans installed
      refine ⟨after, represents, settled.add admissible.1 admissible.2.1 admissible.2.2 run, callback, ?_⟩
      simpa [Call.names, OrderBook.credit, OrderBook.cancelled] using
        run.stated inv admissible.2.1 admissible.2.2 installed id
  | cancel name =>
      have lookup := same.findLive_eq name
      cases found : ledger.findLive name with
      | none =>
          rw [found] at lookup
          have missed : book.cancelOrder name = (false, book) := by rw [OrderBook.cancelOrder, lookup]
          simp only [OrderBook.call, OrderBook.credit, OrderBook.cancelled, lookup, missed, ite_self]
          exact ⟨ledger, same, settled, installed, rfl⟩
      | some slot =>
          obtain ⟨linked, named⟩ := inv.found_linked found
          obtain ⟨answer, represents⟩ := same.cancel inv found linked named
          rw [found] at lookup
          have stated := inv.withdraw_stated linked id
          unfold Ledger.owned at stated
          rw [named] at stated
          simp only [OrderBook.call, OrderBook.credit, OrderBook.cancelled, lookup, answer, if_true,
            same.remaining_eq, ite_self, Call.names, decide_eq_true_eq]
          refine ⟨_, represents, settled.withdraw linked, (Ledger.withdraw_tradeCb ..).trans installed, ?_⟩
          simpa [Ledger.left] using stated
  | modify name newQty =>
      have lookup := same.findLive_eq name
      rcases same.modify inv name newQty with
        ⟨missing, unchanged⟩ | ⟨slot, found, ⟨fits, answer, represents⟩ | ⟨larger, after, run, represents, -⟩⟩
      · rw [missing] at lookup
        simp only [OrderBook.call, OrderBook.credit, OrderBook.cancelled, lookup, unchanged, ite_self]
        exact ⟨ledger, same, settled, installed, rfl⟩
      · obtain ⟨linked, named⟩ := inv.found_linked found
        rw [found] at lookup
        have left := represents.remaining_eq slot
        rw [(settled.shrink_amended linked fits).remaining] at left
        have stated := inv.shrink_stated linked fits id
        rw [named] at stated
        simp only [OrderBook.call, OrderBook.credit, OrderBook.cancelled, lookup, answer, same.remaining_eq, left,
          ite_self, Call.names, decide_eq_true_eq]
        exact ⟨_, represents, settled.shrink linked fits, installed, stated⟩
      · obtain ⟨linked, named⟩ := inv.found_linked found
        rw [found] at lookup
        have served := (settled.replace_eq linked run).1
        have left := represents.remaining_eq slot
        rw [(settled.replace_amended linked larger run named).remaining] at left
        have booked := settled.replace_booked linked larger run
        obtain ⟨side, inside, positive⟩ := settled.replacement_admissible linked larger
        simp only [OrderBook.call, OrderBook.credit, OrderBook.cancelled, lookup, served, same.remaining_eq, left,
          ite_self, Call.names, decide_eq_true_eq]
        subst named
        exact ⟨after, represents, (settled.withdraw linked).ticked.add side inside positive run,
          booked.tradeCb.trans installed, settled.replace_stated linked larger run installed id⟩

section Runs

variable {clock : Nat → Nanos}

theorem Ledger.empty_stated (id : OrderId) :
    (Ledger.empty true clock).held id = 0 ∧ (Ledger.empty true clock).dealt id = 0 := by
  have none_ : (Ledger.empty true clock).resting = [] := by
    rw [List.eq_nil_iff_forall_not_mem]
    intro slot member
    exact absurd (Ledger.empty_settled.toInv.mem_resting.mp member) List.not_mem_nil
  constructor
  · rw [Ledger.held, none_]
    rfl
  · rfl

/-- Over a whole run the account of each identifier balances. -/
theorem stated_run {calls : List Call} (admissible : ∀ call ∈ calls, call.Admissible) (id : OrderId) :
    ∃ ledger, Represents ((OrderBook.empty true clock).run calls) ledger ∧ ledger.Settled ∧ ledger.tradeCb = true ∧
      tally (fun book call => (OrderBook.call book call).2) (OrderBook.creditOf id) (OrderBook.empty true clock) calls =
        ledger.dealt id + ledger.held id +
          tally (fun book call => (OrderBook.call book call).2) (OrderBook.cancelledOf id)
            (OrderBook.empty true clock) calls := by
  induction calls using List.reverseRecOn with
  | nil =>
      obtain ⟨held, dealt⟩ := @Ledger.empty_stated clock id
      refine ⟨_, .empty true clock, Ledger.empty_settled, rfl, ?_⟩
      rw [held, dealt]
      rfl
  | append_singleton past call ih =>
      obtain ⟨ledger, same, settled, installed, balance⟩ := ih fun other member => admissible other (by simp [member])
      obtain ⟨after, represents, settledAfter, callback, stated⟩ :=
        same.stated settled installed (admissible call (by simp)) id
      rw [OrderBook.run_append]
      refine ⟨after, represents, settledAfter, callback, ?_⟩
      rw [tally_append, tally_append, balance]
      change _ + OrderBook.creditOf id ((OrderBook.empty true clock).run past) call =
        _ + (_ + OrderBook.cancelledOf id ((OrderBook.empty true clock).run past) call)
      unfold Ledger.Stated at stated
      omega

end Runs

theorem Represents.held_eq {book : OrderBook} {ledger : Ledger} (same : Represents book ledger)
    (inv : ledger.Inv none) (id : OrderId) : (book.resting.map (book.owned id)).sum = ledger.held id := by
  have owned : book.owned id = ledger.owned id := by
    funext slot
    rw [OrderBook.owned, Ledger.owned, same.id_eq, same.remaining_eq, Ledger.left]
  rw [same.resting_eq inv, owned]
  rfl

/-- An identifier whose orders are never amended brings no more than its adds ask for. -/
theorem tally_creditOf_le {calls : List Call} {id : OrderId} (unamended : ∀ newQty, Call.modify id newQty ∉ calls)
    (book : OrderBook) : tally (fun book call => (OrderBook.call book call).2) (OrderBook.creditOf id) book calls ≤
      ((calls.map (Call.asks id)).sum : Nat) := by
  induction calls generalizing book with
  | nil => exact Int.le_refl 0
  | cons call calls ih =>
      have rest := ih (fun newQty member => unamended newQty (List.mem_cons_of_mem _ member)) (book.call call).2
      have one : book.creditOf id call ≤ (call.asks id : Nat) := by
        cases call with
        | add msg =>
            simp only [OrderBook.creditOf, Call.names, OrderBook.credit, Call.asks, decide_eq_true_eq]
            split
            · split
              · exact Int.le_refl _
              · exact Int.natCast_nonneg _
            · exact Int.le_refl 0
        | cancel name =>
            simp only [OrderBook.creditOf, OrderBook.credit, ite_self]
            exact Int.le_refl 0
        | modify name newQty =>
            have other : name ≠ id := by
              rintro rfl
              exact unamended newQty List.mem_cons_self
            simp only [OrderBook.creditOf, Call.names, other, decide_false, Bool.false_eq_true, if_false]
            exact Int.le_refl 0
      rw [tally, List.map_cons, List.sum_cons]
      omega

/-- The account of every identifier balances exactly, however often it is used: what its own calls bring is dealt
to it in the reports, rests in its orders or is cancelled. So an identifier that is never amended is never dealt
more than it asked for. -/
theorem identifier_account_balances (clock : Nat → Nanos) (calls : List Call)
    (admissible : ∀ call ∈ calls, call.Admissible) (id : OrderId) :
    let start := OrderBook.empty true clock
    let book := start.run calls
    let dealt := (book.reports.map (TradeReport.dealt id)).sum
    let held := (book.resting.map (book.owned id)).sum
    tally (fun book call => (book.call call).2) (OrderBook.creditOf id) start calls =
        dealt + held + tally (fun book call => (book.call call).2) (OrderBook.cancelledOf id) start calls ∧
      ((∀ newQty, Call.modify id newQty ∉ calls) → dealt + held ≤ (calls.map (Call.asks id)).sum) := by
  intro start book dealt held
  obtain ⟨ledger, same, settled, -, balance⟩ := @stated_run clock calls admissible id
  have reports : book.reports = ledger.reports := congrArg BookCore.reports same.core
  have dealtEq : dealt = ledger.dealt id := by
    show (book.reports.map (TradeReport.dealt id)).sum = _
    rw [reports]
    rfl
  have heldEq : held = ledger.held id := same.held_eq settled.toInv id
  rw [← dealtEq, ← heldEq] at balance
  change tally _ _ start calls = _ + tally _ _ start calls at balance
  refine ⟨balance, fun unamended => ?_⟩
  have bound := tally_creditOf_le unamended start
  have gains : 0 ≤ tally (fun book call => (OrderBook.call book call).2) (OrderBook.cancelledOf id) start calls := by
    apply tally_nonneg
    intro book call
    unfold OrderBook.cancelledOf OrderBook.cancelled
    split
    · split
      · split
        · split
          · exact Int.natCast_nonneg _
          · exact Int.le_refl 0
        · exact Int.le_refl 0
      · exact Int.le_refl 0
    · exact Int.le_refl 0
  omega

/-- One identifier sells twice, and the second order is cancelled with four lots left. -/
theorem identifier_account_of_two_sells :
    let start := OrderBook.empty true fun _ => 1
    let calls := [Call.add (.sell 1 65535 5), .add (.sell 1 65535 4), .add (.buy 2 65535 5), .cancel 1]
    let book := start.run calls
    tally (fun book call => (book.call call).2) (OrderBook.creditOf 1) start calls =
      (book.reports.map (TradeReport.dealt 1)).sum + (book.resting.map (book.owned 1)).sum +
        tally (fun book call => (book.call call).2) (OrderBook.cancelledOf 1) start calls :=
  (identifier_account_balances (fun _ => 1) _ (by decide) 1).1

end OrderEngine
