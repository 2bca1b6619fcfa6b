import OrderEngine.Ledger.Origin
import OrderEngine.Refinement.Runs

namespace OrderEngine

open Library

variable {Known : OrderId → Side → Int → Prop}

/-- A sound run keeps every order known, as long as it adds only known ones. -/
theorem Represents.traceable_run {book : OrderBook} {ledger : Ledger} {since : Nat} (same : Represents book ledger)
    (inv : ledger.Inv none) (traceable : ledger.Traceable Known since none) {calls : List Call}
    (sound : ∀ call ∈ calls, call.Sound)
    (known : ∀ msg, Call.add msg ∈ calls → Known msg.orderId msg.side msg.price) :
    ∃ after, Represents (book.run calls) after ∧ after.Inv none ∧ after.Traceable Known since none := by
  induction calls using List.reverseRecOn with
  | nil => exact ⟨ledger, same, inv, traceable⟩
  | append_singleton past call ih =>
      obtain ⟨before, sameBefore, invBefore, kept⟩ := ih (fun other member => sound other (by simp [member]))
        (fun msg member => known msg (by simp [member]))
      obtain ⟨after, run, represents, invAfter⟩ := sameBefore.call invBefore (sound call (by simp))
      rw [OrderBook.run_append]
      exact ⟨after, represents, invAfter, run.traceable invBefore (sound call (by simp))
        (fun msg add => known msg (by simp [add])) kept⟩

/-- A new book has neither orders nor reports. -/
theorem Ledger.empty_traceable (tradeCb : Bool) (clock : Nat → Nanos) :
    (Ledger.empty tradeCb clock).Traceable Known 0 none where
  started := Nat.le_refl 0
  orders := fun _ linked => absurd linked List.not_mem_nil
  arrived := fun _ here => absurd here.symm (Option.some_ne_none _)
  reports := fun _ member => absurd member List.not_mem_nil

/-- Whatever identifiers the calls use, every order that rests was added with this identifier, side and price, and
every report names an added buy and an added sell, and a price within both their limits that one of them set. -/
theorem every_trade_was_ordered (tradeCb : Bool) (clock : Nat → Nanos) (calls : List Call)
    (sound : ∀ call ∈ calls, call.Sound) :
    let book := (OrderBook.empty tradeCb clock).run calls
    (∀ slot, book.Linked slot → ∃ msg, Call.add msg ∈ calls ∧ msg.orderId = (book.order slot).id ∧
        msg.side = (book.order slot).side ∧ msg.price = (book.order slot).price) ∧
      ∀ report ∈ book.reports, ∃ buy sell, Call.add buy ∈ calls ∧ Call.add sell ∈ calls ∧
        buy.side = Side.buy ∧ sell.side ≠ Side.buy ∧
        report.buyOrderId = buy.orderId ∧ report.sellOrderId = sell.orderId ∧
        sell.price ≤ report.price ∧ report.price ≤ buy.price ∧
        (report.price = sell.price ∨ report.price = buy.price) := by
  intro book
  obtain ⟨ledger, same, inv, traceable⟩ := (Represents.empty tradeCb clock).traceable_run
    Ledger.empty_settled.toInv (@Ledger.empty_traceable (fun id side price => ∃ msg, Call.add msg ∈ calls ∧
      msg.orderId = id ∧ msg.side = side ∧ msg.price = price) tradeCb clock) sound
    (fun msg member => ⟨msg, member, rfl, rfl, rfl⟩)
  constructor
  · intro slot linked
    obtain ⟨msg, member, id, side, price⟩ := traceable.orders slot ((same.linked_iff inv slot).mp linked)
    exact ⟨msg, member, id.trans (same.id_eq slot).symm, side.trans (same.side_eq slot).symm,
      price.trans (same.price_eq slot).symm⟩
  · intro report member
    have reports : book.reports = ledger.reports := congrArg BookCore.reports same.core
    rw [reports] at member
    obtain ⟨_, bid, ask, other, ⟨buy, bought, buyer, bidder, rfl⟩, ⟨sell, sold, seller, rfl, rfl⟩, low, high, set⟩ :=
      traceable.reports report member
    exact ⟨buy, sell, bought, sold, bidder, other, buyer.symm, seller.symm, low, high, set⟩

/-- Both orders carry the same identifier. -/
theorem every_trade_was_ordered_twice :
    let calls := [Call.add (.sell 1 65535 5), .add (.buy 1 65535 3)]
    let book := (OrderBook.empty true fun _ => 1).run calls
    book.reports.length = 1 ∧ ∀ report ∈ book.reports, ∃ buy sell, Call.add buy ∈ calls ∧ Call.add sell ∈ calls ∧
      buy.side = Side.buy ∧ sell.side ≠ Side.buy ∧
      report.buyOrderId = buy.orderId ∧ report.sellOrderId = sell.orderId ∧
      sell.price ≤ report.price ∧ report.price ≤ buy.price ∧
      (report.price = sell.price ∨ report.price = buy.price) :=
  ⟨by decide +kernel, (every_trade_was_ordered true (fun _ => 1)
    [Call.add (.sell 1 65535 5), .add (.buy 1 65535 3)] (by decide)).2⟩

/-- An identifier that the calls never add is absent, and one that they add once belongs to at most one order. -/
theorem lone_run (tradeCb : Bool) (clock : Nat → Nanos) (id : OrderId) (calls : List Call)
    (sound : ∀ call ∈ calls, call.Sound) :
    ∃ ledger, Represents ((OrderBook.empty tradeCb clock).run calls) ledger ∧ ledger.Inv none ∧
      (calls.countP (Call.adds id) = 0 → ledger.Absent id) ∧ (calls.countP (Call.adds id) ≤ 1 → ledger.Lone id) := by
  induction calls using List.reverseRecOn with
  | nil =>
      have absent : (Ledger.empty tradeCb clock).Absent id := fun _ linked => absurd linked List.not_mem_nil
      exact ⟨_, Represents.empty tradeCb clock, Ledger.empty_settled.toInv, fun _ => absent, fun _ => absent.lone⟩
  | append_singleton past call ih =>
      obtain ⟨before, same, inv, never, once⟩ := ih fun other member => sound other (by simp [member])
      obtain ⟨after, run, represents, invAfter⟩ := same.call inv (sound call (by simp))
      rw [OrderBook.run_append]
      refine ⟨after, represents, invAfter, fun none => ?_, fun few => ?_⟩
      · rw [List.countP_append, List.countP_singleton] at none
        have other : call.adds id = false := by
          by_contra adds
          rw [if_pos (by simpa using adds)] at none
          omega
        exact run.absent inv (sound call (by simp)) other (never (by omega))
      · rw [List.countP_append, List.countP_singleton] at few
        by_cases other : call.adds id = false
        · exact run.lone inv (sound call (by simp)) other (once (by omega))
        · rw [if_pos (by simpa using other)] at few
          exact run.lone_of_absent inv (sound call (by simp)) (never (by omega))

/-- A cancel is final: once the only order of an identifier is cancelled, no later call finds, trades or rests an
order of this identifier, whatever the others do, until somebody adds it again. -/
theorem cancelled_order_is_gone (tradeCb : Bool) (clock : Nat → Nanos) (past later : List Call) (id : OrderId)
    (sound : ∀ call ∈ past ++ later, call.Sound) (once : past.countP (Call.adds id) ≤ 1)
    (unused : later.countP (Call.adds id) = 0) :
    let before := (OrderBook.empty tradeCb clock).run past
    let cancelled := (before.cancelOrder id).2
    let after := cancelled.run later
    (before.cancelOrder id).1 = true →
      (∀ report ∈ after.reports.drop cancelled.reports.length, report.buyOrderId ≠ id ∧ report.sellOrderId ≠ id) ∧
        (∀ slot, after.Linked slot → (after.order slot).id ≠ id) ∧
        (after.cancelOrder id).1 = false ∧ ∀ newQty, (after.modifyOrder id newQty).1 = none := by
  intro before cancelled after done
  obtain ⟨ledger, same, inv, -, lone⟩ := lone_run tradeCb clock id past
    fun call member => sound call (List.mem_append_left later member)
  obtain ⟨own, found⟩ : ∃ own, ledger.findLive id = some own := by
    cases found : ledger.findLive id with
    | none =>
        have failed : before.cancelOrder id = (false, before) := by
          rw [OrderBook.cancelOrder, show before.findLive id = none from (same.findLive_eq id).trans found]
        rw [failed] at done
        exact absurd done Bool.false_ne_true
    | some own => exact ⟨own, rfl⟩
  obtain ⟨linked, named⟩ := inv.found_linked found
  have represents : Represents cancelled (ledger.withdraw own) := (same.cancel inv found linked named).2
  have silent : (ledger.withdraw own).Traceable (fun other _ _ => other ≠ id)
      (ledger.withdraw own).reports.length none := by
    refine ⟨Nat.le_refl _, (lone once).withdraw inv linked named,
      fun _ here => absurd here.symm (Option.some_ne_none _), ?_⟩
    rw [List.drop_length]
    exact fun _ member => absurd member List.not_mem_nil
  have others (msg : OrderMessage) (member : Call.add msg ∈ later) : msg.orderId ≠ id := by
    have never := List.countP_eq_zero.mp unused _ member
    simpa [Call.adds] using never
  obtain ⟨final, sameFinal, invFinal, traceable⟩ := represents.traceable_run (inv.withdraw linked) silent
    (fun call member => sound call (List.mem_append_right past member)) others
  have gone (slot : Ptr) (linked : after.Linked slot) : (after.order slot).id ≠ id := by
    rw [show (after.order slot).id = (final.data slot).id from sameFinal.id_eq slot]
    exact traceable.orders slot ((sameFinal.linked_iff invFinal slot).mp linked)
  have missing : after.findLive id = none := by
    rw [show after.findLive id = final.findLive id from sameFinal.findLive_eq id, Option.eq_none_iff_forall_ne_some]
    intro slot there
    obtain ⟨stays, bears⟩ := invFinal.found_linked there
    exact traceable.orders slot stays bears
  have reports : after.reports = final.reports := congrArg BookCore.reports sameFinal.core
  have earlier : cancelled.reports = (ledger.withdraw own).reports := congrArg BookCore.reports represents.core
  refine ⟨?_, gone, ?_, fun newQty => ?_⟩
  · rw [reports, earlier]
    intro report member
    obtain ⟨-, -, -, -, buyer, seller, -⟩ := traceable.reports report member
    exact ⟨buyer, seller⟩
  · rw [OrderBook.cancelOrder, missing]
  · rw [OrderBook.modifyOrder, missing]

/-- The sell is cancelled, and the buy that comes later meets nobody. -/
theorem cancelled_sell_is_gone :
    let before := (OrderBook.empty true fun _ => 1).run [.add (.sell 7 65535 5)]
    let after := (before.cancelOrder 7).2.run [.add (.buy 8 65535 5)]
    (before.cancelOrder 7).1 = true ∧ (after.cancelOrder 7).1 = false :=
  ⟨by decide +kernel, (cancelled_order_is_gone true (fun _ => 1) [.add (.sell 7 65535 5)] [.add (.buy 8 65535 5)] 7
    (by decide) (by decide) (by decide) (by decide +kernel)).2.2.1⟩

end OrderEngine
