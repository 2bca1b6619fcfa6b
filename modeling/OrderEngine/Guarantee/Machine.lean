import OrderEngine.Guarantee.Priority
import OrderEngine.Refinement.Machine

namespace OrderEngine

open Library

/-- A step of a thread does one thing at most. -/
theorem Machine.explain_single (machine : Machine) (move : Move) :
    ∃ deed : Option Deed, machine.explain move = deed.toList := by
  cases move with
  | gateway call =>
      simp only [explain]
      split
      · split
        · exact ⟨some .refuse, rfl⟩
        · exact ⟨none, rfl⟩
      · next msg place =>
          split
          · exact ⟨some (.submit msg), rfl⟩
          · exact ⟨none, rfl⟩
      · exact ⟨none, rfl⟩
  | engine =>
      simp only [explain]
      split
      · split
        · exact ⟨some .take, rfl⟩
        · exact ⟨none, rfl⟩
      · exact ⟨some .perform, rfl⟩
      · exact ⟨none, rfl⟩
      · split
        · exact ⟨some .emit, rfl⟩
        · exact ⟨none, rfl⟩
  | consumer =>
      simp only [explain]
      split
      · exact ⟨some .receive, rfl⟩
      · exact ⟨none, rfl⟩

/-- Every interleaving of the atomic steps of the three threads does what a sequence of whole queue operations
does. Each operation happens at one step of its own thread, between its start and its end. -/
theorem interleavings_linearize (clock : Nat → Nanos) (moves : List Move) :
    let trace := Machine.simulation.trace (Machine.init clock)
    ((Machine.init clock).run moves).exchange = (trace moves).foldl Exchange.step (Exchange.init clock) ∧
      ∀ past move, past ++ [move] <+: moves → ∃ deed : Option Deed,
        trace (past ++ [move]) = trace past ++ deed.toList ∧ trace (past ++ [move]) <+: trace moves := by
  intro trace
  have start : Machine.simulation.Related (Machine.init clock) (Exchange.init clock) :=
    ⟨.init clock, Machine.init_exchange clock⟩
  refine ⟨(Machine.simulation.run start moves).2, ?_⟩
  intro past move inside
  obtain ⟨deed, only⟩ := ((Machine.init clock).run past).explain_single move
  refine ⟨deed, ?_, Machine.simulation.trace_prefix _ inside⟩
  rw [← only]
  show Machine.simulation.trace _ _ = _
  rw [Machine.simulation.trace_append]
  exact congrArg _ (List.append_nil _)

/-- A reached machine satisfies its own invariant and the one of the exchange that it simulates. -/
theorem Machine.reached (clock : Nat → Nanos) (moves : List Move) : ((Machine.init clock).run moves).Inv ∧
    ((Machine.init clock).run moves).exchange.Inv clock := by
  have start : Machine.simulation.Related (Machine.init clock) (Exchange.init clock) :=
    ⟨.init clock, Machine.init_exchange clock⟩
  have step {exchange : Exchange} (deed : Deed) (holds : exchange.Inv clock) : (exchange.step deed).Inv clock :=
    holds.step deed
  obtain ⟨exchange, ⟨inv, rfl⟩, holds⟩ := @Simulation.keeps _ _ _ _ Machine.simulation _ _ start
    (Exchange.Inv clock) step (Exchange.Inv.init clock) moves
  exact ⟨inv, holds⟩

/-- Under every interleaving each accepted message is dispatched, in the matching thread's hands or queued, in
this order, the book is the one of the dispatched messages alone, each of its reports is received, queued, refused
by a full queue or not yet pushed, and every counter counts. The `int` of `run_once` does so until it overflows, which
it cannot do before as many messages are dispatched. -/
theorem nothing_lost_interleaved (clock : Nat → Nanos) (moves : List Move) :
    let machine := (Machine.init clock).run moves
    machine.dispatched ++ machine.engineAt.current.toList ++ machine.inbound.queue.contents =
        machine.inbound.pushedItems ∧
      machine.book = (OrderBook.empty true clock).run (machine.dispatched.filterMap OrderMessage.route) ∧
      machine.outbound.pushed.map Prod.fst ++ machine.engineAt.unsent = machine.book.reports ∧
      machine.outbound.poppedItems ++ machine.outbound.queue.contents = machine.outbound.pushedItems ∧
      (machine.answers ++ machine.gatewayAt.decided).count true = machine.inbound.pushedItems.length ∧
      machine.gateway.acceptedFrames = UInt64.ofNat (machine.answers.count true) ∧
      machine.gateway.droppedFrames = UInt64.ofNat (machine.answers.count false) ∧
      machine.msgsProcessed = UInt64.ofNat machine.dispatched.length ∧
      machine.tradesEmitted = UInt64.ofNat machine.outbound.pushed.length ∧
      (machine.overflowed = false →
        (machine.rounds.map Int32.toInt).sum + machine.processed.toInt + machine.engineAt.uncounted =
          machine.dispatched.length) ∧
      (machine.dispatched.length < 2 ^ 31 → machine.overflowed = false) := by
  intro machine
  obtain ⟨inv, holds⟩ : machine.Inv ∧ machine.exchange.Inv clock := Machine.reached clock moves
  have succeeded := inv.inbound.succeeded
  refine ⟨?_, holds.book, holds.reports, holds.delivered, ?_, inv.acceptedFrames, inv.droppedFrames,
    inv.msgsProcessed, inv.tradesEmitted, fun exact => (inv.counted exact).sum, ?_⟩
  · rw [← succeeded]
    exact holds.messages
  · rw [← succeeded]
    exact holds.counted
  · intro few
    cases passed : machine.overflowed with
    | false => rfl
    | true => exact absurd (inv.overflow passed) (Nat.not_le.mpr few)

/-- These are the calls of the book that the dispatched messages ask for. -/
def Machine.calls (machine : Machine) : List Call := machine.dispatched.filterMap OrderMessage.route

/-- A downstream consumer receives trades of the reference book for the dispatched messages, in its order, under
every interleaving. It receives them all, up to those on their way, unless a report finds the queue full. -/
theorem consumer_receives_reference_trades (clock : Nat → Nanos) (moves : List Move) :
    let machine := (Machine.init clock).run moves
    (∀ call ∈ machine.calls, call.Admissible) →
    (∀ past call, past ++ [call] <+: machine.calls → ((OrderBook.empty true clock).run past).Fresh call) →
      (machine.outbound.poppedItems.map TradeReport.trade).Sublist (Reference.empty.run machine.calls).trades ∧
      machine.book.view = (Reference.empty.run machine.calls).queue ∧
      ((∀ push ∈ machine.outbound.pushed, push.2 = true) →
        (machine.outbound.poppedItems ++ machine.outbound.queue.contents ++ machine.engineAt.unsent).map
          TradeReport.trade = (Reference.empty.run machine.calls).trades) := by
  intro machine admissible fresh
  obtain ⟨inv, holds⟩ : machine.Inv ∧ machine.exchange.Inv clock := Machine.reached clock moves
  have simulated : Simulated true clock machine.calls := by
    refine always_of_step (simulated_nil true clock) ?_ (List.prefix_refl machine.calls)
    intro past call inside earlier
    exact earlier.step (admissible call (mem_of_past inside)) (fresh past call inside)
  obtain ⟨ledger, same, settled, registered, tracks, -⟩ := simulated
  have book : machine.book = (OrderBook.empty true clock).run machine.calls := holds.book
  have trades : machine.book.reports.map TradeReport.trade = (Reference.empty.run machine.calls).trades := by
    rw [book, same.core]
    exact tracks.trades
  have reports : machine.outbound.pushed.map Prod.fst ++ machine.engineAt.unsent = machine.book.reports :=
    holds.reports
  have delivered : machine.outbound.poppedItems ++ machine.outbound.queue.contents =
      (machine.outbound.pushed.filter Prod.snd).map Prod.fst := holds.delivered
  refine ⟨?_, ?_, ?_⟩
  · rw [← trades, ← reports]
    apply List.Sublist.map
    have received : machine.outbound.poppedItems.Sublist (machine.outbound.pushed.map Prod.fst) := by
      have kept := (List.sublist_append_left machine.outbound.poppedItems machine.outbound.queue.contents)
      rw [delivered] at kept
      exact kept.trans (List.filter_sublist.map _)
    exact received.trans (List.sublist_append_left _ _)
  · rw [book, same.view_eq settled.toInv]
    exact tracks.view
  · intro roomy
    have all : machine.outbound.pushed.filter Prod.snd = machine.outbound.pushed :=
      List.filter_eq_self.mpr roomy
    rw [delivered, all, reports, trades]

/-- The gateway injects a sell and a buy, the matching thread dispatches both, and the consumer pops. -/
def oneTrade : List Move :=
  List.replicate 6 (.gateway (.inject (.sell 1 65535 2) 0)) ++
    List.replicate 6 (.gateway (.inject (.buy 2 65535 2) 0)) ++ List.replicate 16 .engine ++ List.replicate 4 .consumer

theorem consumer_receives_one_trade :
    let machine := (Machine.init fun _ => 1).run oneTrade
    machine.outbound.poppedItems.map TradeReport.trade = [⟨2, 1, 65535, 2⟩] ∧
      (machine.outbound.poppedItems.map TradeReport.trade).Sublist (Reference.empty.run machine.calls).trades := by
  intro machine
  let book := OrderBook.empty true fun _ => 1
  have calls : machine.calls = [.add (.sell 1 65535 2), .add (.buy 2 65535 2)] := by decide +kernel
  have start : Simulated true (fun _ => 1) [] := simulated_nil true fun _ => 1
  have first : (book.run []).Fresh (.add (.sell 1 65535 2)) :=
    start.fresh (by decide +kernel) (by decide +kernel)
  have one := start.step (by decide) first
  have second : (book.run [.add (.sell 1 65535 2)]).Fresh (.add (.buy 2 65535 2)) :=
    one.fresh (by decide +kernel) (by decide +kernel)
  refine ⟨by decide +kernel, (consumer_receives_reference_trades (fun _ => 1) oneTrade ?_ ?_).1⟩
  · show ∀ call ∈ machine.calls, call.Admissible
    rw [calls]
    decide
  · show ∀ past call, past ++ [call] <+: machine.calls → _
    rw [calls]
    refine forall_past_cons first ?_
    exact forall_past_cons second forall_past_nil

end OrderEngine
