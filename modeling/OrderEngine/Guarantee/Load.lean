import OrderEngine.Guarantee.Machine
import OrderEngine.Guarantee.Turnover
import OrderEngine.Guarantee.WaitFree

namespace OrderEngine

open Library

def Call.isAdd : Call → Bool
  | .add _ => true
  | _ => false

/-- A run makes at most as many reports as it has adds. -/
theorem reports_le_adds (clock : Nat → Nanos) {calls : List Call} (admissible : ∀ call ∈ calls, call.Admissible) :
    ((OrderBook.empty true clock).run calls).reports.length ≤ calls.countP Call.isAdd := by
  have paid := turnover_run true clock admissible
  have gains : 0 ≤ tally (fun book call => (OrderBook.call book call).2) OrderBook.leaves
      (OrderBook.empty true clock) calls := by
    apply tally_nonneg
    intro book call
    unfold OrderBook.leaves
    split
    · split <;> decide
    · decide
  have few (book : OrderBook) (calls : List Call) :
      tally (fun book call => (OrderBook.call book call).2) OrderBook.enters book calls ≤
        calls.countP Call.isAdd := by
    induction calls generalizing book with
    | nil => exact Int.le_refl 0
    | cons call calls ih =>
        have rest := ih (book.call call).2
        have one : book.enters call ≤ ((if call.isAdd then 1 else 0 : Nat) : Int) := by
          cases call with
          | add msg =>
              simp only [OrderBook.enters, Call.isAdd, if_true]
              split <;> decide
          | cancel id => exact Int.le_refl 0
          | modify id newQty => exact Int.le_refl 0
        rw [tally, List.countP_cons]
        omega
  have bound := few (OrderBook.empty true clock) calls
  rw [reports_length_run clock admissible]
  omega

namespace Exchange

variable {exchange : Exchange}

/-- A report is only lost when the outbound queue is full. -/
theorem step_emitted (deed : Deed) : (exchange.step deed).emitted = exchange.emitted ∨
    ∃ report rest, exchange.unsent = report :: rest ∧ (exchange.step deed).emitted =
      exchange.emitted ++ [(report, decide (exchange.outbound.length + 1 < kOutboundQueueSize))] := by
  cases deed with
  | refuse => exact .inl rfl
  | submit msg =>
      simp only [step, offer]
      split <;> exact .inl rfl
  | take =>
      simp only [step, take]
      split <;> exact .inl rfl
  | perform =>
      simp only [step, perform]
      split <;> exact .inl rfl
  | emit =>
      simp only [step, emit]
      split
      · exact .inl rfl
      · next report rest waiting => exact .inr ⟨report, rest, waiting, rfl⟩
  | receive =>
      simp only [step, receive]
      split <;> exact .inl rfl

theorem step_performed (deed : Deed) : exchange.performed <+: (exchange.step deed).performed := by
  cases deed with
  | refuse => exact List.prefix_rfl
  | submit msg =>
      simp only [step, offer]
      split <;> exact List.prefix_rfl
  | take =>
      simp only [step, take]
      split <;> exact List.prefix_rfl
  | perform =>
      simp only [step, perform]
      split
      · exact List.prefix_append _ _
      · exact List.prefix_rfl
  | emit =>
      simp only [step, emit]
      split <;> exact List.prefix_rfl
  | receive =>
      simp only [step, receive]
      split <;> exact List.prefix_rfl

end Exchange

namespace Machine

variable (clock : Nat → Nanos)

/-- One more step of a run does one thing of the exchange or none. -/
theorem run_step (past : List Move) (move : Move) : ∃ deed : Option Deed,
    ((Machine.init clock).run (past ++ [move])).exchange =
      deed.toList.foldl Exchange.step ((Machine.init clock).run past).exchange := by
  obtain ⟨deed, only⟩ := ((Machine.init clock).run past).explain_single move
  obtain ⟨inv, -⟩ := reached clock past
  have sound := simulation.sound move (⟨inv, rfl⟩ : simulation.Related _ _)
  refine ⟨deed, ?_⟩
  rw [run_append, ← only]
  exact sound.2

/-- The messages dispatched so far stay the first ones. -/
theorem calls_prefix {past moves : List Move} (inside : past <+: moves) :
    ((Machine.init clock).run past).calls <+: ((Machine.init clock).run moves).calls := by
  obtain ⟨later, rfl⟩ := inside
  apply List.IsPrefix.filterMap
  induction later using List.reverseRecOn with
  | nil => rw [List.append_nil]
  | append_singleton later move ih =>
      rw [← List.append_assoc]
      obtain ⟨deed, stepped⟩ := run_step clock (past ++ later) move
      refine ih.trans ?_
      show ((Machine.init clock).run (past ++ later)).exchange.performed <+:
        ((Machine.init clock).run ((past ++ later) ++ [move])).exchange.performed
      rw [stepped]
      cases deed with
      | none => exact List.prefix_rfl
      | some deed => exact Exchange.step_performed deed

end Machine

/-- A full outbound queue and the report at hand are more reports than a run with fewer adds makes. -/
theorem Exchange.Inv.room {clock : Nat → Nanos} {exchange : Exchange} (inv : exchange.Inv clock)
    (admissible : ∀ call ∈ exchange.performed.filterMap OrderMessage.route, call.Admissible)
    (behind : (exchange.performed.filterMap OrderMessage.route).countP Call.isAdd <
      exchange.received.length + kOutboundQueueSize)
    (kept : ∀ push ∈ exchange.emitted, push.2 = true) {report : TradeReport} {rest : List TradeReport}
    (waiting : exchange.unsent = report :: rest) : exchange.outbound.length + 1 < kOutboundQueueSize := by
  have delivered := congrArg List.length inv.delivered
  have reports := congrArg List.length inv.reports
  have made := reports_le_adds clock admissible
  rw [List.filter_eq_self.mpr kept, List.length_append, List.length_map] at delivered
  rw [waiting, List.length_append, List.length_map, List.length_cons, inv.book] at reports
  by_contra full
  omega

section Load

variable (clock : Nat → Nanos) (moves : List Move)

/-- The consumer is never as many reports behind the adds as the queue is long. -/
def Machine.KeepsUp : Prop :=
  ∀ past, past <+: moves → ((Machine.init clock).run past).calls.countP Call.isAdd <
    ((Machine.init clock).run past).outbound.poppedItems.length + kOutboundQueueSize

/-- Under every schedule in which the consumer keeps up with the adds, no report finds the queue full, and every
report of the book is received, queued or about to be pushed, in order. -/
theorem no_report_lost (admissible : ∀ call ∈ ((Machine.init clock).run moves).calls, call.Admissible)
    (keepsUp : Machine.KeepsUp clock moves) :
    let machine := (Machine.init clock).run moves
    (∀ push ∈ machine.outbound.pushed, push.2 = true) ∧
      machine.outbound.poppedItems ++ machine.outbound.queue.contents ++ machine.engineAt.unsent =
        machine.book.reports := by
  intro machine
  have kept : ∀ push ∈ machine.outbound.pushed, push.2 = true := by
    refine @always_of_step Move moves
      (fun past => ∀ push ∈ ((Machine.init clock).run past).outbound.pushed, push.2 = true) ?_ ?_ moves List.prefix_rfl
    · intro push member
      exact absurd member List.not_mem_nil
    · intro past move inside earlier
      have within : past <+: moves := (List.prefix_append past [move]).trans inside
      obtain ⟨-, holds⟩ := Machine.reached clock past
      obtain ⟨deed, stepped⟩ := Machine.run_step clock past move
      have emitted := congrArg Exchange.emitted stepped
      change ((Machine.init clock).run (past ++ [move])).outbound.pushed = _ at emitted
      rw [emitted]
      cases deed with
      | none => exact earlier
      | some deed =>
          rcases @Exchange.step_emitted ((Machine.init clock).run past).exchange deed with
            same | ⟨report, rest, waiting, longer⟩
          · simp only [Option.toList_some, List.foldl_cons, List.foldl_nil, same]
            exact earlier
          · have room := holds.room
              (fun call member => admissible call ((Machine.calls_prefix clock within).subset member))
              (keepsUp past within) earlier waiting
            simp only [Option.toList_some, List.foldl_cons, List.foldl_nil, longer]
            intro push member
            rcases List.mem_append.mp member with old | new
            · exact earlier push old
            · rw [List.mem_singleton.mp new]
              exact decide_eq_true room
  obtain ⟨-, holds⟩ : machine.Inv ∧ machine.exchange.Inv clock := Machine.reached clock moves
  have delivered : machine.outbound.poppedItems ++ machine.outbound.queue.contents =
      (machine.outbound.pushed.filter Prod.snd).map Prod.fst := holds.delivered
  refine ⟨kept, ?_⟩
  rw [delivered, List.filter_eq_self.mpr kept]
  exact holds.reports

/-- A run with fewer calls than the queue is long keeps up, however slow the consumer is. -/
theorem Machine.KeepsUp.of_few (few : ((Machine.init clock).run moves).calls.length < kOutboundQueueSize) :
    Machine.KeepsUp clock moves := by
  intro past inside
  have shorter := (Machine.calls_prefix clock inside).length_le
  have adds : ((Machine.init clock).run past).calls.countP Call.isAdd ≤ _ := List.countP_le_length
  omega

end Load

theorem one_report_kept :
    let machine := (Machine.init fun _ => 1).run oneTrade
    machine.outbound.poppedItems.length = 1 ∧
      machine.outbound.poppedItems ++ machine.outbound.queue.contents ++ machine.engineAt.unsent =
        machine.book.reports := by
  intro machine
  have calls : machine.calls = [.add (.sell 1 65535 2), .add (.buy 2 65535 2)] := by decide +kernel
  have admissible : ∀ call ∈ machine.calls, call.Admissible := by
    rw [calls]
    decide
  have few : machine.calls.length < kOutboundQueueSize := by
    rw [calls]
    exact Nat.le_of_ble_eq_true rfl
  exact ⟨by decide +kernel, (no_report_lost (fun _ => 1) oneTrade admissible (.of_few _ _ few)).2⟩

end OrderEngine
