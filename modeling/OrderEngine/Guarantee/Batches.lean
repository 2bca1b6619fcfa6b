import OrderEngine.Construction.Driver
import OrderEngine.Guarantee.Uninterrupted

namespace OrderEngine

open Library

/-- Cutting before more comes and cutting again is cutting once. -/
theorem take_append_take {T : Type} (size : Nat) (front back : List T) :
    (front.take size ++ back).take size = (front ++ back).take size := by
  rw [List.take_append, List.take_append, List.take_take, Nat.min_self, List.length_take]
  congr 2
  omega

namespace SPSCQueue

variable {T : Type} {capacity bits : Nat} {queue : SPSCQueue T capacity}

/-- A push keeps what fits, and one cell stays free. -/
theorem tryPush_take (power : capacity = 2 ^ bits) (valid : queue.Valid) (item : T) :
    (queue.tryPush item).2.Valid ∧
      (queue.tryPush item).2.contents = (queue.contents ++ [item]).take (capacity - 1) := by
  have size : queue.contents.length = queue.size := ringItems_length ..
  rcases tryPush_cases power valid item with ⟨blocked, full⟩ | ⟨-, room, after, items⟩
  · rw [blocked, List.take_append_of_le_length (by omega), List.take_of_length_le (by omega)]
    exact ⟨valid, rfl⟩
  · rw [items, List.take_of_length_le (by simp; omega)]
    exact ⟨after, rfl⟩

theorem pushAll_take (power : capacity = 2 ^ bits) (valid : queue.Valid) (items : List T) :
    (queue.pushAll items).Valid ∧ (queue.pushAll items).contents = (queue.contents ++ items).take (capacity - 1) := by
  induction items generalizing queue with
  | nil =>
      have size : queue.contents.length = queue.size := ringItems_length ..
      have bound := size_lt valid
      rw [List.append_nil, List.take_of_length_le (by omega)]
      exact ⟨valid, rfl⟩
  | cons item items ih =>
      obtain ⟨after, pushed⟩ := tryPush_take power valid item
      obtain ⟨last, all⟩ := ih after
      refine ⟨last, ?_⟩
      change ((queue.tryPush item).2.pushAll items).contents = _
      rw [all, pushed, take_append_take, List.append_assoc, List.singleton_append]

end SPSCQueue

namespace MatchingEngine

variable {engine : MatchingEngine}

/-- What a row of dispatches leaves behind. -/
structure Dispatched (engine : MatchingEngine) (msgs : List OrderMessage) (reports : List TradeReport)
    (after : MatchingEngine) : Prop where
  book : after.book = engine.book.run (msgs.filterMap OrderMessage.route)
  made : after.book.reports = engine.book.reports ++ reports
  outbound : after.outbound = engine.outbound.pushAll reports
  processed : after.msgsProcessed = engine.msgsProcessed + UInt64.ofNat msgs.length
  emitted : after.tradesEmitted = engine.tradesEmitted + UInt64.ofNat reports.length

theorem Dispatched.refl (engine : MatchingEngine) : engine.Dispatched [] [] engine where
  book := rfl
  made := (List.append_nil _).symm
  outbound := rfl
  processed := (UInt64.add_zero _).symm
  emitted := (UInt64.add_zero _).symm

theorem Dispatched.next {msgs : List OrderMessage} {reports : List TradeReport} {after : MatchingEngine}
    (dispatched : engine.Dispatched msgs reports after) (msg : OrderMessage) :
    engine.Dispatched (msgs ++ [msg]) (reports ++ Monitor.newReports after msg) (after.dispatch msg) := by
  obtain ⟨pushed, grown⟩ := after.dispatch_outbound msg
  obtain ⟨counted, sent⟩ := after.dispatch_counters msg
  refine ⟨?_, ?_, ?_, ?_, ?_⟩
  · rw [dispatch_book, dispatched.book, List.filterMap_append]
    cases routed : msg.route with
    | none => simp [routed]
    | some call => simp [routed, OrderBook.run_append]
  · rw [← grown, dispatched.made, List.append_assoc]
  · rw [pushed, dispatched.outbound]
    exact List.foldl_append.symm
  · rw [counted, dispatched.processed, List.length_append, UInt64.ofNat_add, UInt64.add_assoc]
    rfl
  · rw [sent, dispatched.emitted, List.length_append, UInt64.ofNat_add, UInt64.add_assoc]

theorem Dispatched.popInbound {msgs : List OrderMessage} {reports : List TradeReport} {after : MatchingEngine}
    (dispatched : engine.Dispatched msgs reports after) : engine.Dispatched msgs reports after.popInbound.2 where
  book := dispatched.book
  made := dispatched.made
  outbound := dispatched.outbound
  processed := dispatched.processed
  emitted := dispatched.emitted

/-- A call to `run_once` dispatches what the queue holds, and it returns how much that was. -/
theorem runOnce_dispatched (valid : engine.inbound.Valid) : ∃ reports,
    engine.runOnce.1 = engine.inbound.contents.length ∧ engine.runOnce.2.inbound.Valid ∧
      engine.runOnce.2.inbound.contents = [] ∧
      engine.Dispatched engine.inbound.contents reports engine.runOnce.2 := by
  -- The round has counted and dispatched a first part of the queue, and the queue holds the rest.
  let Left (rest : List OrderMessage) (round : Nat × MatchingEngine) : Prop :=
    ∃ msgs reports, engine.inbound.contents = msgs ++ rest ∧ round.1 = msgs.length ∧
      round.2.inbound.Valid ∧ round.2.inbound.contents = rest ∧ engine.Dispatched msgs reports round.2
  have start : Left engine.inbound.contents (0, engine) := ⟨[], [], rfl, rfl, valid, rfl, .refl engine⟩
  have bound : engine.inbound.contents.length ≤ kInboundQueueSize := by
    rw [SPSCQueue.contents, ringItems_length]
    exact (SPSCQueue.size_lt valid).le
  have nothing (round : Nat × MatchingEngine) (left : Left [] round) :
      round.2.popInbound.1 = none ∧ Left [] (round.1, round.2.popInbound.2) := by
    obtain ⟨msgs, reports, all, count, last, empty, dispatched⟩ := left
    rcases SPSCQueue.tryPop_cases Guarded.inboundPower last with ⟨popped, -⟩ | ⟨item, -, -, some⟩
    · unfold popInbound
      rw [popped]
      exact ⟨rfl, msgs, reports, all, count, last, empty, dispatched⟩
    · rw [empty] at some
      exact absurd some (List.cons_ne_nil _ _).symm
  have taken (msg : OrderMessage) (rest : List OrderMessage) (round : Nat × MatchingEngine)
      (left : Left (msg :: rest) round) :
      round.2.popInbound.1 = some msg ∧ Left rest (round.1 + 1, round.2.popInbound.2.dispatch msg) := by
    obtain ⟨msgs, reports, all, count, last, full, dispatched⟩ := left
    rcases SPSCQueue.tryPop_cases Guarded.inboundPower last with ⟨-, empty⟩ | ⟨item, popped, after, some⟩
    · rw [full] at empty
      exact absurd empty (List.cons_ne_nil _ _)
    · rw [full] at some
      obtain ⟨rfl, rest⟩ := List.cons.inj some
      have kept := round.2.popInbound.2.dispatch_inbound msg
      refine ⟨popped, msgs ++ [msg], _, ?_, ?_, ?_, ?_, dispatched.popInbound.next msg⟩
      · rw [all, List.append_assoc, List.singleton_append]
      · rw [count, List.length_append, List.length_singleton]
      · rw [kept]
        exact after
      · rw [kept]
        exact rest.symm
  have done : Left [] engine.runOnce := popLoop_rule Left nothing taken bound start
  obtain ⟨msgs, reports, all, count, last, empty, dispatched⟩ := done
  rw [List.append_nil] at all
  rw [all]
  exact ⟨reports, count, last, empty, dispatched⟩

/-- A drain takes all the reports of the queue and leaves the rest of the engine alone. -/
theorem drain_eq (valid : engine.outbound.Valid) : engine.drain.1 = engine.outbound.contents ∧
    engine.drain.2.outbound.Valid ∧ engine.drain.2.outbound.contents = [] ∧
      ∃ outbound, engine.drain.2 = { engine with outbound := outbound } := by
  let Left (rest : List TradeReport) (round : List TradeReport × MatchingEngine) : Prop :=
    engine.outbound.contents = round.1 ++ rest ∧ round.2.outbound.Valid ∧ round.2.outbound.contents = rest ∧
      ∃ outbound, round.2 = { engine with outbound := outbound }
  have start : Left engine.outbound.contents ([], engine) := ⟨rfl, valid, rfl, engine.outbound, rfl⟩
  have bound : engine.outbound.contents.length ≤ kOutboundQueueSize := by
    rw [SPSCQueue.contents, ringItems_length]
    exact (SPSCQueue.size_lt valid).le
  have nothing (round : List TradeReport × MatchingEngine) (left : Left [] round) :
      round.2.popOutbound.1 = none ∧ Left [] (round.1, round.2.popOutbound.2) := by
    obtain ⟨all, last, empty, same⟩ := left
    rcases SPSCQueue.tryPop_cases outboundPower last with ⟨popped, -⟩ | ⟨item, -, -, some⟩
    · unfold popOutbound
      rw [popped]
      exact ⟨rfl, all, last, empty, same⟩
    · rw [empty] at some
      exact absurd some (List.cons_ne_nil _ _).symm
  have taken (report : TradeReport) (rest : List TradeReport) (round : List TradeReport × MatchingEngine)
      (left : Left (report :: rest) round) :
      round.2.popOutbound.1 = some report ∧ Left rest (round.1 ++ [report], round.2.popOutbound.2) := by
    obtain ⟨all, last, full, outbound, same⟩ := left
    rcases SPSCQueue.tryPop_cases outboundPower last with ⟨-, empty⟩ | ⟨item, popped, after, some⟩
    · rw [full] at empty
      exact absurd empty (List.cons_ne_nil _ _)
    · rw [full] at some
      obtain ⟨rfl, rest⟩ := List.cons.inj some
      refine ⟨popped, ?_, after, rest.symm, round.2.outbound.tryPop.2, ?_⟩
      · rw [all, List.append_assoc, List.singleton_append]
      · unfold popOutbound
        rw [same]
  have done : Left [] engine.drain := popLoop_rule Left nothing taken bound start
  obtain ⟨all, last, empty, same⟩ := done
  rw [List.append_nil] at all
  exact ⟨all.symm, last, empty, same⟩

end MatchingEngine

/-- This is the message that a gateway call queues if it finds room. -/
def Submission.message : Submission → Option OrderMessage
  | .frame buf arrival =>
      match Proto.decode buf {} with
      | (false, _) => none
      | (true, msg) => some { msg with arrivalCycles := arrival }
  | .inject msg arrival => some (if msg.arrivalCycles = 0 then { msg with arrivalCycles := arrival } else msg)

namespace Driver

variable {driver after : Driver} {calls : List Submission}

/-- What a row of gateway calls leaves behind when it starts with an empty inbound queue. -/
structure Submitted (driver : Driver) (calls : List Submission) (after : Driver) : Prop where
  rounds : after.rounds = driver.rounds
  received : after.received = driver.received
  engine : ∃ inbound, after.pipeline.engine = { driver.pipeline.engine with inbound := inbound }
  valid : after.pipeline.engine.inbound.Valid
  contents : after.pipeline.engine.inbound.contents =
    (calls.filterMap Submission.message).take (kInboundQueueSize - 1)
  accepted : after.pipeline.gateway.acceptedFrames =
    driver.pipeline.gateway.acceptedFrames + UInt64.ofNat after.pipeline.engine.inbound.contents.length
  dropped : ∃ lost, after.pipeline.gateway.droppedFrames = driver.pipeline.gateway.droppedFrames + UInt64.ofNat lost ∧
    calls.length = after.pipeline.engine.inbound.contents.length + lost

namespace Submitted

theorem refl (valid : driver.pipeline.engine.inbound.Valid) (empty : driver.pipeline.engine.inbound.contents = []) :
    driver.Submitted [] driver where
  rounds := rfl
  received := rfl
  engine := ⟨_, rfl⟩
  valid := valid
  contents := empty
  accepted := by
    rw [empty]
    exact (UInt64.add_zero _).symm
  dropped := by
    refine ⟨0, (UInt64.add_zero _).symm, ?_⟩
    rw [empty]
    rfl

variable (submitted : driver.Submitted calls after) {call : Submission}

include submitted

/-- A frame that the decoder refuses is dropped. -/
theorem refused (unread : call.message = none) {later : Driver}
    (same : later = { after with pipeline := { after.pipeline with gateway := after.pipeline.gateway.drop } }) :
    driver.Submitted (calls ++ [call]) later := by
  subst same
  obtain ⟨lost, dropped, all⟩ := submitted.dropped
  refine { submitted with contents := ?_, dropped := ⟨lost + 1, ?_, ?_⟩ }
  · rw [List.filterMap_append, List.filterMap_cons_none unread, List.filterMap_nil, List.append_nil]
    exact submitted.contents
  · change after.pipeline.gateway.droppedFrames + 1 = _
    rw [dropped, UInt64.ofNat_add, UInt64.add_assoc]
    rfl
  · rw [List.length_append, all]
    rfl

/-- A message is accepted when it finds room, and dropped otherwise. -/
theorem offered {msg : OrderMessage} (read : call.message = some msg) {later : Driver}
    (same : later = { after with
      pipeline := after.pipeline.receive (after.pipeline.gateway.enqueue after.pipeline.engine.inbound msg) }) :
    driver.Submitted (calls ++ [call]) later := by
  obtain ⟨lost, dropped, all⟩ := submitted.dropped
  obtain ⟨inbound, engine⟩ := submitted.engine
  have cut : ((calls ++ [call]).filterMap Submission.message).take (kInboundQueueSize - 1) =
      (after.pipeline.engine.inbound.contents ++ [msg]).take (kInboundQueueSize - 1) := by
    rw [List.filterMap_append, List.filterMap_cons_some read, List.filterMap_nil, submitted.contents,
      take_append_take]
  have pushed := (SPSCQueue.tryPush_take MatchingEngine.Guarded.inboundPower submitted.valid msg).2
  subst same
  unfold MarketDataGateway.enqueue
  rcases SPSCQueue.tryPush_cases MatchingEngine.Guarded.inboundPower submitted.valid msg with
    ⟨blocked, full⟩ | ⟨stored, room, valid, items⟩
  · rw [blocked] at pushed ⊢
    refine ⟨submitted.rounds, submitted.received, ⟨inbound, engine⟩, submitted.valid, pushed.trans cut.symm,
      submitted.accepted, lost + 1, ?_, ?_⟩
    · change after.pipeline.gateway.droppedFrames + 1 = _
      rw [dropped, UInt64.ofNat_add, UInt64.add_assoc]
      rfl
    · rw [List.length_append, all]
      rfl
  · have answer : after.pipeline.engine.inbound.tryPush msg =
        (true, (after.pipeline.engine.inbound.tryPush msg).2) := by
      rw [← stored]
    rw [answer]
    have longer := congrArg List.length items
    rw [List.length_append, List.length_singleton] at longer
    refine ⟨submitted.rounds, submitted.received, ⟨(after.pipeline.engine.inbound.tryPush msg).2, ?_⟩, valid,
      pushed.trans cut.symm, ?_, lost, dropped, ?_⟩
    · simp only [Pipeline.receive]
      rw [engine]
    · change after.pipeline.gateway.acceptedFrames + 1 =
        _ + UInt64.ofNat (after.pipeline.engine.inbound.tryPush msg).2.contents.length
      rw [longer, submitted.accepted, UInt64.ofNat_add, UInt64.add_assoc]
      rfl
    · change (calls ++ [call]).length = (after.pipeline.engine.inbound.tryPush msg).2.contents.length + lost
      rw [longer, List.length_append, all, List.length_singleton]
      omega

theorem next (call : Submission) : driver.Submitted (calls ++ [call]) (after.submit call) := by
  cases call with
  | frame buf arrival =>
      cases read : Proto.decode buf {} with
      | mk readable msg =>
          cases readable with
          | false =>
              refine submitted.refused (by simp only [Submission.message, read]) ?_
              simp only [submit, Pipeline.step, MarketDataGateway.processFrame, read]
              rfl
          | true =>
              have whole : (Submission.frame buf arrival).message = some { msg with arrivalCycles := arrival } := by
                simp only [Submission.message, read]
              apply submitted.offered whole
              simp only [submit, Pipeline.step, MarketDataGateway.processFrame, read]
  | inject msg arrival => exact submitted.offered rfl rfl

end Submitted

theorem submitted_all (valid : driver.pipeline.engine.inbound.Valid)
    (empty : driver.pipeline.engine.inbound.contents = []) (calls : List Submission) :
    driver.Submitted calls (calls.foldl submit driver) := by
  induction calls using List.reverseRecOn with
  | nil => exact .refl valid empty
  | append_singleton past call ih =>
      rw [List.foldl_append]
      exact ih.next call

/-- Between two batches both queues are empty. -/
structure Idle (driver : Driver) : Prop where
  inboundValid : driver.pipeline.engine.inbound.Valid
  inbound : driver.pipeline.engine.inbound.contents = []
  outboundValid : driver.pipeline.engine.outbound.Valid
  outbound : driver.pipeline.engine.outbound.contents = []

theorem init_idle (clock : Nat → Nanos) : (init clock).Idle where
  inboundValid := SPSCQueue.init_valid (by decide) _
  inbound := SPSCQueue.init_contents _
  outboundValid := SPSCQueue.init_valid (by decide) _
  outbound := SPSCQueue.init_contents _

/-- What a batch leaves behind: these messages were dispatched, and they made these reports. -/
structure Batched (driver : Driver) (calls : List Submission) (msgs : List OrderMessage) (reports : List TradeReport)
    (after : Driver) : Prop where
  idle : after.Idle
  rounds : after.rounds = driver.rounds ++ [msgs.length]
  received : after.received = driver.received ++ reports.take (kOutboundQueueSize - 1)
  book : after.pipeline.engine.book = driver.pipeline.engine.book.run (msgs.filterMap OrderMessage.route)
  made : after.pipeline.engine.book.reports = driver.pipeline.engine.book.reports ++ reports
  processed : after.pipeline.engine.msgsProcessed =
    driver.pipeline.engine.msgsProcessed + UInt64.ofNat msgs.length
  emitted : after.pipeline.engine.tradesEmitted =
    driver.pipeline.engine.tradesEmitted + UInt64.ofNat reports.length
  accepted : after.pipeline.gateway.acceptedFrames =
    driver.pipeline.gateway.acceptedFrames + UInt64.ofNat msgs.length
  dropped : ∃ lost, after.pipeline.gateway.droppedFrames = driver.pipeline.gateway.droppedFrames + UInt64.ofNat lost ∧
    calls.length = msgs.length + lost

theorem Idle.batched (idle : driver.Idle) (calls : List Submission) : ∃ reports,
    driver.Batched calls ((calls.filterMap Submission.message).take (kInboundQueueSize - 1)) reports
      (driver.batch calls) := by
  have submitted := submitted_all idle.inboundValid idle.inbound calls
  obtain ⟨inbound, engine⟩ := submitted.engine
  obtain ⟨reports, count, valid, empty, dispatched⟩ := MatchingEngine.runOnce_dispatched submitted.valid
  have outbound : (calls.foldl submit driver).pipeline.engine.outbound = driver.pipeline.engine.outbound := by
    rw [engine]
  have book : (calls.foldl submit driver).pipeline.engine.book = driver.pipeline.engine.book := by
    rw [engine]
  have processed : (calls.foldl submit driver).pipeline.engine.msgsProcessed =
      driver.pipeline.engine.msgsProcessed := by
    rw [engine]
  have emitted : (calls.foldl submit driver).pipeline.engine.tradesEmitted =
      driver.pipeline.engine.tradesEmitted := by
    rw [engine]
  obtain ⟨outboundValid, fits⟩ := SPSCQueue.pushAll_take MatchingEngine.outboundPower idle.outboundValid reports
  rw [← outbound, ← dispatched.outbound] at outboundValid
  rw [idle.outbound, List.nil_append, ← outbound, ← dispatched.outbound] at fits
  obtain ⟨received, last, drained, after, same⟩ := MatchingEngine.drain_eq outboundValid
  rw [submitted.contents] at count dispatched
  have final : (driver.batch calls).pipeline.engine =
      (calls.foldl submit driver).pipeline.engine.runOnce.2.drain.2 := rfl
  have rounds : (driver.batch calls).rounds =
      (calls.foldl submit driver).rounds ++ [(calls.foldl submit driver).pipeline.engine.runOnce.1] := rfl
  have taken : (driver.batch calls).received = (calls.foldl submit driver).received ++
      (calls.foldl submit driver).pipeline.engine.runOnce.2.drain.1 := rfl
  have accepted := submitted.accepted
  have dropped := submitted.dropped
  rw [submitted.contents] at accepted dropped
  refine ⟨reports, ⟨⟨?_, ?_, last, drained⟩, ?_, ?_, ?_, ?_, ?_, ?_, accepted, dropped⟩⟩
  · rw [final, same]
    exact valid
  · rw [final, same]
    exact empty
  · rw [rounds, submitted.rounds, count]
  · rw [taken, submitted.received, received, fits]
  · rw [final, same, ← book]
    exact dispatched.book
  · rw [final, same, ← book]
    exact dispatched.made
  · rw [final, same, ← processed]
    exact dispatched.processed
  · rw [final, same, ← emitted]
    exact dispatched.emitted

theorem run_append (driver : Driver) (past : List (List Submission)) (calls : List Submission) :
    driver.run (past ++ [calls]) = (driver.run past).batch calls := by
  simp [run]

theorem run_idle (clock : Nat → Nanos) (batches : List (List Submission)) : ((init clock).run batches).Idle := by
  induction batches using List.reverseRecOn with
  | nil => exact init_idle clock
  | append_singleton past calls ih =>
      obtain ⟨reports, batched⟩ := ih.batched calls
      rw [run_append]
      exact batched.idle

end Driver

/-- A round of the driver accepts the first messages that fit, dispatches exactly those in order, returns their
number, hands over the first reports that fit and leaves both queues empty. -/
theorem batch_exact (clock : Nat → Nanos) (past : List (List Submission)) (calls : List Submission) :
    let before := (Driver.init clock).run past
    let after := before.batch calls
    let msgs := (calls.filterMap Submission.message).take (kInboundQueueSize - 1)
    let reports := after.pipeline.engine.book.reports.drop before.pipeline.engine.book.reports.length
    after.pipeline.engine.book = before.pipeline.engine.book.run (msgs.filterMap OrderMessage.route) ∧
      after.rounds = before.rounds ++ [msgs.length] ∧
      after.received = before.received ++ reports.take (kOutboundQueueSize - 1) ∧
      after.pipeline.engine.inbound.contents = [] ∧ after.pipeline.engine.outbound.contents = [] ∧
      after.pipeline.engine.msgsProcessed = before.pipeline.engine.msgsProcessed + UInt64.ofNat msgs.length ∧
      after.pipeline.engine.tradesEmitted = before.pipeline.engine.tradesEmitted + UInt64.ofNat reports.length ∧
      after.pipeline.gateway.acceptedFrames = before.pipeline.gateway.acceptedFrames + UInt64.ofNat msgs.length ∧
      after.pipeline.gateway.droppedFrames =
        before.pipeline.gateway.droppedFrames + UInt64.ofNat (calls.length - msgs.length) := by
  intro before after msgs reports
  obtain ⟨made, batched⟩ := (Driver.run_idle clock past).batched calls
  have new : reports = made := by
    show after.pipeline.engine.book.reports.drop before.pipeline.engine.book.reports.length = made
    rw [batched.made]
    exact List.drop_left
  obtain ⟨lost, dropped, all⟩ := batched.dropped
  rw [new]
  refine ⟨batched.book, batched.rounds, batched.received, batched.idle.inbound, batched.idle.outbound,
    batched.processed, batched.emitted, batched.accepted, ?_⟩
  have size : calls.length = msgs.length + lost := all
  rw [show calls.length - msgs.length = lost by omega]
  exact dropped

/-- How the calls are cut into batches that fit into the queue does not matter: no message is dropped for want of
room, the book and the counters are those of the calls in one row, and the reports arrive in the book's order,
all of them when no batch makes more than fit. -/
theorem batching_is_transparent (clock : Nat → Nanos) (batches : List (List Submission))
    (fits : ∀ calls ∈ batches, calls.length < kInboundQueueSize) :
    let driver := (Driver.init clock).run batches
    let msgs := batches.flatten.filterMap Submission.message
    driver.pipeline.engine.book = (OrderBook.empty true clock).run (msgs.filterMap OrderMessage.route) ∧
      driver.rounds.sum = msgs.length ∧
      driver.pipeline.engine.msgsProcessed = UInt64.ofNat msgs.length ∧
      driver.pipeline.engine.tradesEmitted = UInt64.ofNat driver.pipeline.engine.book.reports.length ∧
      driver.pipeline.gateway.acceptedFrames = UInt64.ofNat msgs.length ∧
      driver.pipeline.gateway.droppedFrames = UInt64.ofNat (batches.flatten.length - msgs.length) ∧
      driver.received.Sublist driver.pipeline.engine.book.reports ∧
      ((∀ past calls, past ++ [calls] <+: batches →
          (((Driver.init clock).run past).batch calls).pipeline.engine.book.reports.length <
            ((Driver.init clock).run past).pipeline.engine.book.reports.length + kOutboundQueueSize) →
        driver.received = driver.pipeline.engine.book.reports) := by
  induction batches using List.reverseRecOn with
  | nil => exact ⟨rfl, rfl, rfl, rfl, rfl, rfl, List.Sublist.refl _, fun _ => rfl⟩
  | append_singleton past calls ih =>
      intro driver msgs
      obtain ⟨book, count, processed, emitted, accepted, dropped, received, whole⟩ :=
        ih fun other member => fits other (by simp [member])
      obtain ⟨reports, batched⟩ := (Driver.run_idle clock past).batched calls
      rw [← Driver.run_append] at batched
      have small := fits calls (by simp)
      have few : (calls.filterMap Submission.message).length ≤ calls.length := List.length_filterMap_le _ _
      rw [List.take_of_length_le (by omega)] at batched
      have all : msgs = past.flatten.filterMap Submission.message ++ calls.filterMap Submission.message := by
        show (past ++ [calls]).flatten.filterMap Submission.message = _
        rw [List.flatten_append, List.flatten_singleton, List.filterMap_append]
      have size : msgs.length = (past.flatten.filterMap Submission.message).length +
          (calls.filterMap Submission.message).length := by
        rw [all, List.length_append]
      refine ⟨?_, ?_, ?_, ?_, ?_, ?_, ?_, fun fewer => ?_⟩
      · rw [all, List.filterMap_append, ← OrderBook.run_run, ← book]
        exact batched.book
      · rw [size, ← count]
        show ((Driver.init clock).run (past ++ [calls])).rounds.sum = _
        rw [batched.rounds, List.sum_append, List.sum_singleton]
      · rw [size, UInt64.ofNat_add, ← processed]
        exact batched.processed
      · have made : driver.pipeline.engine.book.reports = _ := batched.made
        rw [made, List.length_append, UInt64.ofNat_add, ← emitted]
        exact batched.emitted
      · rw [size, UInt64.ofNat_add, ← accepted]
        exact batched.accepted
      · obtain ⟨lost, last, total⟩ := batched.dropped
        have less : (past.flatten.filterMap Submission.message).length ≤ past.flatten.length :=
          List.length_filterMap_le _ _
        have longer : (past ++ [calls]).flatten.length - msgs.length =
            past.flatten.length - (past.flatten.filterMap Submission.message).length + lost := by
          rw [List.flatten_append, List.flatten_singleton, List.length_append]
          omega
        rw [longer, UInt64.ofNat_add, ← dropped]
        exact last
      · show List.Sublist ((Driver.init clock).run (past ++ [calls])).received _
        rw [batched.received, show driver.pipeline.engine.book.reports = _ from batched.made]
        exact received.append (List.take_sublist _ _)
      · have room := fewer past calls List.prefix_rfl
        rw [← Driver.run_append, batched.made, List.length_append] at room
        show ((Driver.init clock).run (past ++ [calls])).received = _
        rw [batched.received, show driver.pipeline.engine.book.reports = _ from batched.made,
          List.take_of_length_le (by omega)]
        congr 1
        exact whole fun front others inside => fewer front others (inside.trans (List.prefix_append _ _))

/-- Two batches make one trade. -/
theorem batching_is_transparent_for_two :
    let batches := [[Submission.inject (.sell 1 65535 5) 3], [.inject (.buy 2 65535 5) 4, .frame [] 5]]
    let driver := (Driver.init fun _ => 1).run batches
    driver.pipeline.engine.book.reports.length = 1 ∧ driver.rounds.sum = 2 ∧
      driver.pipeline.gateway.droppedFrames = 1 := by
  intro batches driver
  have whole := batching_is_transparent (fun _ => 1) batches (by decide)
  exact ⟨by decide +kernel, whole.2.1.trans (by decide), whole.2.2.2.2.2.1.trans (by decide)⟩

end OrderEngine
