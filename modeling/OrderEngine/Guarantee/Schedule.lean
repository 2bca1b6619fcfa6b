import Mathlib.Data.Bool.Count
import OrderEngine.Guarantee.Frames
import OrderEngine.Refinement.Reports

namespace OrderEngine

open Library

/-- The threads take a step, or the gateway's owner resets the counters. -/
inductive Observation where
  | event (event : Event)
  | resetCounters

/-- The monitor records what the threads of a pipeline did: the answers of the gateway since the last
reset, the messages of the accepted calls, the dispatched messages, the reports with the number of
reports that each of them met in the outbound queue, and the reports that were consumed. -/
structure Monitor where
  pipeline : Pipeline
  answers : List Bool
  accepted : List OrderMessage
  dispatched : List OrderMessage
  emitted : List (TradeReport × Nat)
  consumed : List TradeReport

namespace Monitor

def init (clock : Nat → Nanos) : Monitor where
  pipeline := .init clock
  answers := []
  accepted := []
  dispatched := []
  emitted := []
  consumed := []

/-- The gateway was called with this message. -/
def called (monitor : Monitor) (answer : Bool) (msg : OrderMessage) : Monitor :=
  { monitor with
    answers := monitor.answers ++ [answer]
    accepted := monitor.accepted ++ (if answer then [msg] else []) }

/-- These are the reports that the dispatch of a message emits. -/
def newReports (engine : MatchingEngine) (msg : OrderMessage) : List TradeReport :=
  (engine.dispatch msg).book.reports.drop engine.book.reports.length

def step (monitor : Monitor) : Observation → Monitor
  | .resetCounters =>
    { monitor with
      pipeline := { monitor.pipeline with gateway := monitor.pipeline.gateway.resetCounters }
      answers := [] }
  | .event event =>
    let engine := monitor.pipeline.engine
    let gateway := monitor.pipeline.gateway
    let after := { monitor with pipeline := monitor.pipeline.step event }
    match event with
    | .frame buf arrival =>
      after.called (gateway.processFrame engine.inbound buf arrival).1
        { (Proto.decode buf {}).2 with arrivalCycles := arrival }
    | .inject msg arrival =>
      after.called (gateway.injectOrder engine.inbound msg arrival).1
        (if msg.arrivalCycles = 0 then { msg with arrivalCycles := arrival } else msg)
    | .poll =>
      match engine.inbound.tryPop.1 with
      | none => after
      | some msg =>
        { after with
          dispatched := monitor.dispatched ++ [msg]
          emitted := monitor.emitted ++ engine.outbound.attempts (newReports engine msg) }
    | .consume => { after with consumed := monitor.consumed ++ engine.outbound.tryPop.1.toList }

def run (monitor : Monitor) (observations : List Observation) : Monitor := observations.foldl step monitor

theorem run_append (monitor : Monitor) (past : List Observation) (observation : Observation) :
    monitor.run (past ++ [observation]) = (monitor.run past).step observation := by
  simp [run]

/-- The gateway counts its answers, the engine dispatches in order what the gateway accepted, and the
consumer receives in order what found room. -/
structure Inv (clock : Nat → Nanos) (monitor : Monitor) : Prop where
  inbound : monitor.pipeline.engine.inbound.Valid
  outbound : monitor.pipeline.engine.outbound.Valid
  queued : monitor.dispatched ++ monitor.pipeline.engine.inbound.contents = monitor.accepted
  acceptedFrames : monitor.pipeline.gateway.acceptedFrames = UInt64.ofNat (monitor.answers.count true)
  droppedFrames : monitor.pipeline.gateway.droppedFrames = UInt64.ofNat (monitor.answers.count false)
  book : monitor.pipeline.engine.book =
    (monitor.dispatched.foldl MatchingEngine.dispatch (MatchingEngine.init clock)).book
  delivered : monitor.consumed ++ monitor.pipeline.engine.outbound.contents =
    (monitor.emitted.filter fun attempt => attempt.2 ≠ kOutboundQueueSize - 1).map Prod.fst
  emitted : monitor.emitted.map Prod.fst = monitor.pipeline.engine.book.reports

end Monitor

namespace MatchingEngine

variable {engine : MatchingEngine}

theorem outboundPower : kOutboundQueueSize = 2 ^ 16 := rfl

/-- The callback pushes each report to the outbound queue. -/
theorem foldl_onTrade_outbound (reports : List TradeReport) (engine : MatchingEngine) :
    (reports.foldl onTrade engine).outbound = engine.outbound.pushAll reports := by
  induction reports generalizing engine with
  | nil => rfl
  | cons report reports ih => exact ih (engine.onTrade report)

/-- A dispatch pushes the reports that it adds to those of the book. -/
theorem dispatch_outbound (engine : MatchingEngine) (msg : OrderMessage) :
    (engine.dispatch msg).outbound = engine.outbound.pushAll (Monitor.newReports engine msg) ∧
      engine.book.reports ++ Monitor.newReports engine msg = (engine.dispatch msg).book.reports := by
  have book := engine.dispatch_book msg
  unfold Monitor.newReports
  rw [book]
  unfold dispatch
  cases msg.route with
  | none =>
      simp only [List.drop_length, List.append_nil]
      exact ⟨rfl, trivial⟩
  | some call =>
      have grown := engine.book.call_keeps_reports call
      constructor
      · exact foldl_onTrade_outbound _ _
      · exact (List.prefix_append_drop grown).symm

/-- A dispatch reads nothing of the engine but its book. -/
theorem dispatch_book_congr {other : MatchingEngine} (same : engine.book = other.book) (msg : OrderMessage) :
    (engine.dispatch msg).book = (other.dispatch msg).book := by
  rw [dispatch_book, dispatch_book, same]

end MatchingEngine

namespace MarketDataGateway

/-- A gateway call drops the message, or it accepts the message and queues it last. -/
def Received (gateway : MarketDataGateway) (queue : InboundQueue) (msg : OrderMessage)
    (result : Bool × MarketDataGateway × InboundQueue) : Prop :=
  result = (false, gateway.drop, queue) ∨
    result.1 = true ∧ result.2.1 = gateway.accept ∧ result.2.2.Valid ∧
      result.2.2.contents = queue.contents ++ [msg]

variable {gateway : MarketDataGateway} {queue : InboundQueue}

theorem enqueue_received (valid : queue.Valid) (msg : OrderMessage) :
    gateway.Received queue msg (gateway.enqueue queue msg) := by
  unfold enqueue
  rcases SPSCQueue.tryPush_cases MatchingEngine.Guarded.inboundPower valid msg with
    ⟨blocked, -⟩ | ⟨pushed, -, after, items⟩
  · rw [blocked]
    exact .inl rfl
  · have accepted : queue.tryPush msg = (true, (queue.tryPush msg).2) := by rw [← pushed]
    rw [accepted]
    exact .inr ⟨rfl, rfl, after, items⟩

/-- A frame that the decoder refuses is dropped. -/
theorem processFrame_received (valid : queue.Valid) (buf : List UInt8) (arrival : Nanos) :
    gateway.Received queue { (Proto.decode buf {}).2 with arrivalCycles := arrival }
      (gateway.processFrame queue buf arrival) := by
  unfold processFrame
  cases Proto.decode buf {} with
  | mk readable msg =>
      cases readable with
      | false => exact .inl rfl
      | true => exact enqueue_received valid _

end MarketDataGateway

namespace Monitor

variable {clock : Nat → Nanos} {monitor : Monitor}

namespace Inv

theorem init (clock : Nat → Nanos) : (Monitor.init clock).Inv clock where
  inbound := (MatchingEngine.Guarded.init clock).valid
  outbound := by
    apply SPSCQueue.init_valid
    decide
  queued := by
    show [] ++ (SPSCQueue.init {} : InboundQueue).contents = []
    rw [SPSCQueue.init_contents, List.append_nil]
  acceptedFrames := rfl
  droppedFrames := rfl
  book := rfl
  delivered := by
    show [] ++ (SPSCQueue.init {} : OutboundQueue).contents = []
    rw [SPSCQueue.init_contents, List.append_nil]
  emitted := rfl

variable (inv : monitor.Inv clock)

include inv

theorem resetCounters : (monitor.step .resetCounters).Inv clock :=
  { inv with
    acceptedFrames := rfl
    droppedFrames := rfl }

/-- A gateway call queues what it accepts and counts its answer. -/
theorem received {msg : OrderMessage} {result : Bool × MarketDataGateway × InboundQueue}
    (received : monitor.pipeline.gateway.Received monitor.pipeline.engine.inbound msg result) :
    ({ monitor with pipeline := monitor.pipeline.receive result }.called result.1 msg).Inv clock := by
  have acceptedFrames := inv.acceptedFrames
  have droppedFrames := inv.droppedFrames
  rcases received with dropped | ⟨answer, counted, valid, items⟩
  · subst dropped
    exact { inv with
      queued := by
        show _ = monitor.accepted ++ []
        rw [List.append_nil]
        exact inv.queued
      acceptedFrames := by
        show monitor.pipeline.gateway.acceptedFrames = UInt64.ofNat ((monitor.answers ++ [false]).count true)
        rw [List.count_append, acceptedFrames]
        rfl
      droppedFrames := by
        show monitor.pipeline.gateway.droppedFrames + 1 = UInt64.ofNat ((monitor.answers ++ [false]).count false)
        rw [List.count_append, droppedFrames]
        exact (UInt64.ofNat_add _ 1).symm }
  · obtain ⟨answered, gateway, queue⟩ := result
    obtain rfl : answered = true := answer
    obtain rfl : gateway = _ := counted
    exact { inv with
      inbound := valid
      queued := by
        show monitor.dispatched ++ queue.contents = monitor.accepted ++ [msg]
        rw [← inv.queued, List.append_assoc]
        exact congrArg _ items
      acceptedFrames := by
        show monitor.pipeline.gateway.acceptedFrames + 1 = UInt64.ofNat ((monitor.answers ++ [true]).count true)
        rw [List.count_append, acceptedFrames]
        exact (UInt64.ofNat_add _ 1).symm
      droppedFrames := by
        show monitor.pipeline.gateway.droppedFrames = UInt64.ofNat ((monitor.answers ++ [true]).count false)
        rw [List.count_append, droppedFrames]
        rfl }

/-- The engine dispatches the oldest message, and the callback pushes what the dispatch emits. -/
theorem polled : (monitor.step (.event .poll)).Inv clock := by
  obtain ⟨⟨gateway, engine⟩, answers, accepted, dispatched, emitted, consumed⟩ := monitor
  obtain ⟨inbound, outbound, queued, acceptedFrames, droppedFrames, book, delivered, reports⟩ := inv
  rcases SPSCQueue.tryPop_cases MatchingEngine.Guarded.inboundPower inbound with
    ⟨empty, -⟩ | ⟨msg, first, valid, items⟩
  · have idle : engine.poll.2 = engine := by
      unfold MatchingEngine.poll
      rw [empty]
    simp only [step, empty, Pipeline.step, idle]
    exact ⟨inbound, outbound, queued, acceptedFrames, droppedFrames, book, delivered, reports⟩
  · have pair : engine.inbound.tryPop = (some msg, engine.inbound.tryPop.2) := by rw [← first]
    let waiting : MatchingEngine := { engine with inbound := engine.inbound.tryPop.2 }
    have polled : engine.poll.2 = waiting.dispatch msg := by
      unfold MatchingEngine.poll
      rw [pair]
    have emits : newReports engine msg = newReports waiting msg := by
      unfold newReports
      rw [@MatchingEngine.dispatch_book_congr engine waiting rfl]
    obtain ⟨pushed, reported⟩ := waiting.dispatch_outbound msg
    obtain ⟨pushedValid, pushedItems⟩ :=
      SPSCQueue.pushAll_contents MatchingEngine.outboundPower outbound (newReports waiting msg)
    have dispatchedBook : (waiting.dispatch msg).book =
        ((dispatched ++ [msg]).foldl MatchingEngine.dispatch (MatchingEngine.init clock)).book := by
      rw [List.foldl_append]
      have same : waiting.book = (dispatched.foldl MatchingEngine.dispatch (MatchingEngine.init clock)).book := book
      exact MatchingEngine.dispatch_book_congr same msg
    simp only [step, first, Pipeline.step, polled, emits]
    constructor
    · show (waiting.dispatch msg).inbound.Valid
      rw [MatchingEngine.dispatch_inbound]
      exact valid
    · show (waiting.dispatch msg).outbound.Valid
      rw [pushed]
      exact pushedValid
    · show (dispatched ++ [msg]) ++ (waiting.dispatch msg).inbound.contents = accepted
      rw [MatchingEngine.dispatch_inbound, List.append_assoc, List.singleton_append]
      exact (congrArg _ items.symm).trans queued
    · exact acceptedFrames
    · exact droppedFrames
    · exact dispatchedBook
    · show consumed ++ (waiting.dispatch msg).outbound.contents = _
      rw [pushed, List.filter_append, List.map_append, ← delivered, List.append_assoc]
      exact congrArg _ pushedItems
    · show (emitted ++ engine.outbound.attempts (newReports waiting msg)).map Prod.fst = _
      rw [List.map_append, SPSCQueue.attempts_items, reports]
      exact reported

/-- The consumer takes the oldest report. -/
theorem consumed : (monitor.step (.event .consume)).Inv clock := by
  have popped := SPSCQueue.tryPop_cases MatchingEngine.outboundPower inv.outbound
  have delivered := inv.delivered
  rcases popped with ⟨empty, -⟩ | ⟨report, first, valid, items⟩
  · exact { inv with
      outbound := by
        show monitor.pipeline.engine.outbound.tryPop.2.Valid
        rw [empty]
        exact inv.outbound
      delivered := by
        show (monitor.consumed ++ monitor.pipeline.engine.outbound.tryPop.1.toList) ++
          monitor.pipeline.engine.outbound.tryPop.2.contents = _
        rw [empty, Option.toList_none, List.append_nil]
        exact delivered }
  · exact { inv with
      outbound := valid
      delivered := by
        show (monitor.consumed ++ monitor.pipeline.engine.outbound.tryPop.1.toList) ++
          monitor.pipeline.engine.outbound.tryPop.2.contents = _
        rw [first, Option.toList_some, List.append_assoc, List.singleton_append, ← items]
        exact delivered }

omit inv in
theorem run (clock : Nat → Nanos) (observations : List Observation) :
    ((Monitor.init clock).run observations).Inv clock := by
  induction observations using List.reverseRecOn with
  | nil => exact init clock
  | append_singleton past observation ih =>
      rw [run_append]
      cases observation with
      | resetCounters => exact ih.resetCounters
      | event event =>
          cases event with
          | frame buf arrival => exact ih.received (MarketDataGateway.processFrame_received ih.inbound buf arrival)
          | inject msg arrival => exact ih.received (MarketDataGateway.enqueue_received ih.inbound _)
          | poll => exact ih.polled
          | consume => exact ih.consumed

end Inv

/-- The pipeline does the same on every schedule: it dispatches in order what the gateway accepts, its book
is the one of that sequence alone, and the consumer misses exactly the reports that met a full queue. -/
theorem schedule_independent (clock : Nat → Nanos) (observations : List Observation) :
    let monitor := (Monitor.init clock).run observations
    let engine := monitor.pipeline.engine
    let gateway := monitor.pipeline.gateway
    monitor.dispatched ++ engine.inbound.contents = monitor.accepted ∧
      gateway.acceptedFrames + gateway.droppedFrames = UInt64.ofNat monitor.answers.length ∧
      gateway.acceptedFrames = UInt64.ofNat (monitor.answers.count true) ∧
      engine.book = (monitor.dispatched.foldl MatchingEngine.dispatch (MatchingEngine.init clock)).book ∧
      monitor.emitted.map Prod.fst = engine.book.reports ∧
      monitor.consumed ++ engine.outbound.contents =
        (monitor.emitted.filter fun attempt => attempt.2 ≠ kOutboundQueueSize - 1).map Prod.fst := by
  intro monitor engine gateway
  have inv : monitor.Inv clock := Inv.run clock observations
  have every : monitor.answers.count true + monitor.answers.count false = monitor.answers.length :=
    List.count_true_add_count_false monitor.answers
  refine ⟨inv.queued, ?_, inv.acceptedFrames, inv.book, inv.emitted, inv.delivered⟩
  rw [← every, UInt64.ofNat_add, ← inv.acceptedFrames, ← inv.droppedFrames]

end Monitor

end OrderEngine
