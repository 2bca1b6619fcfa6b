import OrderEngine.Construction.Pipeline
import OrderEngine.Guarantee.Schedule
import OrderEngine.Refinement.Machine

namespace OrderEngine

open SPSCQueue

/-- The callback counts every report and no message. -/
theorem MatchingEngine.foldl_onTrade_counters (reports : List TradeReport) (engine : MatchingEngine) :
    (reports.foldl onTrade engine).msgsProcessed = engine.msgsProcessed ∧
      (reports.foldl onTrade engine).tradesEmitted = engine.tradesEmitted + UInt64.ofNat reports.length := by
  induction reports generalizing engine with
  | nil => exact ⟨rfl, (UInt64.add_zero _).symm⟩
  | cons report reports ih =>
      obtain ⟨processed, emitted⟩ := ih (engine.onTrade report)
      refine ⟨processed, emitted.trans ?_⟩
      rw [List.length_cons, Nat.add_comm, UInt64.ofNat_add]
      exact UInt64.add_assoc _ _ _

theorem MatchingEngine.dispatch_counters (engine : MatchingEngine) (msg : OrderMessage) :
    (engine.dispatch msg).msgsProcessed = engine.msgsProcessed + 1 ∧
      (engine.dispatch msg).tradesEmitted =
        engine.tradesEmitted + UInt64.ofNat (Monitor.newReports engine msg).length := by
  unfold Monitor.newReports
  rw [dispatch_book]
  unfold dispatch
  cases msg.route with
  | none =>
      simp only [List.drop_length, List.length_nil]
      exact ⟨trivial, (UInt64.add_zero _).symm⟩
  | some call => exact foldl_onTrade_counters _ _

/-- The queue takes what it has room for, and its ends stay between two operations. -/
theorem Threads.foldl_wholePush {T : Type} {capacity : Nat} (items : List T) (threads : Threads T capacity) :
    let after := items.foldl wholePush threads
    after.queue = threads.queue.pushAll items ∧ after.producer = threads.producer ∧
      after.consumer = threads.consumer ∧ after.poppedItems = threads.poppedItems := by
  induction items generalizing threads with
  | nil => exact ⟨rfl, rfl, rfl, rfl⟩
  | cons item items ih => exact ih (threads.wholePush item)

namespace Machine

variable {machine after : Machine}

/-- Some schedule of the threads leads from one state to the other. -/
def Reaches (machine after : Machine) : Prop := ∃ moves, machine.run moves = after

theorem Reaches.trans {last : Machine} (first : machine.Reaches after) (second : after.Reaches last) :
    machine.Reaches last := by
  obtain ⟨past, rfl⟩ := first
  obtain ⟨later, rfl⟩ := second
  exact ⟨past ++ later, run_append machine past later⟩

theorem Reaches.step (machine : Machine) (move : Move) : machine.Reaches (machine.step move) := ⟨[move], rfl⟩

section Alone

open Relation (ReflTransGen)

/-- Steps inside an operation on a queue take the machine around it along. -/
theorem reaches_around {T : Type} {capacity : Nat} {inside : Threads T capacity → Threads T capacity → Prop}
    {threads last : Threads T capacity} (around : Threads T capacity → Machine) (move : Move)
    (follows : ∀ before next, inside before next → (around before).step move = around next)
    (steps : ReflTransGen inside threads last) : (around threads).Reaches (around last) := by
  induction steps with
  | refl => exact ⟨[], rfl⟩
  | tail _ step ih => exact ih.trans ⟨[move], follows _ _ step⟩

theorem push_alone {msg : OrderMessage} (place : machine.gatewayAt = .pushing msg)
    (idle : machine.inbound.producer = .idle) :
    machine.Reaches { machine with
      inbound := machine.inbound.wholePush msg
      gatewayAt := .counting (machine.inbound.queue.tryPush msg).1 } := by
  obtain ⟨last, pushes, ends, whole⟩ := machine.inbound.producer_alone idle msg
  have silent := reaches_around (fun inbound => { machine with inbound := inbound }) (.gateway (.inject msg 0))
    (by
      rintro before next ⟨silent, rfl⟩
      simp [step, gatewayStep, place, silent]) pushes
  refine silent.trans ⟨[.gateway (.inject msg 0)], ?_⟩
  simp [run, step, gatewayStep, place, ends, whole]

/-- The matching thread goes through a pop up to the step that ends it. -/
theorem pop_alone (place : machine.engineAt = .popping) (idle : machine.inbound.consumer = .idle) :
    ∃ last, machine.Reaches { machine with inbound := last } ∧ last.popResult = some machine.inbound.queue.tryPop.1 ∧
      last.consumerStep = machine.inbound.wholePop := by
  obtain ⟨last, pops, ends, whole⟩ := machine.inbound.consumer_alone idle
  refine ⟨last, ?_, ends, whole⟩
  apply reaches_around (fun inbound => { machine with inbound := inbound }) .engine _ pops
  rintro before next ⟨silent, rfl⟩
  simp [step, engineStep, popStep, place, silent]

/-- A pop that finds nothing ends the call to `run_once`. -/
theorem pop_none_alone (place : machine.engineAt = .popping) (idle : machine.inbound.consumer = .idle)
    (none : machine.inbound.queue.tryPop.1 = none) :
    machine.Reaches { machine with
      inbound := machine.inbound.wholePop
      rounds := machine.rounds ++ [machine.processed]
      processed := 0 } := by
  obtain ⟨last, silent, ends, whole⟩ := pop_alone place idle
  refine silent.trans ⟨[.engine], ?_⟩
  simp [run, step, engineStep, popStep, place, ends, whole, none]

theorem pop_some_alone {msg : OrderMessage} (place : machine.engineAt = .popping)
    (idle : machine.inbound.consumer = .idle) (some : machine.inbound.queue.tryPop.1 = some msg) :
    machine.Reaches { machine with
      inbound := machine.inbound.wholePop
      engineAt := .dispatching msg } := by
  obtain ⟨last, silent, ends, whole⟩ := pop_alone place idle
  refine silent.trans ⟨[.engine], ?_⟩
  simp [run, step, engineStep, popStep, place, ends, whole, some]

theorem emitOne_alone {report : TradeReport} {rest : List TradeReport}
    (place : machine.engineAt = .emitting (report :: rest)) (idle : machine.outbound.producer = .idle) :
    machine.Reaches { machine with
      outbound := machine.outbound.wholePush report
      engineAt := .emitting rest
      tradesEmitted := machine.tradesEmitted + 1 } := by
  obtain ⟨last, pushes, ends, whole⟩ := machine.outbound.producer_alone idle report
  have silent := reaches_around (fun outbound => { machine with outbound := outbound }) .engine
    (by
      rintro before next ⟨silent, rfl⟩
      simp [step, engineStep, emitStep, place, silent]) pushes
  refine silent.trans ⟨[.engine], ?_⟩
  simp [run, step, engineStep, emitStep, place, ends, whole]

theorem receive_alone (idle : machine.outbound.consumer = .idle) :
    machine.Reaches { machine with outbound := machine.outbound.wholePop } := by
  obtain ⟨last, pops, -, whole⟩ := machine.outbound.consumer_alone idle
  have silent := reaches_around (fun outbound => { machine with outbound := outbound }) .consumer
    (by
      rintro before next ⟨-, rfl⟩
      rfl) pops
  refine silent.trans ⟨[.consumer], ?_⟩
  simp [run, step, consumerStep, whole]

/-- The matching thread dispatches as the engine does, up to the reports that it has yet to push. -/
theorem dispatch_eq {engine : MatchingEngine} (same : machine.book = engine.book) (msg : OrderMessage) :
    machine.dispatch msg = { machine with
      msgsProcessed := machine.msgsProcessed + 1
      dispatched := machine.dispatched ++ [msg]
      book := (engine.dispatch msg).book
      engineAt := .emitting (Monitor.newReports engine msg) } := by
  unfold dispatch Monitor.newReports
  rw [MatchingEngine.dispatch_book, ← same]
  cases msg.route with
  | none => simp
  | some call => rfl

/-- The callback pushes the reports of one message one after the other, and then the message is counted. -/
theorem emit_alone {reports : List TradeReport} (place : machine.engineAt = .emitting reports)
    (idle : machine.outbound.producer = .idle) :
    machine.Reaches { machine with
      outbound := reports.foldl Threads.wholePush machine.outbound
      tradesEmitted := machine.tradesEmitted + UInt64.ofNat reports.length }.countMessage := by
  induction reports generalizing machine with
  | nil =>
      refine ⟨[.engine], ?_⟩
      simp [run, step, engineStep, place, countMessage]
  | cons report rest ih =>
      have first := emitOne_alone place idle
      have others := @ih { machine with
        outbound := machine.outbound.wholePush report
        engineAt := .emitting rest
        tradesEmitted := machine.tradesEmitted + 1 } rfl idle
      rw [List.length_cons, Nat.add_comm rest.length, UInt64.ofNat_add, ← UInt64.add_assoc]
      exact first.trans others

end Alone

/-- Each thread stands between two operations, the members are those of the pipeline, and so is what the threads
have been given: the answers of the gateway, the accepted and the dispatched messages and the consumed reports. -/
structure Shows (machine : Machine) (monitor : Monitor) : Prop where
  gateway : machine.gateway = monitor.pipeline.gateway
  inbound : machine.inbound.queue = monitor.pipeline.engine.inbound
  outbound : machine.outbound.queue = monitor.pipeline.engine.outbound
  book : machine.book = monitor.pipeline.engine.book
  msgsProcessed : machine.msgsProcessed = monitor.pipeline.engine.msgsProcessed
  tradesEmitted : machine.tradesEmitted = monitor.pipeline.engine.tradesEmitted
  answers : machine.answers = monitor.answers
  accepted : machine.inbound.stored = monitor.accepted
  dispatched : machine.dispatched = monitor.dispatched
  consumed : machine.outbound.poppedItems = monitor.consumed
  gatewayAt : machine.gatewayAt = .idle
  engineAt : machine.engineAt = .popping
  pushing : machine.inbound.producer = .idle
  popping : machine.inbound.consumer = .idle
  emitting : machine.outbound.producer = .idle
  receiving : machine.outbound.consumer = .idle

namespace Shows

theorem init (clock : Nat → Nanos) : (Machine.init clock).Shows (Monitor.init clock) := by
  constructor <;> rfl

variable {monitor : Monitor} (shows : machine.Shows monitor)

include shows

/-- A decoded or injected message is pushed, and its answer is counted. -/
theorem enqueue {call : Submission} {msg : OrderMessage}
    (submitted : machine.submit call = { machine with gatewayAt := .pushing msg }) :
    let result := monitor.pipeline.gateway.enqueue monitor.pipeline.engine.inbound msg
    ∃ after, machine.Reaches after ∧
      after.Shows ({ monitor with pipeline := monitor.pipeline.receive result }.called result.1 msg) := by
  intro result
  have start : machine.Reaches { machine with gatewayAt := .pushing msg } := by
    refine ⟨[.gateway call], ?_⟩
    rw [← submitted]
    simp [run, Machine.step, gatewayStep, shows.gatewayAt]
  have pushes := @push_alone { machine with gatewayAt := .pushing msg } msg rfl shows.pushing
  refine ⟨_, (start.trans pushes).trans (.step _ (.gateway call)), ?_⟩
  have gateway := shows.gateway
  have queue := shows.inbound
  have answers := shows.answers
  have stored := shows.accepted
  have same : result = monitor.pipeline.gateway.enqueue machine.inbound.queue msg := by rw [queue]
  rw [same]
  unfold MarketDataGateway.enqueue
  cases pushed : machine.inbound.queue.tryPush msg with
  | mk answer grown =>
      simp only [Machine.step, gatewayStep, count, Threads.wholePush, pushed]
      cases answer with
      | false => exact { shows with
          gateway := congrArg MarketDataGateway.drop gateway
          inbound := rfl
          answers := congrArg (· ++ [false]) answers
          accepted := congrArg (· ++ []) stored
          gatewayAt := rfl }
      | true => exact { shows with
          gateway := congrArg MarketDataGateway.accept gateway
          inbound := rfl
          answers := congrArg (· ++ [true]) answers
          accepted := congrArg (· ++ [msg]) stored
          gatewayAt := rfl }

/-- A frame that the decoder refuses is only counted. -/
theorem frame (buf : List UInt8) (arrival : Nanos) : ∃ after,
    machine.Reaches after ∧ after.Shows (monitor.step (.event (.frame buf arrival))) := by
  simp only [Monitor.step, Pipeline.step, MarketDataGateway.processFrame]
  cases decoded : Proto.decode buf {} with
  | mk readable msg =>
      cases readable with
      | false =>
          refine ⟨machine.count false, ⟨[.gateway (.frame buf arrival), .gateway (.frame buf arrival)], ?_⟩, ?_⟩
          · simp [run, Machine.step, gatewayStep, shows.gatewayAt, submit, decoded, count]
          · exact { shows with
              gateway := congrArg MarketDataGateway.drop shows.gateway
              answers := congrArg (· ++ [false]) shows.answers
              accepted := shows.accepted.trans (List.append_nil _).symm
              gatewayAt := rfl }
      | true =>
          apply @enqueue machine monitor shows (.frame buf arrival)
          simp [submit, decoded]

/-- A poll that finds the queue empty ends a call to `run_once` and changes nothing else. -/
theorem poll_none (empty : machine.inbound.queue.tryPop.1 = none) : ∃ after,
    machine.Reaches after ∧ after.Shows (monitor.step (.event .poll)) := by
  have same : machine.inbound.queue.tryPop = (none, machine.inbound.queue) := by
    rw [tryPop] at empty ⊢
    split at empty
    · next meets => rw [if_pos meets]
    · exact absurd empty (Option.some_ne_none _)
  have pops := pop_none_alone shows.engineAt shows.popping empty
  refine ⟨_, pops, ?_⟩
  simp only [Monitor.step, Pipeline.step, MatchingEngine.poll, ← shows.inbound, same]
  exact { shows with
    inbound := by
      show machine.inbound.queue.tryPop.2 = _
      rw [same]
      exact shows.inbound }

/-- A message is popped, the book makes its call, and the callback pushes what it reports. -/
theorem poll_some {msg : OrderMessage} (first : machine.inbound.queue.tryPop.1 = some msg) : ∃ after,
    machine.Reaches after ∧ after.Shows (monitor.step (.event .poll)) := by
  have pops := pop_some_alone shows.engineAt shows.popping first
  have pair : monitor.pipeline.engine.inbound.tryPop = (some msg, machine.inbound.wholePop.queue) := by
    rw [← shows.inbound, ← first]
    rfl
  let popped : Machine := { machine with
    inbound := machine.inbound.wholePop
    engineAt := .dispatching msg }
  let engine : MatchingEngine := { monitor.pipeline.engine with inbound := machine.inbound.wholePop.queue }
  have calls : popped.Reaches (popped.dispatch msg) := .step popped .engine
  have called : popped.dispatch msg = _ := @dispatch_eq popped engine shows.book msg
  rw [called] at calls
  refine ⟨_, (pops.trans calls).trans (emit_alone rfl shows.emitting), ?_⟩
  obtain ⟨queue, producer, consumer, items⟩ := Threads.foldl_wholePush (Monitor.newReports engine msg) machine.outbound
  obtain ⟨outbound, -⟩ := engine.dispatch_outbound msg
  obtain ⟨processed, emitted⟩ := engine.dispatch_counters msg
  simp only [Monitor.step, Pipeline.step, MatchingEngine.poll, pair]
  exact { shows with
    inbound := (engine.dispatch_inbound msg).symm
    outbound := by
      have same : engine.outbound = machine.outbound.queue := shows.outbound.symm
      rw [outbound, same]
      exact queue
    book := rfl
    msgsProcessed := (congrArg (· + 1) shows.msgsProcessed).trans processed.symm
    tradesEmitted := (congrArg (· + UInt64.ofNat _) shows.tradesEmitted).trans emitted.symm
    dispatched := congrArg (· ++ [msg]) shows.dispatched
    consumed := items.trans shows.consumed
    engineAt := rfl
    emitting := producer.trans shows.emitting
    receiving := consumer.trans shows.receiving }

theorem poll : ∃ after, machine.Reaches after ∧ after.Shows (monitor.step (.event .poll)) := by
  cases popped : machine.inbound.queue.tryPop.1 with
  | none => exact shows.poll_none popped
  | some msg => exact shows.poll_some popped

/-- The consumer's pop touches nothing but the outbound queue. -/
theorem consume : ∃ after, machine.Reaches after ∧ after.Shows (monitor.step (.event .consume)) := by
  refine ⟨_, receive_alone shows.receiving, ?_⟩
  exact { shows with
    outbound := by
      show machine.outbound.queue.tryPop.2 = monitor.pipeline.engine.outbound.tryPop.2
      rw [shows.outbound]
    consumed := by
      show machine.outbound.wholePop.poppedItems = monitor.consumed ++ monitor.pipeline.engine.outbound.tryPop.1.toList
      rw [Threads.wholePop_poppedItems, shows.consumed, shows.outbound] }

theorem step (event : Event) : ∃ after, machine.Reaches after ∧ after.Shows (monitor.step (.event event)) := by
  cases event with
  | frame buf arrival => exact shows.frame buf arrival
  | inject msg arrival => exact @enqueue machine monitor shows (.inject msg arrival) _ rfl
  | poll => exact shows.poll
  | consume => exact shows.consume

end Shows

end Machine

/-- A monitor that resets no counter watches the pipeline's own run. -/
theorem Monitor.run_pipeline (clock : Nat → Nanos) (events : List Event) :
    ((Monitor.init clock).run (events.map .event)).pipeline = (Pipeline.init clock).run events := by
  induction events using List.reverseRecOn with
  | nil => rfl
  | append_singleton past event ih =>
      rw [List.map_append, List.map_singleton, run_append, Pipeline.run_append, ← ih]
      cases event with
      | frame buf arrival => rfl
      | inject msg arrival => rfl
      | poll =>
          simp only [Monitor.step]
          split <;> rfl
      | consume => rfl

/-- Every run of the pipeline is one of the interleavings of the atomic steps of its threads: some schedule of the
threads ends between their operations with the same gateway, queues, book and counters, after the same answers,
accepted and dispatched messages and consumed reports. -/
theorem pipeline_runs_are_interleavings (clock : Nat → Nanos) (events : List Event) :
    let monitor := (Monitor.init clock).run (events.map .event)
    monitor.pipeline = (Pipeline.init clock).run events ∧
      ∃ moves, ((Machine.init clock).run moves).Shows monitor := by
  intro monitor
  refine ⟨Monitor.run_pipeline clock events, ?_⟩
  show ∃ moves, ((Machine.init clock).run moves).Shows ((Monitor.init clock).run (events.map .event))
  induction events using List.reverseRecOn with
  | nil => exact ⟨[], .init clock⟩
  | append_singleton past event ih =>
      obtain ⟨moves, shows⟩ := ih
      obtain ⟨after, ⟨later, rfl⟩, shown⟩ := shows.step event
      refine ⟨moves ++ later, ?_⟩
      rw [Machine.run_append, List.map_append, List.map_singleton, Monitor.run_append]
      exact shown

end OrderEngine
