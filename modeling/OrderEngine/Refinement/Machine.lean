import OrderEngine.Library.Simulation
import OrderEngine.Reference.Exchange
import OrderEngine.Refinement.Threads

namespace OrderEngine

open Library

/-- A count below the largest `int` goes up by one. -/
theorem toInt_succ {count : Int32} (below : count ≠ Int32.maxValue) : (count + 1).toInt = count.toInt + 1 := by
  have low := count.le_toInt
  have high := count.toInt_le
  have apart : count.toInt ≠ Int32.maxValue.toInt := fun same => below (Int32.toInt_inj.mp same)
  rw [Int32.toInt_maxValue] at high apart
  rw [Int32.toInt_add, Int32.toInt_one, Int.bmod_eq_of_le] <;> omega

/-- The answer of the call is known, but the call has not returned. -/
def GatewayAt.decided : GatewayAt → List Bool
  | .counting answer => [answer]
  | _ => []

def EngineAt.current : EngineAt → Option OrderMessage
  | .dispatching msg => some msg
  | _ => none

def EngineAt.unsent : EngineAt → List TradeReport
  | .emitting reports => reports
  | _ => []

/-- The book has seen this number of messages that `run_once` has not counted yet. -/
def EngineAt.uncounted : EngineAt → Nat
  | .emitting _ => 1
  | _ => 0

/-- The gateway thread is inside a push exactly when the queue's producer may be. -/
def GatewayAt.Owns : GatewayAt → ProducerAt OrderMessage → Prop
  | .pushing msg, producer => producer.Holds msg
  | _, producer => producer = .idle

def EngineAt.Owns : EngineAt → ProducerAt TradeReport → Prop
  | .emitting (report :: _), producer => producer.Holds report
  | _, producer => producer = .idle

namespace Machine

/-- The exchange sees whole queue operations and no place inside them. -/
def exchange (machine : Machine) : Exchange where
  inbound := machine.inbound.queue.contents
  current := machine.engineAt.current
  book := machine.book
  unsent := machine.engineAt.unsent
  outbound := machine.outbound.queue.contents
  answers := machine.answers ++ machine.gatewayAt.decided
  accepted := machine.inbound.stored
  performed := machine.dispatched
  emitted := machine.outbound.pushed
  received := machine.outbound.poppedItems

/-- A queue operation happens at the step that ends it. -/
def explain (machine : Machine) : Move → List Deed
  | .gateway call =>
      match machine.gatewayAt with
      | .idle => match (machine.submit call).gatewayAt with
        | .counting _ => [.refuse]
        | _ => []
      | .pushing msg => if machine.inbound.pushResult.isSome then [.submit msg] else []
      | .counting _ => []
  | .engine =>
      match machine.engineAt with
      | .popping => match machine.inbound.popResult with
        | some (some _) => [.take]
        | _ => []
      | .dispatching _ => [.perform]
      | .emitting [] => []
      | .emitting (_ :: _) => if machine.outbound.pushResult.isSome then [.emit] else []
  | .consumer => match machine.outbound.popResult with
    | some (some _) => [.receive]
    | _ => []

/-- The results of `run_once` and its current count add up to the messages that the book has seen. -/
structure Counted (results : List Int32) (processed : Int32) (uncounted dispatched : Nat) : Prop where
  earlier : 0 ≤ (results.map Int32.toInt).sum
  current : 0 ≤ processed.toInt
  sum : (results.map Int32.toInt).sum + processed.toInt + uncounted = dispatched

/-- The counters count what has happened, and each producer is where its thread says. The `int` of `run_once`
does so until it overflows, which takes as many messages. -/
structure Inv (machine : Machine) : Prop where
  inbound : machine.inbound.Inv
  outbound : machine.outbound.Inv
  gatewayOwns : machine.gatewayAt.Owns machine.inbound.producer
  engineOwns : machine.engineAt.Owns machine.outbound.producer
  acceptedFrames : machine.gateway.acceptedFrames = UInt64.ofNat (machine.answers.count true)
  droppedFrames : machine.gateway.droppedFrames = UInt64.ofNat (machine.answers.count false)
  msgsProcessed : machine.msgsProcessed = UInt64.ofNat machine.dispatched.length
  tradesEmitted : machine.tradesEmitted = UInt64.ofNat machine.outbound.pushed.length
  counted : machine.overflowed = false →
    Counted machine.rounds machine.processed machine.engineAt.uncounted machine.dispatched.length
  overflow : machine.overflowed = true → 2 ^ 31 ≤ machine.dispatched.length

namespace Counted

variable {results : List Int32} {processed : Int32} {uncounted dispatched : Nat}
  (counted : Counted results processed uncounted dispatched)

include counted

/-- A call that returns adds its count to the results and starts again at zero. -/
theorem returned : Counted (results ++ [processed]) 0 uncounted dispatched := by
  have total : ((results ++ [processed]).map Int32.toInt).sum = (results.map Int32.toInt).sum + processed.toInt := by
    simp
  have earlier := counted.earlier
  have current := counted.current
  refine ⟨by omega, le_refl 0, ?_⟩
  rw [total, Int32.toInt_zero, add_zero]
  exact counted.sum

/-- The book sees a message before the call counts it. -/
theorem seen : Counted results processed (uncounted + 1) (dispatched + 1) :=
  ⟨counted.earlier, counted.current, by have sum := counted.sum; omega⟩

theorem next (below : processed ≠ Int32.maxValue) (pending : uncounted = 1) :
    Counted results (processed + 1) 0 dispatched := by
  have next := toInt_succ below
  have current := counted.current
  have sum := counted.sum
  exact ⟨counted.earlier, by omega, by omega⟩

/-- The largest `int` stands for as many messages. -/
theorem overflow (largest : processed = Int32.maxValue) (pending : uncounted = 1) : 2 ^ 31 ≤ dispatched := by
  have earlier := counted.earlier
  have sum := counted.sum
  rw [largest, Int32.toInt_maxValue] at sum
  omega

end Counted

theorem inboundPower : kInboundQueueSize = 2 ^ 16 := rfl

theorem outboundPower : kOutboundQueueSize = 2 ^ 16 := rfl

namespace Inv

theorem init (clock : Nat → Nanos) : (Machine.init clock).Inv where
  inbound := @Threads.Inv.init OrderMessage kInboundQueueSize (Nat.two_pow_pos 16) {}
  outbound := @Threads.Inv.init TradeReport kOutboundQueueSize (Nat.two_pow_pos 16) {}
  gatewayOwns := rfl
  engineOwns := rfl
  acceptedFrames := rfl
  droppedFrames := rfl
  msgsProcessed := rfl
  tradesEmitted := rfl
  counted := fun _ => ⟨le_refl 0, le_refl 0, rfl⟩
  overflow := Bool.false_ne_true.elim

end Inv

theorem init_exchange (clock : Nat → Nanos) : (Machine.init clock).exchange = Exchange.init clock := by
  have inbound : (Threads.init {} : Threads OrderMessage kInboundQueueSize).queue.contents = [] :=
    SPSCQueue.init_contents _
  have outbound : (Threads.init {} : Threads TradeReport kOutboundQueueSize).queue.contents = [] :=
    SPSCQueue.init_contents _
  unfold exchange init Exchange.init
  rw [inbound, outbound]
  rfl

/-- A step keeps the invariant and does what explains it. -/
def Explained (machine : Machine) (deeds : List Deed) (after : Machine) : Prop :=
  after.Inv ∧ after.exchange = deeds.foldl Exchange.step machine.exchange

variable {machine : Machine} (inv : machine.Inv)

include inv

section Gateway

theorem submit_explained (call : Submission) (idle : machine.gatewayAt = .idle) :
    machine.Explained (machine.explain (.gateway call)) (machine.submit call) := by
  have owns := inv.gatewayOwns
  rw [idle] at owns
  have waiting (msg : OrderMessage) : machine.Explained [] { machine with gatewayAt := .pushing msg } := by
    constructor
    · exact { inv with
        gatewayOwns := by
          show machine.inbound.producer.Holds msg
          rw [owns]
          trivial }
    · simp [exchange, idle, GatewayAt.decided]
  have refused : machine.Explained [.refuse] { machine with gatewayAt := .counting false } := by
    constructor
    · exact { inv with gatewayOwns := owns }
    · simp [exchange, idle, GatewayAt.decided, Exchange.step]
  unfold explain
  rw [idle]
  cases call with
  | frame buf arrival =>
      simp only [submit]
      cases Proto.decode buf {} with
      | mk readable msg =>
          cases readable with
          | false => exact refused
          | true => exact waiting _
  | inject msg arrival => exact waiting _

theorem pushing_explained (call : Submission) {msg : OrderMessage} (place : machine.gatewayAt = .pushing msg) :
    machine.Explained (machine.explain (.gateway call)) (machine.gatewayStep call) := by
  have owns := inv.gatewayOwns
  rw [place] at owns
  have kept := inv.inbound.producerStep inboundPower msg
  unfold explain gatewayStep
  rw [place]
  rcases inv.inbound.push_cases inboundPower owns with ⟨silent, pushing⟩ | ⟨answer, ends, ended⟩
  · simp only [silent]
    constructor
    · exact { inv with
        inbound := kept
        gatewayOwns := pushing.producer }
    · simp [exchange, place, GatewayAt.decided, pushing.contents, pushing.stored]
  · simp only [ends]
    constructor
    · exact { inv with
        inbound := kept
        gatewayOwns := ended.producer }
    · have room := ended.room
      by_cases free : machine.inbound.queue.contents.length + 1 < kInboundQueueSize
      · obtain rfl : answer = true := room.trans (decide_eq_true free)
        simp [exchange, place, GatewayAt.decided, ended.contents, ended.stored, Exchange.step, Exchange.offer, free]
      · obtain rfl : answer = false := room.trans (decide_eq_false free)
        simp [exchange, place, GatewayAt.decided, ended.contents, ended.stored, Exchange.step, Exchange.offer, free]

theorem counting_explained (answer : Bool) (place : machine.gatewayAt = .counting answer) :
    machine.Explained [] (machine.count answer) := by
  have owns := inv.gatewayOwns
  have acceptedFrames := inv.acceptedFrames
  have droppedFrames := inv.droppedFrames
  rw [place] at owns
  constructor
  · exact { inv with
      gatewayOwns := owns
      acceptedFrames := by
        show (if answer then machine.gateway.accept else machine.gateway.drop).acceptedFrames =
          UInt64.ofNat ((machine.answers ++ [answer]).count true)
        rw [List.count_append]
        cases answer with
        | true => exact (congrArg (· + 1) acceptedFrames).trans (UInt64.ofNat_add _ 1).symm
        | false => exact acceptedFrames
      droppedFrames := by
        show (if answer then machine.gateway.accept else machine.gateway.drop).droppedFrames =
          UInt64.ofNat ((machine.answers ++ [answer]).count false)
        rw [List.count_append]
        cases answer with
        | true => exact droppedFrames
        | false => exact (congrArg (· + 1) droppedFrames).trans (UInt64.ofNat_add _ 1).symm }
  · simp [exchange, count, place, GatewayAt.decided]

theorem gateway_explained (call : Submission) :
    machine.Explained (machine.explain (.gateway call)) (machine.gatewayStep call) := by
  cases place : machine.gatewayAt with
  | idle =>
      have started := submit_explained inv call place
      rw [gatewayStep, place]
      exact started
  | pushing msg => exact pushing_explained inv call place
  | counting answer =>
      have counted := counting_explained inv answer place
      rw [gatewayStep, explain, place]
      exact counted

end Gateway

section Engine

/-- A message that is popped leaves the queue, and a pop that finds nothing ends the call. -/
theorem popping_explained (place : machine.engineAt = .popping) :
    machine.Explained (machine.explain .engine) machine.popStep := by
  have owns := inv.engineOwns
  have counted := inv.counted
  rw [place] at owns counted
  have kept := inv.inbound.consumerStep inboundPower
  have held : machine.gatewayAt.Owns machine.inbound.consumerStep.producer := by
    rw [Threads.consumerStep_producer]
    exact inv.gatewayOwns
  have deeds : machine.explain .engine = match machine.inbound.popResult with
      | some (some _) => [.take]
      | _ => [] := by
    rw [explain, place]
  rw [deeds]
  unfold popStep
  rcases inv.inbound.pop_cases inboundPower with ⟨silent | ⟨ends, -⟩, contents, -⟩ | ⟨msg, ends, contents, -⟩
  · simp only [silent]
    constructor
    · exact { inv with
        inbound := kept
        gatewayOwns := held }
    · simp [exchange, contents]
  · simp only [ends]
    constructor
    · exact { inv with
        inbound := kept
        gatewayOwns := held
        counted := fun exact => (inv.counted exact).returned }
    · simp [exchange, contents]
  · simp only [ends]
    constructor
    · exact { inv with
        inbound := kept
        gatewayOwns := held
        engineOwns := owns
        counted := counted }
    · simp [exchange, place, EngineAt.current, EngineAt.unsent, Exchange.step, Exchange.take, contents]

/-- The book's call adds the reports that the callback is about to push. -/
theorem dispatching_explained {msg : OrderMessage} (place : machine.engineAt = .dispatching msg) :
    machine.Explained [.perform] (machine.dispatch msg) := by
  have owns := inv.engineOwns
  have processed := inv.msgsProcessed
  have rounds := inv.counted
  rw [place] at owns rounds
  have longer : (machine.dispatched ++ [msg]).length = machine.dispatched.length + 1 := List.length_append
  have seen (exact : machine.overflowed = false) :
      Counted machine.rounds machine.processed 1 (machine.dispatched ++ [msg]).length := by
    rw [longer]
    exact (rounds exact).seen
  have overflow (passed : machine.overflowed = true) : 2 ^ 31 ≤ (machine.dispatched ++ [msg]).length := by
    rw [longer]
    exact (inv.overflow passed).trans (Nat.le_succ _)
  have counted : machine.msgsProcessed + 1 = UInt64.ofNat (machine.dispatched ++ [msg]).length := by
    rw [List.length_append, processed]
    exact (UInt64.ofNat_add _ 1).symm
  have quiet (reports : List TradeReport) : (EngineAt.emitting reports).Owns machine.outbound.producer := by
    have idle : machine.outbound.producer = .idle := owns
    rw [idle]
    cases reports <;> trivial
  unfold dispatch
  cases route : msg.route with
  | none =>
      constructor
      · exact { inv with
          engineOwns := quiet []
          msgsProcessed := counted
          counted := seen
          overflow := overflow }
      · simp [exchange, place, route, EngineAt.current, EngineAt.unsent, Exchange.step, Exchange.perform,
          OrderBook.run]
  | some call =>
      constructor
      · exact { inv with
          engineOwns := quiet _
          msgsProcessed := counted
          counted := seen
          overflow := overflow }
      · simp [exchange, place, route, EngineAt.current, EngineAt.unsent, Exchange.step, Exchange.perform,
          OrderBook.run]

/-- The callback goes on to the next report whether or not this one found room. -/
theorem emitting_explained {report : TradeReport} {rest : List TradeReport}
    (place : machine.engineAt = .emitting (report :: rest)) :
    machine.Explained (machine.explain .engine) (machine.emitStep report rest) := by
  have owns := inv.engineOwns
  have emitted := inv.tradesEmitted
  have counted := inv.counted
  rw [place] at owns counted
  have kept := inv.outbound.producerStep outboundPower report
  have deeds : machine.explain .engine = if machine.outbound.pushResult.isSome then [.emit] else [] := by
    rw [explain, place]
  rw [deeds]
  unfold emitStep
  rcases inv.outbound.push_cases outboundPower owns with ⟨silent, pushing⟩ | ⟨answer, ends, ended⟩
  · simp only [silent]
    constructor
    · exact { inv with
        outbound := kept
        engineOwns := by
          show machine.engineAt.Owns _
          rw [place]
          exact pushing.producer
        tradesEmitted := by
          rw [pushing.pushed]
          exact emitted }
    · simp [exchange, pushing.contents, pushing.pushed]
  · simp only [ends]
    constructor
    · exact { inv with
        outbound := kept
        engineOwns := by
          have idle := ended.producer
          show (EngineAt.emitting rest).Owns _
          rw [idle]
          cases rest <;> trivial
        tradesEmitted := by
          show machine.tradesEmitted + 1 = _
          rw [ended.pushed, List.length_append, emitted]
          exact (UInt64.ofNat_add _ 1).symm
        counted := counted }
    · have room := ended.room
      simp only [exchange, place, EngineAt.current, EngineAt.unsent, ended.contents, ended.pushed,
        Threads.producerStep_poppedItems, Option.isSome_some, if_true, List.foldl_cons, List.foldl_nil,
        Exchange.step, Exchange.emit, room]

theorem engine_explained : machine.Explained (machine.explain .engine) machine.engineStep := by
  cases place : machine.engineAt with
  | popping =>
      have popped := popping_explained inv place
      rw [engineStep, place]
      exact popped
  | dispatching msg =>
      have dispatched := dispatching_explained inv place
      rw [engineStep, explain, place]
      exact dispatched
  | emitting reports =>
      cases reports with
      | nil =>
          have owns := inv.engineOwns
          have counted := inv.counted
          rw [place] at owns counted
          rw [engineStep, explain, place]
          constructor
          · exact { inv with
              engineOwns := owns
              counted := by
                intro exact
                obtain ⟨earlier, below⟩ : machine.overflowed = false ∧ machine.processed ≠ Int32.maxValue := by
                  simpa [countMessage] using exact
                exact (counted earlier).next below rfl
              overflow := by
                intro passed
                cases earlier : machine.overflowed with
                | true => exact inv.overflow earlier
                | false =>
                    have largest : machine.processed = Int32.maxValue := by simpa [countMessage, earlier] using passed
                    exact (counted earlier).overflow largest rfl }
          · simp [exchange, countMessage, place, EngineAt.current, EngineAt.unsent]
      | cons report rest =>
          have emitted := emitting_explained inv place
          rw [engineStep, place]
          exact emitted

end Engine

theorem consumer_explained : machine.Explained (machine.explain .consumer) machine.consumerStep := by
  have kept := inv.outbound.consumerStep outboundPower
  have held : machine.engineAt.Owns machine.outbound.consumerStep.producer := by
    rw [Threads.consumerStep_producer]
    exact inv.engineOwns
  constructor
  · exact { inv with
      outbound := kept
      engineOwns := held
      tradesEmitted := by
        show _ = UInt64.ofNat machine.outbound.consumerStep.pushed.length
        rw [Threads.consumerStep_pushed]
        exact inv.tradesEmitted }
  · unfold explain
    rcases inv.outbound.pop_cases outboundPower with
      ⟨silent | ⟨ends, -⟩, contents, items⟩ | ⟨report, ends, contents, items⟩
    · simp [exchange, consumerStep, silent, contents, items]
    · simp [exchange, consumerStep, ends, contents, items]
    · simp [exchange, consumerStep, ends, contents, items, Exchange.step, Exchange.receive]

end Machine

/-- The machine simulates the exchange. -/
def Machine.simulation : Simulation Machine Move Exchange Deed where
  step := Machine.step
  perform := Exchange.step
  explain := Machine.explain
  Related := fun machine exchange => machine.Inv ∧ machine.exchange = exchange
  sound := by
    rintro machine exchange move ⟨inv, rfl⟩
    cases move with
    | gateway call => exact Machine.gateway_explained inv call
    | engine => exact Machine.engine_explained inv
    | consumer => exact Machine.consumer_explained inv

end OrderEngine
