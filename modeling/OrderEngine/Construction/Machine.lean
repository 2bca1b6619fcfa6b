import OrderEngine.Construction.Interleaving
import OrderEngine.Construction.MatchingEngine

namespace OrderEngine

namespace Threads

open SPSCQueue

variable {T : Type} {capacity : Nat}

/-- The producer's next step ends the push with this answer. -/
def pushResult (threads : Threads T capacity) : Option Bool :=
  match threads.producer with
  | .loadedTail _ tail => if (tail + 1) &&& kMask capacity = threads.queue.head then some false else none
  | .wroteItem _ _ => some true
  | _ => none

/-- The consumer's next step ends the pop with this answer. -/
def popResult (threads : Threads T capacity) : Option (Option T) :=
  match threads.consumer with
  | .loadedHead head => if head = threads.queue.tail then some none else none
  | .readItem _ item => some (some item)
  | _ => none

end Threads

/-- The gateway thread makes one of these calls at a time. -/
inductive Submission where
  | frame (buf : List UInt8) (arrival : Nanos)
  | inject (msg : OrderMessage) (arrival : Nanos)
  deriving DecidableEq, Repr

/-- The gateway thread stands between two calls, inside `try_push`, or before it counts the answer. -/
inductive GatewayAt where
  | idle
  | pushing (msg : OrderMessage)
  | counting (answer : Bool)
  deriving DecidableEq, Repr

/-- The matching thread stands inside `try_pop`, before the call that a message asks for, or inside the
callback with these reports to push. -/
inductive EngineAt where
  | popping
  | dispatching (msg : OrderMessage)
  | emitting (reports : List TradeReport)
  deriving DecidableEq, Repr

/-- One thread takes its next atomic step, and an idle gateway starts this call. -/
inductive Move where
  | gateway (call : Submission)
  | engine
  | consumer
  deriving DecidableEq, Repr

/-- The three threads share nothing but the two queues. The matching thread alone writes the book, so its
work between two accesses to a queue is one step. The answers are those of the gateway's calls, the rounds
are the results of `run_once`, and `processed` is the `int` in which the current call to it counts. The flag
records that some call has counted past the largest `int`. -/
structure Machine where
  gateway : MarketDataGateway := {}
  gatewayAt : GatewayAt := .idle
  inbound : Threads OrderMessage kInboundQueueSize
  engineAt : EngineAt := .popping
  book : OrderBook
  msgsProcessed : UInt64 := 0
  tradesEmitted : UInt64 := 0
  processed : Int32 := 0
  overflowed : Bool := false
  outbound : Threads TradeReport kOutboundQueueSize
  answers : List Bool := []
  dispatched : List OrderMessage := []
  rounds : List Int32 := []

namespace Machine

def init (clock : Nat → Nanos) : Machine where
  inbound := .init {}
  book := .empty true clock
  outbound := .init {}

/-- The decoder and the stamp touch no memory that another thread sees. -/
def submit (machine : Machine) : Submission → Machine
  | .frame buf arrival =>
      match Proto.decode buf {} with
      | (false, _) => { machine with gatewayAt := .counting false }
      | (true, msg) => { machine with gatewayAt := .pushing { msg with arrivalCycles := arrival } }
  | .inject msg arrival =>
      { machine with
        gatewayAt := .pushing (if msg.arrivalCycles = 0 then { msg with arrivalCycles := arrival } else msg) }

def count (machine : Machine) (answer : Bool) : Machine :=
  { machine with
    gateway := if answer then machine.gateway.accept else machine.gateway.drop
    gatewayAt := .idle
    answers := machine.answers ++ [answer] }

def gatewayStep (machine : Machine) (call : Submission) : Machine :=
  match machine.gatewayAt with
  | .idle => machine.submit call
  | .pushing msg =>
      { machine with
        inbound := machine.inbound.producerStep msg
        gatewayAt := match machine.inbound.pushResult with
          | none => .pushing msg
          | some answer => .counting answer }
  | .counting answer => machine.count answer

/-- A call to `run_once` ends when a pop finds the queue empty. -/
def popStep (machine : Machine) : Machine :=
  let after := { machine with inbound := machine.inbound.consumerStep }
  match machine.inbound.popResult with
  | none => after
  | some none => { after with rounds := machine.rounds ++ [machine.processed], processed := 0 }
  | some (some msg) => { after with engineAt := .dispatching msg }

def dispatch (machine : Machine) (msg : OrderMessage) : Machine :=
  let machine := { machine with
    msgsProcessed := machine.msgsProcessed + 1
    dispatched := machine.dispatched ++ [msg] }
  match msg.route with
  | none => { machine with engineAt := .emitting [] }
  | some call =>
      let book := (machine.book.call call).2
      { machine with
        book := book
        engineAt := .emitting (book.reports.drop machine.book.reports.length) }

/-- The callback counts a report whether or not it finds room. -/
def emitStep (machine : Machine) (report : TradeReport) (rest : List TradeReport) : Machine :=
  let after := { machine with outbound := machine.outbound.producerStep report }
  match machine.outbound.pushResult with
  | none => after
  | some _ =>
      { after with
        engineAt := .emitting rest
        tradesEmitted := machine.tradesEmitted + 1 }

/-- The increment of the largest `int` is undefined in the source. -/
def countMessage (machine : Machine) : Machine :=
  { machine with
    engineAt := .popping
    processed := machine.processed + 1
    overflowed := machine.overflowed || machine.processed == Int32.maxValue }

def engineStep (machine : Machine) : Machine :=
  match machine.engineAt with
  | .popping => machine.popStep
  | .dispatching msg => machine.dispatch msg
  | .emitting [] => machine.countMessage
  | .emitting (report :: rest) => machine.emitStep report rest

def consumerStep (machine : Machine) : Machine := { machine with outbound := machine.outbound.consumerStep }

def step (machine : Machine) : Move → Machine
  | .gateway call => machine.gatewayStep call
  | .engine => machine.engineStep
  | .consumer => machine.consumerStep

def run (machine : Machine) (moves : List Move) : Machine := moves.foldl step machine

theorem run_append (machine : Machine) (past later : List Move) :
    machine.run (past ++ later) = (machine.run past).run later := List.foldl_append

end Machine

end OrderEngine
