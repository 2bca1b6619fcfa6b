import OrderEngine.Construction.Calls
import OrderEngine.Construction.MarketDataGateway

namespace OrderEngine

def kOutboundQueueSize : Nat := 1 <<< 16

abbrev OutboundQueue := SPSCQueue TradeReport kOutboundQueueSize

structure MatchingEngine where
  inbound : InboundQueue
  outbound : OutboundQueue
  book : OrderBook
  msgsProcessed : UInt64 := 0
  tradesEmitted : UInt64 := 0

/-- The constructor installs the engine's own callback in the book. -/
def MatchingEngine.init (clock : Nat → Nanos) : MatchingEngine where
  inbound := .init {}
  outbound := .init {}
  book := .empty true clock

/-- The switch of `dispatch` sends an execution to `add_order` and ignores an unknown action. -/
def OrderMessage.route (msg : OrderMessage) : Option Call :=
  if msg.action = OrderAction.add then some (.add msg)
  else if msg.action = OrderAction.cancel then some (.cancel msg.originalOrderId)
  else if msg.action = OrderAction.modify then some (.modify msg.originalOrderId msg.quantity)
  else if msg.action = OrderAction.execute then some (.add msg)
  else none

namespace MatchingEngine

/-- A report that finds the outbound queue full is lost. -/
def onTrade (engine : MatchingEngine) (report : TradeReport) : MatchingEngine :=
  { engine with
    outbound := (engine.outbound.tryPush report).2
    tradesEmitted := engine.tradesEmitted + 1 }

/-- The book calls back once for each report, and it reads nothing that the callback writes. -/
def perform (engine : MatchingEngine) (call : Call) : MatchingEngine :=
  let book := (engine.book.call call).2
  (book.reports.drop engine.book.reports.length).foldl onTrade { engine with book := book }

def dispatch (engine : MatchingEngine) (msg : OrderMessage) : MatchingEngine :=
  let engine := { engine with msgsProcessed := engine.msgsProcessed + 1 }
  match msg.route with
  | none => engine
  | some call => engine.perform call

/-- One round of `run_once` pops a message and dispatches it. -/
def poll (engine : MatchingEngine) : Bool × MatchingEngine :=
  match engine.inbound.tryPop with
  | (none, _) => (false, engine)
  | (some msg, inbound) => (true, { engine with inbound := inbound }.dispatch msg)

end MatchingEngine

end OrderEngine
