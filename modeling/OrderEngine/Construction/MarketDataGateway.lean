import OrderEngine.Construction.Protocol
import OrderEngine.Construction.SpscQueue

namespace OrderEngine

def kInboundQueueSize : Nat := 1 <<< 16

abbrev InboundQueue := SPSCQueue OrderMessage kInboundQueueSize

/-- The queue that the gateway pushes to belongs to the engine. -/
structure MarketDataGateway where
  acceptedFrames : UInt64 := 0
  droppedFrames : UInt64 := 0

namespace MarketDataGateway

def accept (gateway : MarketDataGateway) : MarketDataGateway :=
  { gateway with acceptedFrames := gateway.acceptedFrames + 1 }

def drop (gateway : MarketDataGateway) : MarketDataGateway :=
  { gateway with droppedFrames := gateway.droppedFrames + 1 }

/-- A message that finds the queue full is dropped. -/
def enqueue (gateway : MarketDataGateway) (queue : InboundQueue) (msg : OrderMessage) :
    Bool × MarketDataGateway × InboundQueue :=
  match queue.tryPush msg with
  | (false, queue) => (false, gateway.drop, queue)
  | (true, queue) => (true, gateway.accept, queue)

/-- The arrival is the reading of the time stamp counter at the start of the call. -/
def processFrame (gateway : MarketDataGateway) (queue : InboundQueue) (buf : List UInt8)
    (arrival : Nanos) : Bool × MarketDataGateway × InboundQueue :=
  match Proto.decode buf {} with
  | (false, _) => (false, gateway.drop, queue)
  | (true, msg) => gateway.enqueue queue { msg with arrivalCycles := arrival }

/-- A message that has no arrival yet is stamped. -/
def injectOrder (gateway : MarketDataGateway) (queue : InboundQueue) (msg : OrderMessage)
    (arrival : Nanos) : Bool × MarketDataGateway × InboundQueue :=
  gateway.enqueue queue
    (if msg.arrivalCycles = 0 then { msg with arrivalCycles := arrival } else msg)

def resetCounters (gateway : MarketDataGateway) : MarketDataGateway :=
  { gateway with acceptedFrames := 0, droppedFrames := 0 }

end MarketDataGateway

end OrderEngine
