import OrderEngine.Construction.MatchingEngine

namespace OrderEngine

/-- The gateway and the engine share the inbound queue, and a consumer drains the outbound queue. -/
structure Pipeline where
  gateway : MarketDataGateway
  engine : MatchingEngine

/-- The threads of the pipeline take these steps in any order. -/
inductive Event where
  | frame (buf : List UInt8) (arrival : Nanos)
  | inject (msg : OrderMessage) (arrival : Nanos)
  | poll
  | consume

namespace Pipeline

def init (clock : Nat → Nanos) : Pipeline where
  gateway := {}
  engine := .init clock

/-- A gateway call changes the counters and the inbound queue. -/
def receive (pipeline : Pipeline) (result : Bool × MarketDataGateway × InboundQueue) : Pipeline where
  gateway := result.2.1
  engine := { pipeline.engine with inbound := result.2.2 }

def step (pipeline : Pipeline) : Event → Pipeline
  | .frame buf arrival =>
    pipeline.receive (pipeline.gateway.processFrame pipeline.engine.inbound buf arrival)
  | .inject msg arrival =>
    pipeline.receive (pipeline.gateway.injectOrder pipeline.engine.inbound msg arrival)
  | .poll => { pipeline with engine := pipeline.engine.poll.2 }
  | .consume =>
    { pipeline with
      engine := { pipeline.engine with outbound := pipeline.engine.outbound.tryPop.2 } }

def run (pipeline : Pipeline) (events : List Event) : Pipeline := events.foldl step pipeline

theorem run_append (pipeline : Pipeline) (past : List Event) (event : Event) :
    pipeline.run (past ++ [event]) = (pipeline.run past).step event := by
  simp [run]

end Pipeline

end OrderEngine
