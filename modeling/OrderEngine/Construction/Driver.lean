import OrderEngine.Construction.Machine
import OrderEngine.Construction.Pipeline
import OrderEngine.Library.PopLoop

namespace OrderEngine

open Library

namespace MatchingEngine

def popInbound (engine : MatchingEngine) : Option OrderMessage × MatchingEngine :=
  (engine.inbound.tryPop.1, { engine with inbound := engine.inbound.tryPop.2 })

def popOutbound (engine : MatchingEngine) : Option TradeReport × MatchingEngine :=
  (engine.outbound.tryPop.1, { engine with outbound := engine.outbound.tryPop.2 })

/-- No producer pushes meanwhile, so the queue holds all the messages of the call from the start, and their number
stays below the largest `int`. -/
def runOnce (engine : MatchingEngine) : Nat × MatchingEngine :=
  popLoop (fun round => (round.2.popInbound.1, (round.1, round.2.popInbound.2)))
    (fun round msg => (round.1 + 1, round.2.dispatch msg)) kInboundQueueSize (0, engine)

/-- The benchmark pops the reports until none is left. -/
def drain (engine : MatchingEngine) : List TradeReport × MatchingEngine :=
  popLoop (fun round => (round.2.popOutbound.1, (round.1, round.2.popOutbound.2)))
    (fun round report => (round.1 ++ [report], round.2)) kOutboundQueueSize ([], engine)

end MatchingEngine

/-- One thread drives the pipeline. It keeps the results of `run_once` and the drained reports. -/
structure Driver where
  pipeline : Pipeline
  rounds : List Nat := []
  received : List TradeReport := []

namespace Driver

def init (clock : Nat → Nanos) : Driver where
  pipeline := .init clock

def submit (driver : Driver) : Submission → Driver
  | .frame buf arrival => { driver with pipeline := driver.pipeline.step (.frame buf arrival) }
  | .inject msg arrival => { driver with pipeline := driver.pipeline.step (.inject msg arrival) }

/-- A round of the benchmark's loop submits a batch, drives the engine and drains the trade reports. -/
def batch (driver : Driver) (calls : List Submission) : Driver :=
  let submitted := calls.foldl submit driver
  let (processed, engine) := submitted.pipeline.engine.runOnce
  let (reports, engine) := engine.drain
  { pipeline := { submitted.pipeline with engine := engine }
    rounds := submitted.rounds ++ [processed]
    received := submitted.received ++ reports }

def run (driver : Driver) (batches : List (List Submission)) : Driver := batches.foldl batch driver

end Driver

end OrderEngine
