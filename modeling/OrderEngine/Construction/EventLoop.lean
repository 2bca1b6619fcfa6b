import OrderEngine.Construction.MatchingEngine

namespace OrderEngine

/-- The thread of `run` stands before its opening store, before a load of the flag, inside a call to
`run_once` or behind the loop. -/
inductive RunAt where
  | start
  | check
  | inside
  | done
  deriving DecidableEq, Repr

/-- The two threads and the producer take these steps in any order. -/
inductive LoopStep where
  | run
  | stop
  | push (msg : OrderMessage)
  deriving DecidableEq, Repr

/-- The other thread calls `stop` once, and `stopped` remembers that its store is done. -/
structure EventLoop where
  engine : MatchingEngine
  running : Bool
  place : RunAt
  stopped : Bool

namespace EventLoop

def init (engine : MatchingEngine) : EventLoop where
  engine := engine
  running := false
  place := .start
  stopped := false

/-- A round of `run_once` that finds the inbound queue empty ends the call. -/
def runStep (loop : EventLoop) : EventLoop :=
  match loop.place with
  | .start => { loop with running := true, place := .check }
  | .check => { loop with place := if loop.running then .inside else .done }
  | .inside =>
      { loop with
        engine := loop.engine.poll.2
        place := if loop.engine.poll.1 then .inside else .check }
  | .done => loop

def stopStep (loop : EventLoop) : EventLoop :=
  if loop.stopped then loop else { loop with running := false, stopped := true }

def push (loop : EventLoop) (msg : OrderMessage) : EventLoop :=
  { loop with engine := { loop.engine with inbound := (loop.engine.inbound.tryPush msg).2 } }

def step (loop : EventLoop) : LoopStep → EventLoop
  | .run => loop.runStep
  | .stop => loop.stopStep
  | .push msg => loop.push msg

def after (loop : EventLoop) (schedule : List LoopStep) : EventLoop := schedule.foldl step loop

theorem after_append (loop : EventLoop) (past : List LoopStep) (step : LoopStep) :
    loop.after (past ++ [step]) = (loop.after past).step step := by
  simp [after]

/-- Every load of the flag after the store of `stop` reads false, and no call to `run_once` begins
after that store. -/
def StopHonoured (engine : MatchingEngine) (schedule : List LoopStep) : Prop :=
  ∀ past, past ++ [.run] <+: schedule → ((init engine).after past).stopped = true →
    (((init engine).after past).place = .check → ((init engine).after past).running = false) ∧
      (((init engine).after (past ++ [.run])).place = .inside → ((init engine).after past).place = .inside)

end EventLoop

end OrderEngine
