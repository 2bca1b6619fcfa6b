import OrderEngine.Refinement.Machine

namespace OrderEngine

/-- A push has taken this number of steps. -/
def ProducerAt.progress {T : Type} : ProducerAt T → Nat
  | .idle => 0
  | .loadedTail _ _ => 1
  | .checkedHead _ _ => 2
  | .wroteItem _ _ => 3

/-- A pop has taken this number of steps. -/
def ConsumerAt.progress {T : Type} : ConsumerAt T → Nat
  | .idle => 0
  | .loadedHead _ => 1
  | .checkedTail _ => 2
  | .readItem _ _ => 3

namespace Threads

variable {T : Type} {capacity : Nat} (threads : Threads T capacity)

/-- A step of a push moves it on, and the last one is at most the fourth. -/
theorem push_progress (item : T) :
    (threads.pushResult = none ∧ (threads.producerStep item).pushed = threads.pushed ∧
        (threads.producerStep item).producer.progress = threads.producer.progress + 1) ∨
      ∃ answer, threads.pushResult = some answer ∧ threads.producer.progress ≤ 3 ∧
        (threads.producerStep item).producer.progress = 0 ∧
        (threads.producerStep item).pushed.length = threads.pushed.length + 1 := by
  unfold pushResult producerStep
  cases threads.producer with
  | idle => exact .inl ⟨rfl, rfl, rfl⟩
  | loadedTail own tail =>
      by_cases blocked : (tail + 1) &&& SPSCQueue.kMask capacity = threads.queue.head
      · simp [blocked, ProducerAt.progress]
      · simp [blocked, ProducerAt.progress]
  | checkedHead own tail => exact .inl ⟨rfl, rfl, rfl⟩
  | wroteItem own tail => simp [ProducerAt.progress]

/-- A step of a pop moves it on, and a pop that finds nothing ends with its second step. -/
theorem pop_progress :
    (threads.popResult = none ∧ threads.consumerStep.popped = threads.popped ∧
        threads.consumerStep.consumer.progress = threads.consumer.progress + 1) ∨
      ∃ answer, threads.popResult = some answer ∧
        threads.consumer.progress ≤ (if answer.isSome then 3 else 1) ∧
        threads.consumerStep.consumer.progress = 0 ∧
        threads.consumerStep.popped.length = threads.popped.length + 1 := by
  unfold popResult consumerStep
  cases threads.consumer with
  | idle => exact .inl ⟨rfl, rfl, rfl⟩
  | loadedHead head =>
      by_cases empty : head = threads.queue.tail
      · simp [empty, ConsumerAt.progress]
      · simp [empty, ConsumerAt.progress]
  | checkedTail head => exact .inl ⟨rfl, rfl, rfl⟩
  | readItem head item => simp [ConsumerAt.progress]

end Threads

/-- A gateway call has taken this number of steps, or at most this number. -/
def GatewayAt.spent : GatewayAt → ProducerAt OrderMessage → Nat
  | .idle, _ => 0
  | .pushing _, producer => 1 + producer.progress
  | .counting _, _ => 5

def EngineAt.spent : EngineAt → ConsumerAt OrderMessage → ProducerAt TradeReport → Nat
  | .popping, consumer, _ => consumer.progress
  | .dispatching _, _, _ => 4
  | .emitting _, _, producer => producer.progress

def Move.byGateway : Move → Bool
  | .gateway _ => true
  | _ => false

def Move.byEngine : Move → Bool
  | .engine => true
  | _ => false

def Move.byConsumer : Move → Bool
  | .consumer => true
  | _ => false

namespace Machine

/-- A gateway call is worth six steps. -/
def gatewayWork (machine : Machine) : Nat :=
  6 * machine.answers.length + machine.gatewayAt.spent machine.inbound.producer

/-- A dispatched message is worth six steps, an empty pop two, and a report four. -/
def engineWork (machine : Machine) : Nat :=
  6 * machine.dispatched.length + 2 * machine.rounds.length + 4 * machine.outbound.pushed.length +
    machine.engineAt.spent machine.inbound.consumer machine.outbound.producer

/-- A pop of the outbound queue is worth four steps. -/
def consumerWork (machine : Machine) : Nat :=
  4 * machine.outbound.popped.length + machine.outbound.consumer.progress

section Frames

variable (machine : Machine)

theorem gatewayStep_frame (call : Submission) : (machine.gatewayStep call).dispatched = machine.dispatched ∧
    (machine.gatewayStep call).rounds = machine.rounds ∧ (machine.gatewayStep call).engineAt = machine.engineAt ∧
    (machine.gatewayStep call).outbound = machine.outbound ∧
    (machine.gatewayStep call).inbound.consumer = machine.inbound.consumer := by
  unfold gatewayStep
  split
  · cases call with
    | frame buf arrival =>
        simp only [submit]
        split <;> exact ⟨rfl, rfl, rfl, rfl, rfl⟩
    | inject msg arrival => exact ⟨rfl, rfl, rfl, rfl, rfl⟩
  · exact ⟨rfl, rfl, rfl, rfl, Threads.producerStep_consumer ..⟩
  · exact ⟨rfl, rfl, rfl, rfl, rfl⟩

theorem engineStep_frame : machine.engineStep.answers = machine.answers ∧
    machine.engineStep.gatewayAt = machine.gatewayAt ∧
    machine.engineStep.inbound.producer = machine.inbound.producer ∧
    machine.engineStep.outbound.consumer = machine.outbound.consumer ∧
    machine.engineStep.outbound.popped = machine.outbound.popped := by
  unfold engineStep
  split
  · unfold popStep
    split <;> exact ⟨rfl, rfl, Threads.consumerStep_producer .., rfl, rfl⟩
  · unfold dispatch
    simp only
    split <;> exact ⟨rfl, rfl, rfl, rfl, rfl⟩
  · exact ⟨rfl, rfl, rfl, rfl, rfl⟩
  · unfold emitStep
    split <;> exact ⟨rfl, rfl, rfl, Threads.producerStep_consumer .., Threads.producerStep_popped ..⟩

end Frames

variable {machine : Machine} (inv : machine.Inv)

include inv

/-- Each step of the gateway is paid for, and no other thread's step costs the gateway any. -/
theorem gatewayWork_step (move : Move) :
    machine.gatewayWork + (if move.byGateway then 1 else 0) ≤ (machine.step move).gatewayWork := by
  cases move with
  | gateway call =>
      have owns := inv.gatewayOwns
      simp only [Move.byGateway, if_true, Machine.step, gatewayStep]
      cases place : machine.gatewayAt with
      | idle =>
          rw [place] at owns
          have idle : machine.inbound.producer.progress = 0 := congrArg ProducerAt.progress owns
          cases call with
          | frame buf arrival =>
              simp only [submit]
              split
              · simp [gatewayWork, place, GatewayAt.spent]
              · simp [gatewayWork, place, GatewayAt.spent]
          | inject msg arrival => simp [submit, gatewayWork, place, GatewayAt.spent]
      | pushing msg =>
          rcases machine.inbound.push_progress msg with ⟨silent, -, progress⟩ | ⟨answer, ends, late, -⟩
          · simp only [silent, gatewayWork, place, GatewayAt.spent, progress]
            omega
          · simp only [ends, gatewayWork, place, GatewayAt.spent]
            omega
      | counting answer =>
          simp only [gatewayWork, count, place, GatewayAt.spent, List.length_append, List.length_singleton]
          omega
  | engine =>
      obtain ⟨answers, gatewayAt, producer, -⟩ := machine.engineStep_frame
      simp only [Machine.step, gatewayWork, answers, gatewayAt, producer]
      exact Nat.le_refl _
  | consumer => exact Nat.le_refl _

/-- Each step of the matching thread is paid for by a message, an empty pop or a report. -/
theorem engineWork_step (move : Move) : machine.engineWork + (machine.step move).engineAt.uncounted +
      (if move.byEngine then 1 else 0) ≤ (machine.step move).engineWork + machine.engineAt.uncounted := by
  cases move with
  | gateway call =>
      obtain ⟨dispatched, rounds, engineAt, outbound, consumer⟩ := machine.gatewayStep_frame call
      simp only [Machine.step, engineWork, dispatched, rounds, engineAt, outbound, consumer]
      exact Nat.le_refl _
  | engine =>
      have owns := inv.engineOwns
      simp only [Move.byEngine, if_true, Machine.step, engineStep]
      cases place : machine.engineAt with
      | popping =>
          rw [place] at owns
          rcases machine.inbound.pop_progress with ⟨silent, -, progress⟩ | ⟨answer, ends, late, done, -⟩
          · simp only [popStep, silent, engineWork, place, EngineAt.spent, EngineAt.uncounted, progress]
            omega
          · cases answer with
            | none =>
                simp only [Option.isSome_none, Bool.false_eq_true, if_false] at late
                simp only [popStep, ends, engineWork, place, EngineAt.spent, EngineAt.uncounted, done,
                  List.length_append, List.length_singleton]
                omega
            | some msg =>
                simp only [Option.isSome_some, if_true] at late
                simp only [popStep, ends, engineWork, place, EngineAt.spent, EngineAt.uncounted]
                omega
      | dispatching msg =>
          rw [place] at owns
          have idle : machine.outbound.producer.progress = 0 := congrArg ProducerAt.progress owns
          simp only [Machine.dispatch]
          split
          · simp only [engineWork, place, EngineAt.spent, EngineAt.uncounted, List.length_append,
              List.length_singleton, idle]
            omega
          · simp only [engineWork, place, EngineAt.spent, EngineAt.uncounted, List.length_append,
              List.length_singleton, idle]
            omega
      | emitting reports =>
          cases reports with
          | nil =>
              rw [place] at owns
              have idle : machine.outbound.producer.progress = 0 := congrArg ProducerAt.progress owns
              simp only [countMessage, engineWork, place, EngineAt.spent, EngineAt.uncounted, idle]
              omega
          | cons report rest =>
              rcases machine.outbound.push_progress report with
                ⟨silent, pushed, progress⟩ | ⟨answer, ends, late, done, longer⟩
              · simp only [emitStep, silent, engineWork, place, EngineAt.spent, EngineAt.uncounted, pushed, progress]
                omega
              · simp only [emitStep, ends, engineWork, place, EngineAt.spent, EngineAt.uncounted, done, longer]
                omega
  | consumer =>
      simp only [Machine.step, Machine.consumerStep, engineWork, Threads.consumerStep_pushed,
        Threads.consumerStep_producer]
      exact Nat.le_refl _

omit inv in
theorem consumerWork_step (machine : Machine) (move : Move) :
    machine.consumerWork + (if move.byConsumer then 1 else 0) ≤ (machine.step move).consumerWork := by
  cases move with
  | gateway call =>
      obtain ⟨-, -, -, outbound, -⟩ := machine.gatewayStep_frame call
      simp only [Machine.step, consumerWork, outbound]
      exact Nat.le_refl _
  | engine =>
      obtain ⟨-, -, -, consumer, popped⟩ := machine.engineStep_frame
      simp only [Machine.step, consumerWork, consumer, popped]
      exact Nat.le_refl _
  | consumer =>
      simp only [Move.byConsumer, if_true, Machine.step, Machine.consumerStep, consumerWork]
      rcases machine.outbound.pop_progress with ⟨-, popped, progress⟩ | ⟨answer, -, late, done, longer⟩
      · rw [popped, progress]
        omega
      · rw [done, longer]
        split at late <;> omega

/-- A schedule is paid for step by step. -/
theorem work_run (moves : List Move) :
    machine.gatewayWork + moves.countP Move.byGateway ≤ (machine.run moves).gatewayWork ∧
      machine.engineWork + (machine.run moves).engineAt.uncounted + moves.countP Move.byEngine ≤
        (machine.run moves).engineWork + machine.engineAt.uncounted ∧
      machine.consumerWork + moves.countP Move.byConsumer ≤ (machine.run moves).consumerWork := by
  induction moves generalizing machine with
  | nil => exact ⟨Nat.le_refl _, Nat.le_refl _, Nat.le_refl _⟩
  | cons move moves ih =>
      have kept : (machine.step move).Inv :=
        (simulation.sound move (⟨inv, rfl⟩ : simulation.Related machine machine.exchange)).1
      obtain ⟨gateway, engine, consumer⟩ := ih kept
      have gatewayStep := gatewayWork_step inv move
      have engineStep := engineWork_step inv move
      have consumerStep := machine.consumerWork_step move
      rw [List.countP_cons, List.countP_cons, List.countP_cons]
      change _ ≤ (machine.run (move :: moves)).gatewayWork at gateway
      change _ ≤ (machine.run (move :: moves)).engineWork + _ at engine
      change _ ≤ (machine.run (move :: moves)).consumerWork at consumer
      have same : ((machine.step move).run moves).engineAt = (machine.run (move :: moves)).engineAt := rfl
      rw [same] at engine
      refine ⟨by omega, by omega, by omega⟩

omit inv in
/-- An operation that has not ended has taken only a few steps. -/
theorem spent_le (machine : Machine) : machine.gatewayAt.spent machine.inbound.producer ≤ 5 ∧
    machine.engineAt.spent machine.inbound.consumer machine.outbound.producer ≤ 4 ∧
    machine.outbound.consumer.progress ≤ 3 := by
  have producer {T : Type} (place : ProducerAt T) : place.progress ≤ 3 := by
    cases place <;> simp [ProducerAt.progress]
  have consumer {T : Type} (place : ConsumerAt T) : place.progress ≤ 3 := by
    cases place <;> simp [ConsumerAt.progress]
  refine ⟨?_, ?_, consumer machine.outbound.consumer⟩
  · have bound := producer machine.inbound.producer
    cases machine.gatewayAt with
    | idle => exact Nat.zero_le 5
    | pushing msg =>
        simp only [GatewayAt.spent]
        omega
    | counting answer => exact Nat.le_refl 5
  · have first := consumer machine.inbound.consumer
    have second := producer machine.outbound.producer
    cases machine.engineAt with
    | popping =>
        simp only [EngineAt.spent]
        omega
    | dispatching msg => exact Nat.le_refl 4
    | emitting reports =>
        simp only [EngineAt.spent]
        omega

/-- The steps of each thread are bounded by what it finishes. -/
theorem steps_le (later : List Move) :
    later.countP Move.byGateway + 6 * machine.answers.length ≤ 6 * (machine.run later).answers.length + 5 ∧
      later.countP Move.byEngine + 6 * machine.dispatched.length + 2 * machine.rounds.length +
          4 * machine.outbound.pushed.length ≤
        6 * (machine.run later).dispatched.length + 2 * (machine.run later).rounds.length +
          4 * (machine.run later).outbound.pushed.length + 5 ∧
      later.countP Move.byConsumer + 4 * machine.outbound.popped.length ≤
        4 * (machine.run later).outbound.popped.length + 3 := by
  obtain ⟨gateway, engine, consumer⟩ := work_run inv later
  obtain ⟨gatewayBound, engineBound, consumerBound⟩ := (machine.run later).spent_le
  have uncounted : machine.engineAt.uncounted ≤ 1 := by
    cases machine.engineAt <;> simp [EngineAt.uncounted]
  unfold gatewayWork at gateway
  unfold engineWork at engine
  unfold consumerWork at consumer
  refine ⟨by omega, by omega, by omega⟩

end Machine

/-- No thread waits for another one: from every reachable state and under every schedule, a gateway call returns
within six steps of its thread, the matching thread spends at most six steps on a message, two on an empty pop and
four on a report, and a pop of the consumer returns within four steps. -/
theorem wait_free (clock : Nat → Nanos) (past later : List Move) :
    let before := (Machine.init clock).run past
    let after := before.run later
    later.countP Move.byGateway + 6 * before.answers.length ≤ 6 * after.answers.length + 5 ∧
      later.countP Move.byEngine + 6 * before.dispatched.length + 2 * before.rounds.length +
          4 * before.outbound.pushed.length ≤
        6 * after.dispatched.length + 2 * after.rounds.length + 4 * after.outbound.pushed.length + 5 ∧
      later.countP Move.byConsumer + 4 * before.outbound.popped.length ≤ 4 * after.outbound.popped.length + 3 := by
  intro before after
  have start : Machine.simulation.Related (Machine.init clock) (Exchange.init clock) :=
    ⟨.init clock, Machine.init_exchange clock⟩
  have inv : before.Inv := (Machine.simulation.run start past).1
  exact Machine.steps_le inv later

end OrderEngine
