import OrderEngine.Guarantee.Load

namespace OrderEngine

open SPSCQueue

namespace Threads.Inv

variable {T : Type} {capacity : Nat} {threads : Threads T capacity}

/-- A pop returns an item, or nothing after it found the queue empty, and an empty queue stays so. -/
theorem consumer_counts (inv : threads.Inv) :
    (threads.queue.contents = [] → threads.consumerStep.queue.contents = []) ∧
      (threads.consumerStep.queue.contents = [] ∨
        threads.consumerStep.popped.length + threads.poppedItems.length =
          threads.popped.length + threads.consumerStep.poppedItems.length) := by
  have fits := inv.consumer
  have meets := contents_eq_nil inv.valid
  unfold Threads.consumerStep
  cases place : threads.consumer with
  | idle => exact ⟨id, .inr rfl⟩
  | loadedHead head =>
      rw [place] at fits
      obtain rfl := fits
      by_cases empty : threads.queue.head = threads.queue.tail
      · simp only [empty, if_true]
        exact ⟨fun _ => meets.mpr empty, .inl (meets.mpr empty)⟩
      · simp only [empty, if_false]
        exact ⟨id, .inr rfl⟩
  | checkedTail head => exact ⟨id, .inr rfl⟩
  | readItem head item =>
      rw [place] at fits
      refine ⟨fun none => absurd (meets.mp none) fits.2.1, .inr ?_⟩
      simp only [poppedItems, List.length_append, List.length_singleton, List.filterMap_append]
      simp only [List.filterMap_cons, id, List.filterMap_nil, List.length_singleton]
      omega

end Threads.Inv

namespace Machine

variable {machine : Machine} {clock : Nat → Nanos} {move : Move}

/-- The matching thread has caught up: it waits for a message, and none is queued. -/
structure Resting (machine : Machine) : Prop where
  popping : machine.engineAt = .popping
  empty : machine.inbound.queue.contents = []

/-- A pop of an empty queue stays at its first two steps. -/
theorem Resting.step (resting : machine.Resting) (inv : machine.Inv) (quiet : move.byGateway = false) :
    (machine.step move).Resting ∧ (machine.step move).outbound =
      if move.byConsumer then machine.outbound.consumerStep else machine.outbound := by
  obtain ⟨popping, empty⟩ := resting
  cases move with
  | gateway call => exact absurd quiet (by simp [Move.byGateway])
  | engine =>
      have fits := inv.inbound.consumer
      have meets := (contents_eq_nil inv.inbound.valid).mp empty
      have popStep : machine.step .engine = machine.popStep := by
        simp only [Machine.step, engineStep, popping]
      rw [popStep]
      unfold Machine.popStep Threads.popResult Threads.consumerStep
      cases place : machine.inbound.consumer with
      | idle => exact ⟨⟨popping, empty⟩, rfl⟩
      | loadedHead head =>
          rw [place] at fits
          obtain rfl := fits
          simp only [meets, if_true]
          exact ⟨⟨popping, empty⟩, rfl⟩
      | checkedTail head =>
          rw [place] at fits
          exact absurd meets fits.2
      | readItem head item =>
          rw [place] at fits
          exact absurd meets fits.2.1
  | consumer => exact ⟨⟨popping, empty⟩, rfl⟩

/-- A call to `run_once` returns only when the matching thread has caught up. -/
theorem rounds_step (inv : machine.Inv) (quiet : move.byGateway = false) :
    (machine.step move).rounds = machine.rounds ∨ (machine.step move).Resting := by
  cases move with
  | gateway call => exact absurd quiet (by simp [Move.byGateway])
  | consumer => exact .inl rfl
  | engine =>
      simp only [Machine.step, engineStep]
      split
      · next popping =>
          have fits := inv.inbound.consumer
          unfold popStep Threads.popResult Threads.consumerStep
          cases place : machine.inbound.consumer with
          | idle => exact .inl rfl
          | loadedHead head =>
              rw [place] at fits
              obtain rfl := fits
              by_cases meets : machine.inbound.queue.head = machine.inbound.queue.tail
              · simp only [meets, if_true]
                exact .inr ⟨popping, (contents_eq_nil inv.inbound.valid).mpr meets⟩
              · simp only [meets, if_false]
                exact .inl trivial
          | checkedTail head => exact .inl rfl
          | readItem head item => exact .inl rfl
      · unfold dispatch
        simp only
        split <;> exact .inl rfl
      · exact .inl rfl
      · unfold emitStep
        split <;> exact .inl rfl

/-- Nothing enters the inbound queue while the gateway stands still. -/
theorem stored_step (quiet : move.byGateway = false) : (machine.step move).inbound.stored = machine.inbound.stored := by
  cases move with
  | gateway call => exact absurd quiet (by simp [Move.byGateway])
  | consumer => rfl
  | engine =>
      simp only [Machine.step, engineStep]
      split
      · unfold popStep
        split <;> exact Threads.consumerStep_stored ..
      · unfold dispatch
        simp only
        split <;> rfl
      · rfl
      · unfold emitStep
        split <;> rfl

theorem inv_step (inv : machine.Inv) (move : Move) : (machine.step move).Inv :=
  (simulation.sound move (⟨inv, rfl⟩ : simulation.Related machine machine.exchange)).1

/-- While the gateway stands still, a call to `run_once` returns only when everything is dispatched, and then
everything stays so. -/
theorem quiet_run (inv : machine.Inv) (later : List Move) (quiet : ∀ move ∈ later, move.byGateway = false) :
    (machine.run later).Inv ∧ (machine.run later).inbound.stored = machine.inbound.stored ∧
      ((machine.run later).rounds = machine.rounds ∨ (machine.run later).Resting) := by
  induction later using List.reverseRecOn with
  | nil => exact ⟨inv, rfl, .inl rfl⟩
  | append_singleton past move ih =>
      obtain ⟨reached, stored, rounds⟩ := ih fun other member => quiet other (by simp [member])
      have still := quiet move (by simp)
      have last : machine.run (past ++ [move]) = (machine.run past).step move := run_append machine past [move]
      rw [last]
      refine ⟨inv_step reached move, (stored_step still).trans stored, ?_⟩
      rcases rounds with same | resting
      · rcases rounds_step reached still with kept | resting
        · exact .inl (kept.trans same)
        · exact .inr resting
      · exact .inr (resting.step reached still).1

/-- Behind the matching thread the consumer empties the outbound queue. -/
theorem Resting.run (resting : machine.Resting) (inv : machine.Inv) (later : List Move)
    (quiet : ∀ move ∈ later, move.byGateway = false) : (machine.run later).Resting ∧
      (machine.run later).outbound.pushed = machine.outbound.pushed ∧
      ((machine.run later).outbound.queue.contents = [] ∨
        (machine.run later).outbound.popped.length + machine.outbound.poppedItems.length =
          machine.outbound.popped.length + (machine.run later).outbound.poppedItems.length) := by
  induction later using List.reverseRecOn with
  | nil => exact ⟨resting, rfl, .inr rfl⟩
  | append_singleton past move ih =>
      have before (other : Move) (member : other ∈ past) := quiet other (List.mem_append_left _ member)
      obtain ⟨waiting, pushed, counts⟩ := ih before
      have reached := (quiet_run inv past before).1
      have last : machine.run (past ++ [move]) = (machine.run past).step move := run_append machine past [move]
      obtain ⟨kept, outbound⟩ := waiting.step reached (quiet move (by simp))
      obtain ⟨stays, popped⟩ := reached.outbound.consumer_counts
      rw [last, outbound]
      refine ⟨kept, ?_, ?_⟩
      · split
        · exact (Threads.consumerStep_pushed ..).trans pushed
        · exact pushed
      · split
        · rcases counts with empty | same
          · exact .inl (stays empty)
          · rcases popped with empty | next
            · exact .inl empty
            · exact .inr (by omega)
        · exact counts

/-- Every report comes from one of the messages that the gateway accepted. -/
theorem reports_le_stored {clock : Nat → Nanos} (holds : machine.exchange.Inv clock)
    (admissible : ∀ msg ∈ machine.inbound.stored, ∀ call, msg.route = some call → call.Admissible) :
    machine.book.reports.length ≤ machine.inbound.stored.length := by
  have messages : machine.dispatched ++ machine.engineAt.current.toList ++ machine.inbound.queue.contents =
      machine.inbound.stored := holds.messages
  have sound (call : Call) (member : call ∈ machine.dispatched.filterMap OrderMessage.route) : call.Admissible := by
    obtain ⟨msg, dispatched, routed⟩ := List.mem_filterMap.mp member
    refine admissible msg ?_ call routed
    rw [← messages]
    simp [dispatched]
  have adds := reports_le_adds clock sound
  have calls : (machine.dispatched.filterMap OrderMessage.route).countP Call.isAdd ≤ _ := List.countP_le_length
  have routed := List.length_filterMap_le OrderMessage.route machine.dispatched
  have all := congrArg List.length messages
  rw [List.length_append, List.length_append] at all
  rw [show machine.book = _ from holds.book]
  change ((OrderBook.empty true clock).run (machine.dispatched.filterMap OrderMessage.route)).reports.length ≤ _
  omega

/-- The matching thread runs out of work when it takes more steps than the accepted messages can cost. -/
theorem rests_after {clock : Nat → Nanos} (inv : machine.Inv) (later : List Move)
    (holds : (machine.run later).exchange.Inv clock)
    (admissible : ∀ msg ∈ machine.inbound.stored, ∀ call, msg.route = some call → call.Admissible)
    (quiet : ∀ move ∈ later, move.byGateway = false)
    (enough : 10 * machine.inbound.stored.length + 5 < later.countP Move.byEngine) : (machine.run later).Resting := by
  obtain ⟨-, stored, rounds⟩ := quiet_run inv later quiet
  rcases rounds with same | resting
  · have paid := (steps_le inv later).2.1
    have few := reports_le_stored holds (by rwa [stored])
    have pushed := congrArg List.length holds.reports
    have all := congrArg List.length holds.messages
    change ((machine.run later).outbound.pushed.map Prod.fst ++ (machine.run later).engineAt.unsent).length =
      (machine.run later).book.reports.length at pushed
    change ((machine.run later).dispatched ++ (machine.run later).engineAt.current.toList ++
      (machine.run later).inbound.queue.contents).length = (machine.run later).inbound.stored.length at all
    rw [same] at paid
    rw [List.length_append, List.length_map] at pushed
    rw [List.length_append, List.length_append] at all
    rw [stored] at few all
    change _ ≤ 6 * (machine.run later).dispatched.length + _ + 4 * (machine.run later).outbound.pushed.length + 5 at paid
    omega
  · exact resting

/-- Four steps for each cell of the queue let the consumer pop all that a resting matching thread has left. -/
theorem Resting.drained {clock : Nat → Nanos} (resting : machine.Resting) (inv : machine.Inv)
    (holds : machine.exchange.Inv clock) (later : List Move) (holdsLater : (machine.run later).exchange.Inv clock)
    (quiet : ∀ move ∈ later, move.byGateway = false)
    (enough : 4 * kOutboundQueueSize ≤ later.countP Move.byConsumer) :
    (machine.run later).outbound.queue.contents = [] := by
  obtain ⟨-, same, counts⟩ := resting.run inv later quiet
  have bound : machine.outbound.queue.contents.length < kOutboundQueueSize := holds.outboundBound
  have earlier := congrArg List.length holds.delivered
  have lengths := congrArg List.length holdsLater.delivered
  change (machine.outbound.poppedItems ++ machine.outbound.queue.contents).length =
    ((machine.outbound.pushed.filter Prod.snd).map Prod.fst).length at earlier
  change ((machine.run later).outbound.poppedItems ++ (machine.run later).outbound.queue.contents).length =
    (((machine.run later).outbound.pushed.filter Prod.snd).map Prod.fst).length at lengths
  rcases counts with empty | items
  · exact empty
  · have paid : later.countP Move.byConsumer + 4 * machine.outbound.popped.length ≤
        4 * (machine.run later).outbound.popped.length + 3 := (steps_le inv later).2.2
    rw [same, ← earlier, List.length_append, List.length_append] at lengths
    omega

end Machine

/-- Once the gateway stands still the pipeline runs dry: after ten steps of the matching thread for each accepted
message every one of them is dispatched and every report is pushed, and after a bounded number of further steps
the consumer has received every report that found room. -/
theorem pipeline_runs_dry (clock : Nat → Nanos) (past later last : List Move) :
    let before := (Machine.init clock).run past
    let after := before.run later
    let final := after.run last
    (∀ msg ∈ before.inbound.stored, ∀ call, msg.route = some call → call.Admissible) →
    (∀ move ∈ later ++ last, move.byGateway = false) →
    10 * before.inbound.stored.length + 5 < later.countP Move.byEngine →
      after.dispatched = before.inbound.stored ∧ after.inbound.queue.contents = [] ∧
        after.book = (OrderBook.empty true clock).run (before.inbound.stored.filterMap OrderMessage.route) ∧
        after.outbound.pushed.map Prod.fst = after.book.reports ∧
        (4 * kOutboundQueueSize ≤ last.countP Move.byConsumer →
          final.outbound.poppedItems = (final.outbound.pushed.filter Prod.snd).map Prod.fst ∧
            final.outbound.pushed.map Prod.fst = after.book.reports) := by
  intro before after final admissible quiet enough
  obtain ⟨inv, -⟩ : before.Inv ∧ before.exchange.Inv clock := Machine.reached clock past
  have still (move : Move) (member : move ∈ later) := quiet move (List.mem_append_left _ member)
  obtain ⟨invAfter, stored, -⟩ := Machine.quiet_run inv later still
  have whole : after = (Machine.init clock).run (past ++ later) := (Machine.run_append _ past later).symm
  have holdsAfter : after.exchange.Inv clock := by
    rw [whole]
    exact (Machine.reached clock (past ++ later)).2
  have resting : after.Resting := Machine.rests_after inv later holdsAfter admissible still enough
  have messages : after.dispatched ++ after.engineAt.current.toList ++ after.inbound.queue.contents =
      before.inbound.stored := holdsAfter.messages.trans stored
  have reports : after.outbound.pushed.map Prod.fst ++ after.engineAt.unsent = after.book.reports := holdsAfter.reports
  have book : after.book = (OrderBook.empty true clock).run (after.dispatched.filterMap OrderMessage.route) :=
    holdsAfter.book
  rw [resting.popping, resting.empty] at messages
  rw [resting.popping] at reports
  have dispatched : after.dispatched = before.inbound.stored := by simpa [EngineAt.current] using messages
  have emitted : after.outbound.pushed.map Prod.fst = after.book.reports := by
    simpa [EngineAt.unsent] using reports
  rw [dispatched] at book
  refine ⟨dispatched, resting.empty, book, emitted, fun drained => ?_⟩
  have quietLast (move : Move) (member : move ∈ last) := quiet move (List.mem_append_right _ member)
  have holdsFinal : final.exchange.Inv clock := by
    show ((after.run last).exchange).Inv clock
    rw [whole, ← Machine.run_append]
    exact (Machine.reached clock (past ++ later ++ last)).2
  have empty : final.outbound.queue.contents = [] :=
    resting.drained invAfter holdsAfter last holdsFinal quietLast drained
  have same : final.outbound.pushed = after.outbound.pushed := (resting.run invAfter last quietLast).2.1
  have delivered : final.outbound.poppedItems ++ final.outbound.queue.contents =
      (final.outbound.pushed.filter Prod.snd).map Prod.fst := holdsFinal.delivered
  rw [empty, List.append_nil] at delivered
  refine ⟨delivered, ?_⟩
  rw [same, emitted]

/-- The gateway accepts one message. -/
def oneSell : List Move := List.replicate 6 (.gateway (.inject (.sell 1 65535 2) 3))

/-- The consumer pops more often than a full queue needs. -/
def manyPops : List Move := List.replicate (4 * kOutboundQueueSize) .consumer

/-- One message is accepted, and the two other threads go on. -/
theorem pipeline_runs_dry_after_one :
    ((((Machine.init fun _ => 1).run oneSell).run (List.replicate 16 .engine)).run manyPops).outbound.pushed.map
      Prod.fst = (((Machine.init fun _ => 1).run oneSell).run (List.replicate 16 .engine)).book.reports := by
  have stored : ((Machine.init fun _ => 1).run oneSell).inbound.stored =
      [{ OrderMessage.sell 1 65535 2 with arrivalCycles := 3 }] := by
    decide +kernel
  have admissible (msg : OrderMessage) (member : msg ∈ ((Machine.init fun _ => 1).run oneSell).inbound.stored)
      (call : Call) (routed : msg.route = some call) : call.Admissible := by
    rw [stored] at member
    obtain rfl := List.mem_singleton.mp member
    obtain rfl := Option.some.inj routed
    decide
  have quiet (move : Move) (member : move ∈ List.replicate 16 Move.engine ++ manyPops) : move.byGateway = false := by
    rcases List.mem_append.mp member with engine | consumer
    · rw [List.eq_of_mem_replicate engine]
      rfl
    · rw [List.eq_of_mem_replicate consumer]
      rfl
  have enough : 10 * ((Machine.init fun _ => 1).run oneSell).inbound.stored.length + 5 <
      (List.replicate 16 Move.engine).countP Move.byEngine := by
    rw [stored]
    decide
  have pops : 4 * kOutboundQueueSize ≤ manyPops.countP Move.byConsumer := by
    unfold manyPops
    rw [List.countP_replicate]
    exact Nat.le_refl _
  have dry := pipeline_runs_dry (fun _ => 1) oneSell (List.replicate 16 .engine) manyPops admissible quiet enough
  exact (dry.2.2.2.2 pops).2

end OrderEngine
