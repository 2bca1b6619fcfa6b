import OrderEngine.Guarantee.EventLoop
import OrderEngine.Guarantee.Frames

namespace OrderEngine

/-- The producer pushes a message. -/
def LoopStep.isPush : LoopStep → Bool
  | .push _ => true
  | _ => false

namespace EventLoop

variable {loop : EventLoop} {engine : MatchingEngine}

/-- The thread of `run` needs at most this many steps to come behind its loop once the flag is false. -/
def left (loop : EventLoop) : Nat :=
  match loop.place with
  | .done => 0
  | .inside => loop.engine.inbound.contents.length + 2
  | _ => 1

theorem left_le (loop : EventLoop) : loop.left ≤ loop.engine.inbound.contents.length + 2 := by
  unfold left
  split <;> omega

theorem done_of_left (spent : loop.left = 0) : loop.place = .done := by
  unfold left at spent
  split at spent
  · assumption
  · omega
  · omega

theorem done_step (done : loop.place = .done) (step : LoopStep) : (loop.step step).place = .done := by
  cases step with
  | run => simp only [EventLoop.step, runStep, done]
  | stop =>
      simp only [EventLoop.step, stopStep]
      split <;> exact done
  | push msg => exact done

/-- A poll pops one message if there is one, and nothing else touches the inbound queue. -/
theorem poll_inbound (valid : engine.inbound.Valid) : engine.poll.2.inbound.Valid ∧
    (engine.poll.1 = false ∧ engine.poll.2.inbound.contents = [] ∨
      engine.poll.1 = true ∧ engine.poll.2.inbound.contents.length + 1 = engine.inbound.contents.length) := by
  unfold MatchingEngine.poll
  rcases SPSCQueue.tryPop_cases MatchingEngine.Guarded.inboundPower valid with ⟨empty, nothing⟩ |
    ⟨item, first, after, items⟩
  · rw [empty]
    exact ⟨valid, .inl ⟨rfl, nothing⟩⟩
  · have popped : engine.inbound.tryPop = (some item, engine.inbound.tryPop.2) := by rw [← first]
    rw [popped]
    simp only [MatchingEngine.dispatch_inbound]
    refine ⟨after, .inr ⟨trivial, ?_⟩⟩
    rw [items, List.length_cons]

/-- A push adds at most one message. -/
theorem push_inbound (valid : loop.engine.inbound.Valid) (msg : OrderMessage) :
    (loop.push msg).engine.inbound.Valid ∧
      (loop.push msg).engine.inbound.contents.length ≤ loop.engine.inbound.contents.length + 1 := by
  unfold push
  rcases SPSCQueue.tryPush_cases MatchingEngine.Guarded.inboundPower valid msg with ⟨blocked, -⟩ | ⟨-, -, after, items⟩
  · rw [blocked]
    exact ⟨valid, Nat.le_succ _⟩
  · rw [items, List.length_append]
    exact ⟨after, Nat.le_refl _⟩

theorem valid_step (valid : loop.engine.inbound.Valid) (step : LoopStep) : (loop.step step).engine.inbound.Valid := by
  cases step with
  | run =>
      simp only [EventLoop.step, runStep]
      split
      · exact valid
      · exact valid
      · exact (poll_inbound valid).1
      · exact valid
  | stop =>
      simp only [EventLoop.step, stopStep]
      split <;> exact valid
  | push msg => exact (push_inbound valid msg).1

/-- The loop is open, and the stop has stored false for good. -/
structure Stopping (loop : EventLoop) : Prop where
  settled : loop.Settled
  stopped : loop.stopped = true
  valid : loop.engine.inbound.Valid

/-- A step of `run` lowers the count by one, and a push raises it by at most one. -/
theorem Stopping.step (stopping : loop.Stopping) (step : LoopStep) : (loop.step step).Stopping ∧
    ((loop.step step).place = .done ∨
      (loop.step step).left + (if step = .run then 1 else 0) ≤ loop.left + if step.isPush then 1 else 0) := by
  have settled := stopping.settled.step step
  have next := valid_step stopping.valid step
  obtain ⟨⟨open_, silent⟩, stopped, valid⟩ := stopping
  cases step with
  | run =>
      cases place : loop.place with
      | start => exact absurd place open_
      | check =>
          have after : loop.step .run = { loop with place := .done } := by
            simp only [EventLoop.step, runStep, place, silent stopped, Bool.false_eq_true, if_false]
          rw [after] at settled next ⊢
          exact ⟨⟨settled, stopped, next⟩, .inl rfl⟩
      | inside =>
          have after : loop.step .run = { loop with
              engine := loop.engine.poll.2
              place := if loop.engine.poll.1 then .inside else .check } := by
            simp only [EventLoop.step, runStep, place]
          rw [after] at settled next ⊢
          refine ⟨⟨settled, stopped, next⟩, .inr ?_⟩
          rcases (poll_inbound valid).2 with ⟨nothing, empty⟩ | ⟨some, fewer⟩
          · simp only [left, place, nothing, Bool.false_eq_true, if_false, if_true, LoopStep.isPush]
            omega
          · simp only [left, place, some, Bool.false_eq_true, if_false, if_true, LoopStep.isPush]
            omega
      | done =>
          have after : loop.step .run = loop := by
            simp only [EventLoop.step, runStep, place]
          rw [after]
          exact ⟨⟨⟨open_, silent⟩, stopped, valid⟩, .inl place⟩
  | stop =>
      have after : loop.step .stop = loop := by
        simp only [EventLoop.step, stopStep, if_pos stopped]
      rw [after]
      exact ⟨⟨⟨open_, silent⟩, stopped, valid⟩, .inr (by simp [LoopStep.isPush])⟩
  | push msg =>
      have longer := (push_inbound valid msg).2
      refine ⟨⟨settled, stopped, next⟩, .inr ?_⟩
      have same : (loop.push msg).place = loop.place := rfl
      simp only [EventLoop.step, left, same, LoopStep.isPush, if_true, reduceCtorEq, if_false]
      split <;> omega

/-- A stopped loop comes to its end, or it still has the steps left that it was not given. -/
theorem Stopping.after (stopping : loop.Stopping) (later : List LoopStep) :
    (loop.after later).place = .done ∨
      (loop.after later).left + later.count .run ≤ loop.left + later.countP LoopStep.isPush := by
  induction later generalizing loop with
  | nil => exact .inr (Nat.le_refl _)
  | cons step later ih =>
      obtain ⟨kept, done | counted⟩ := stopping.step step
      · exact .inl (@after_keeps (loop.step step) (fun loop => loop.place = .done) done_step done later)
      · rcases ih kept with done | rest
        · exact .inl done
        · right
          rw [List.count_cons, List.countP_cons]
          change (loop.after (step :: later)).left + _ ≤ _ at rest
          simp only [beq_iff_eq]
          omega

/-- The flag is true for good, although the stop is done. -/
structure Endless (loop : EventLoop) : Prop where
  stopped : loop.stopped = true
  running : loop.running = true
  open_ : loop.place = .check ∨ loop.place = .inside

theorem Endless.step (endless : loop.Endless) (step : LoopStep) : (loop.step step).Endless := by
  obtain ⟨stopped, running, open_⟩ := endless
  cases step with
  | run =>
      rcases open_ with check | inside
      · simp only [EventLoop.step, runStep, check, running, if_true]
        exact ⟨stopped, rfl, .inr rfl⟩
      · simp only [EventLoop.step, runStep, inside]
        refine ⟨stopped, running, ?_⟩
        cases loop.engine.poll.1 with
        | false => exact .inl rfl
        | true => exact .inr rfl
  | stop =>
      simp only [EventLoop.step, stopStep, if_pos stopped]
      exact ⟨stopped, running, open_⟩
  | push msg => exact ⟨stopped, running, open_⟩

theorem endless_after {front : List LoopStep} (idle : LoopStep.run ∉ front) (early : LoopStep.stop ∈ front)
    (between : List LoopStep) : ((init engine).after (front ++ .run :: between)).Endless := by
  rw [after_opened idle]
  exact after_keeps Endless.step ⟨(stopped_iff engine front).mpr early, rfl, .inl rfl⟩ between

/-- Once `run` has stored its flag and `stop` is done, `run` returns exactly when the stop did not come first. It
then needs two steps beyond the messages that wait and those that are still pushed. -/
theorem run_returns_iff (valid : engine.inbound.Valid) (past later : List LoopStep) (opened : LoopStep.run ∈ past)
    (asked : LoopStep.stop ∈ past)
    (enough : ((init engine).after past).engine.inbound.contents.length + later.countP LoopStep.isPush + 2 ≤
      later.count .run) : ((init engine).after (past ++ later)).place = .done ↔ ¬ StopFirst past := by
  have stopped := (stopped_iff engine past).mpr asked
  have kept : ((init engine).after past).engine.inbound.Valid :=
    @after_keeps (init engine) (fun loop => loop.engine.inbound.Valid) valid_step valid past
  obtain ⟨front, between, rfl, idle⟩ := List.eq_append_cons_of_mem opened
  rw [stopFirst_append idle]
  constructor
  · intro done early
    rw [List.append_assoc, List.cons_append] at done
    rcases (@endless_after engine front idle early (between ++ later)).open_ with check | inside
    · rw [check] at done
      exact absurd done (by simp)
    · rw [inside] at done
      exact absurd done (by simp)
  · intro late
    have stopping : ((init engine).after (front ++ .run :: between)).Stopping :=
      ⟨settled_after idle late between, stopped, kept⟩
    have whole : (init engine).after ((front ++ .run :: between) ++ later) =
        ((init engine).after (front ++ .run :: between)).after later := List.foldl_append
    rw [whole]
    rcases stopping.after later with done | counted
    · exact done
    · have bound := ((init engine).after (front ++ .run :: between)).left_le
      exact done_of_left (by omega)

/-- The stop comes while a message waits, and three more steps are enough. -/
theorem run_returns_after_late_stop :
    ((init (MatchingEngine.init fun _ => 1)).after
      ([.push (.buy 1 2 3), .run, .run, .stop] ++ [.run, .run, .run])).place = .done := by
  have valid : (MatchingEngine.init fun _ => 1).inbound.Valid := SPSCQueue.init_valid (by decide) _
  exact (run_returns_iff valid [.push (.buy 1 2 3), .run, .run, .stop] [.run, .run, .run] (by decide) (by decide)
    (by decide +kernel)).mpr (by decide)

end EventLoop

end OrderEngine
