import OrderEngine.Construction.EventLoop
import OrderEngine.Library.History

namespace OrderEngine

open Library

namespace EventLoop

variable {loop : EventLoop} {engine : MatchingEngine} {schedule past : List LoopStep}

/-- The flag is false once `stop` has stored behind the opening store. -/
def Settled (loop : EventLoop) : Prop := loop.place ≠ .start ∧ (loop.stopped = true → loop.running = false)

/-- The opening store overwrites the store of `stop`. -/
def Lost (loop : EventLoop) : Prop := loop.stopped = true ∧ (loop.place = .start ∨ loop.running = true)

theorem start_iff (engine : MatchingEngine) (past : List LoopStep) :
    ((init engine).after past).place = .start ↔ LoopStep.run ∉ past := by
  induction past using List.reverseRecOn with
  | nil => simp [after, init]
  | append_singleton past step ih =>
      rw [after_append]
      cases step with
      | run =>
          simp only [EventLoop.step, runStep]
          split
          · simp
          · split <;> simp
          · split <;> simp
          · next done => simp [done]
      | stop =>
          simp only [EventLoop.step, stopStep]
          split
          · simpa using ih
          · simpa using ih
      | push msg => simpa [EventLoop.step, push] using ih

theorem stopped_iff (engine : MatchingEngine) (past : List LoopStep) :
    ((init engine).after past).stopped = true ↔ LoopStep.stop ∈ past := by
  induction past using List.reverseRecOn with
  | nil => simp [after, init]
  | append_singleton past step ih =>
      rw [after_append]
      cases step with
      | run =>
          simp only [EventLoop.step, runStep]
          split <;> simpa using ih
      | stop =>
          simp only [EventLoop.step, stopStep]
          split
          · next already => simp [already]
          · simp
      | push msg => simpa [EventLoop.step, push] using ih

/-- A late `stop` finds the opening store done, so the flag stays false behind it. -/
theorem Settled.step (settled : loop.Settled) (step : LoopStep) : (loop.step step).Settled := by
  obtain ⟨started, quiet⟩ := settled
  cases step with
  | run =>
      simp only [EventLoop.step, runStep]
      split
      · next start => exact absurd start started
      · constructor
        · split <;> simp
        · exact quiet
      · constructor
        · split <;> simp
        · exact quiet
      · exact ⟨started, quiet⟩
  | stop =>
      simp only [EventLoop.step, stopStep]
      split
      · exact ⟨started, quiet⟩
      · exact ⟨started, fun _ => rfl⟩
  | push msg => exact ⟨started, quiet⟩

/-- An early `stop` is forgotten for good. -/
theorem Lost.step (lost : loop.Lost) (step : LoopStep) : (loop.step step).Lost := by
  obtain ⟨stopped, place⟩ := lost
  cases step with
  | run =>
      simp only [EventLoop.step, runStep]
      split
      · exact ⟨stopped, .inr rfl⟩
      · next check => exact ⟨stopped, .inr (place.resolve_left (by simp [check]))⟩
      · next inside => exact ⟨stopped, .inr (place.resolve_left (by simp [inside]))⟩
      · exact ⟨stopped, place⟩
  | stop =>
      simp only [EventLoop.step, stopStep, if_pos stopped]
      exact ⟨stopped, place⟩
  | push msg => exact ⟨stopped, place⟩

/-- What every step keeps holds after every schedule. -/
theorem after_keeps {Holds : EventLoop → Prop}
    (step : ∀ {loop : EventLoop}, Holds loop → ∀ step, Holds (loop.step step)) (start : Holds loop)
    (schedule : List LoopStep) : Holds (loop.after schedule) := by
  induction schedule generalizing loop with
  | nil => exact start
  | cons next schedule ih => exact ih (step start next)

/-- A call to `run_once` begins only at a load that reads true. -/
theorem begins_cases (begun : (loop.step .run).place = .inside) :
    loop.place = .inside ∨ loop.place = .check ∧ loop.running = true := by
  simp only [EventLoop.step, runStep] at begun
  split at begun
  · exact absurd begun (by simp)
  · next check =>
      right
      constructor
      · exact check
      · by_contra silent
        rw [if_neg silent] at begun
        exact absurd begun (by simp)
  · next inside => exact .inl inside
  · next done => exact absurd (done.symm.trans begun) (by simp)

/-- Only a step of `run` moves its thread. -/
theorem place_after (idle : LoopStep.run ∉ schedule) : (loop.after schedule).place = loop.place := by
  induction schedule generalizing loop with
  | nil => rfl
  | cons step schedule ih =>
      rw [List.mem_cons, not_or] at idle
      have kept : (loop.step step).place = loop.place := by
        cases step with
        | run => exact absurd rfl idle.1
        | stop =>
            simp only [EventLoop.step, stopStep]
            split <;> rfl
        | push msg => rfl
      exact (ih idle.2).trans kept

/-- The store of `stop` comes before the opening store of `run`. -/
def StopFirst (schedule : List LoopStep) : Prop := LoopStep.stop ∈ schedule.takeWhile (· ≠ .run)

instance : DecidablePred StopFirst := fun _ => inferInstanceAs (Decidable (_ ∈ _))

theorem stopFirst_append {front later : List LoopStep} (idle : LoopStep.run ∉ front) :
    StopFirst (front ++ .run :: later) ↔ LoopStep.stop ∈ front := by
  have passed : ∀ step ∈ front, decide (step ≠ LoopStep.run) = true := by
    intro step member
    exact decide_eq_true fun same => idle (same ▸ member)
  rw [StopFirst, List.takeWhile_append_of_pos passed, List.takeWhile_cons_of_neg (by simp), List.append_nil]

/-- The opening store sets the flag. -/
def opened (loop : EventLoop) : EventLoop := { loop with running := true, place := .check }

theorem after_opened {front : List LoopStep} (idle : LoopStep.run ∉ front) (later : List LoopStep) :
    (init engine).after (front ++ .run :: later) = ((init engine).after front).opened.after later := by
  have start := (start_iff engine front).mpr idle
  unfold EventLoop.after at start ⊢
  rw [List.foldl_append, List.foldl_cons]
  congr 1
  simp only [EventLoop.step, runStep, start, opened]

/-- A stop behind the opening store stays. -/
theorem settled_after {front : List LoopStep} (idle : LoopStep.run ∉ front) (late : LoopStep.stop ∉ front)
    (between : List LoopStep) : ((init engine).after (front ++ .run :: between)).Settled := by
  rw [after_opened idle]
  apply after_keeps Settled.step
  constructor
  · exact fun same => by cases same
  · intro early
    exact absurd ((stopped_iff engine front).mp early) late

/-- A stop before the opening store is forgotten. -/
theorem lost_after {front : List LoopStep} (idle : LoopStep.run ∉ front) (early : LoopStep.stop ∈ front)
    (between : List LoopStep) : ((init engine).after (front ++ .run :: between)).Lost := by
  rw [after_opened idle]
  apply after_keeps Lost.step
  exact ⟨(stopped_iff engine front).mpr early, .inr rfl⟩

/-- A stop that comes first is lost as soon as `run` loads the flag. -/
theorem not_honoured (first : StopFirst schedule) (loads : 2 ≤ schedule.count .run) :
    ¬ StopHonoured engine schedule := by
  intro honoured
  have opens : LoopStep.run ∈ schedule := List.count_pos_iff.mp (by omega)
  obtain ⟨front, later, rfl, idle⟩ := List.eq_append_cons_of_mem opens
  rw [List.count_append, List.count_cons_self, List.count_eq_zero_of_not_mem idle] at loads
  have checks : LoopStep.run ∈ later := List.count_pos_iff.mp (by omega)
  obtain ⟨between, others, rfl, quiet⟩ := List.eq_append_cons_of_mem checks
  have forgotten := @lost_after engine front idle ((stopFirst_append idle).mp first) between
  have check : (((init engine).after front).opened.after between).place = .check := place_after quiet
  rw [← after_opened idle] at check
  have inside : (front ++ .run :: between) ++ [.run] <+: front ++ .run :: (between ++ .run :: others) := by
    refine ⟨others, ?_⟩
    simp
  have silent := (honoured _ inside forgotten.1).1 check
  rcases forgotten.2 with start | running
  · exact absurd (check.symm.trans start) (fun same => by cases same)
  · exact absurd (silent.symm.trans running) Bool.false_ne_true

/-- A stop that finds the opening store done is never lost. -/
theorem honoured_of_late (late : ¬ (StopFirst schedule ∧ 2 ≤ schedule.count .run)) :
    StopHonoured engine schedule := by
  intro past inside stopped
  by_cases opens : LoopStep.run ∈ past
  · obtain ⟨front, between, rfl, idle⟩ := List.eq_append_cons_of_mem opens
    obtain ⟨others, whole⟩ := inside
    have loads : 2 ≤ schedule.count .run := by
      rw [← whole, List.count_append, List.count_append, List.count_append]
      simp
      omega
    have open_first : ¬ LoopStep.stop ∈ front := by
      intro member
      apply late
      refine ⟨?_, loads⟩
      rw [← whole, List.append_assoc, List.append_assoc, List.cons_append]
      exact (stopFirst_append idle).mpr member
    have silent := (@settled_after engine front idle open_first between).2 stopped
    constructor
    · intro _
      exact silent
    · intro begun
      rw [after_append] at begun
      apply (begins_cases begun).resolve_right
      rintro ⟨-, loud⟩
      exact Bool.false_ne_true (silent.symm.trans loud)
  · have start := (start_iff engine past).mpr opens
    constructor
    · intro check
      exact absurd (start.symm.trans check) (by simp)
    · intro begun
      rw [after_append] at begun
      apply (begins_cases begun).resolve_right
      rintro ⟨check, -⟩
      exact absurd (start.symm.trans check) (by simp)

/-- A stop request is honoured exactly when it does not come before the opening store of a `run` that
goes on to load the flag. -/
theorem stopHonoured_iff (engine : MatchingEngine) (schedule : List LoopStep) :
    StopHonoured engine schedule ↔ ¬ (StopFirst schedule ∧ 2 ≤ schedule.count .run) := by
  constructor
  · rintro honoured ⟨first, loads⟩
    exact not_honoured first loads honoured
  · intro late
    exact honoured_of_late late

/-- The loop loads true after the stop. -/
theorem stop_before_opening_lost :
    ¬ StopHonoured (MatchingEngine.init fun _ => 1) [.stop, .run, .run] := by
  intro honoured
  have silent := (honoured [.stop, .run] List.prefix_rfl rfl).1 rfl
  exact Bool.false_ne_true silent.symm

end EventLoop

end OrderEngine
