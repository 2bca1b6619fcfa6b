import OrderEngine.Ledger.Settled

namespace OrderEngine

namespace Ledger

variable {incoming : Ptr} {ledger next other after : Ledger} {msg : OrderMessage} {placed otherPlaced : Option Ptr}

/-- The match has one step at most. -/
theorem MatchStep.unique : Relator.RightUnique (MatchStep incoming) := by
  intro ledger next other first second
  cases first with
  | trade crosses head =>
      cases second with
      | trade _ otherHead =>
          obtain ⟨rfl, -⟩ := List.cons_eq_cons.mp (head.symm.trans otherHead)
          rfl
      | rescan _ empty => exact absurd (head.symm.trans empty) (List.cons_ne_nil _ _)
  | rescan valid empty =>
      cases second with
      | trade _ head => exact absurd (head.symm.trans empty) (List.cons_ne_nil _ _)
      | rescan => rfl

/-- Two matches of one order that both stop at a tight wing end in the same ledger. -/
theorem MatchRun.unique (first : MatchRun incoming ledger next) (second : MatchRun incoming ledger other)
    (stopped : ¬ next.Crosses incoming) (otherStopped : ¬ other.Crosses incoming)
    (tight : next.Tight (ledger.facing incoming)) (otherTight : other.Tight (ledger.facing incoming)) :
    next = other := by
  rw [← first.facing_eq] at tight
  rw [← second.facing_eq] at otherTight
  rcases Relation.ReflTransGen.total_of_right_unique MatchStep.unique first second with onward | onward
  · exact (MatchRun.eq_of_not_crosses onward stopped tight).symm
  · exact MatchRun.eq_of_not_crosses onward otherStopped otherTight

/-- An add that finds a slot matches its order, and the order rests unless it was filled. -/
theorem AddRun.matched {slot : Ptr} {rest : List Ptr} (run : ledger.AddRun msg placed after)
    (free : ledger.free = slot :: rest) (tight : ledger.Tight msg.side.wing.opposite) : placed = some slot ∧
      ∃ matched, MatchRun slot (ledger.enroll slot rest msg) matched ∧ ¬ matched.Crosses slot ∧
        matched.Tight ((ledger.enroll slot rest msg).facing slot) ∧
        after = if (matched.data slot).status = .filled then matched else matched.rest slot := by
  have enrolled : (ledger.enroll slot rest msg).Tight ((ledger.enroll slot rest msg).facing slot) := by
    rw [facing, wing, enroll_data_self, Tight, enroll_best]
    exact tight
  cases run with
  | full none_ => exact absurd (free.symm.trans none_) (List.cons_ne_nil _ _)
  | filled own run stopped kept done =>
      obtain ⟨rfl, rfl⟩ := List.cons_eq_cons.mp (own.symm.trans free)
      exact ⟨rfl, _, run, stopped, kept enrolled, (if_pos done).symm⟩
  | rested own run stopped kept left =>
      obtain ⟨rfl, rfl⟩ := List.cons_eq_cons.mp (own.symm.trans free)
      exact ⟨rfl, _, run, stopped, kept enrolled, (if_neg left).symm⟩

/-- An add that faces a tight wing has one outcome. -/
theorem AddRun.unique (first : ledger.AddRun msg placed after) (second : ledger.AddRun msg otherPlaced other)
    (tight : ledger.Tight msg.side.wing.opposite) : placed = otherPlaced ∧ after = other := by
  cases free : ledger.free with
  | nil =>
      cases first with
      | full =>
          cases second with
          | full => exact ⟨rfl, rfl⟩
          | filled own => exact absurd (own.symm.trans free) (List.cons_ne_nil _ _)
          | rested own => exact absurd (own.symm.trans free) (List.cons_ne_nil _ _)
      | filled own => exact absurd (own.symm.trans free) (List.cons_ne_nil _ _)
      | rested own => exact absurd (own.symm.trans free) (List.cons_ne_nil _ _)
  | cons slot rest =>
      obtain ⟨rfl, matched, run, stopped, kept, rfl⟩ := first.matched free tight
      obtain ⟨rfl, otherMatched, otherRun, otherStopped, otherKept, rfl⟩ := second.matched free tight
      rw [run.unique otherRun stopped otherStopped kept otherKept]
      exact ⟨rfl, rfl⟩

/-- A call of a tight ledger has one outcome when its cancels leave the ledger tight. -/
theorem CallRun.unique {call : Call} {answer otherAnswer : Bool} (first : ledger.CallRun call answer after)
    (second : ledger.CallRun call otherAnswer other) (tight : ∀ wing, ledger.Tight wing)
    (withdrawn : ∀ id slot, ledger.findLive id = some slot → ∀ wing, (ledger.withdraw slot).Tight wing) :
    answer = otherAnswer ∧ after = other := by
  cases first with
  | add run =>
      cases second with
      | add otherRun =>
          obtain ⟨rfl, rfl⟩ := run.unique otherRun (tight _)
          exact ⟨rfl, rfl⟩
  | cancelMissing missing =>
      cases second with
      | cancelMissing => exact ⟨rfl, rfl⟩
      | cancel found => exact absurd (missing.symm.trans found) (Option.some_ne_none _).symm
  | cancel found =>
      cases second with
      | cancelMissing missing => exact absurd (missing.symm.trans found) (Option.some_ne_none _).symm
      | cancel otherFound =>
          obtain rfl := Option.some.inj (found.symm.trans otherFound)
          exact ⟨rfl, rfl⟩
  | modifyMissing missing =>
      obtain ⟨rfl, rfl⟩ := second.modify_missing missing
      exact ⟨rfl, rfl⟩
  | shrink found fits =>
      obtain ⟨rfl, rfl⟩ := second.modify_shrinks found fits
      exact ⟨rfl, rfl⟩
  | replace found larger run =>
      obtain ⟨placed, rfl, otherRun⟩ := second.modify_replaces found larger
      obtain ⟨rfl, rfl⟩ := run.unique otherRun (withdrawn _ _ found _)
      exact ⟨rfl, rfl⟩

end Ledger

end OrderEngine
