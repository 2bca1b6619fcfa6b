import OrderEngine.Ledger.Outcome

namespace OrderEngine

open Library

namespace Ledger

variable {ledger after : Ledger} {incoming resting : Ptr} {rest : List Ptr}

/-- A match fills the orders that it completes and at most one more, in the order in which it reaches them. -/
structure Traded (ledger : Ledger) (incoming : Ptr) (after : Ledger) (fills : List Fill) (last : List Ptr) : Prop where
  made : after.fills = ledger.fills ++ fills
  resting : fills.map Fill.resting = ledger.completed incoming ++ last
  reached : ledger.completed incoming ++ last <+: ledger.matchable incoming
  atMostOne : last.length ≤ 1
  spent : ledger.left incoming = 0 → fills = []

/-- The first trade of a match completes its resting order or ends the match. -/
theorem Traded.trade {fills : List Fill} {last : List Ptr} (inv : ledger.Inv (some incoming))
    (crosses : ledger.Crosses incoming) (head : ledger.queue (ledger.facing incoming)
      (ledger.best (ledger.facing incoming)) = resting :: rest)
    (traded : (ledger.trade resting incoming).Traded incoming after fills last) :
    ∃ fills last, ledger.Traded incoming after fills last := by
  obtain ⟨others, before, next⟩ := trade_matchable inv crosses head
  have split := trade_completed inv crosses head
  have positive := (unfilled_iff (inv.arrived rfl).filledLe).mp crosses.2.2
  have made := traded.made
  rw [Ledger.trade, fill_fills, List.append_assoc, List.singleton_append] at made
  by_cases full : ledger.left resting ≤ ledger.left incoming
  · rw [if_pos full] at next split
    refine ⟨_, last, made, ?_, ?_, traded.atMostOne, fun spent => by omega⟩
    · rw [List.map_cons, traded.resting, split]
      rfl
    · have reached := traded.reached
      rw [next] at reached
      rw [split, before]
      exact (List.prefix_cons_inj resting).mpr reached
  · have spent : (ledger.trade resting incoming).left incoming = 0 := by
      rw [trade_left_incoming inv]
      omega
    have nothing : (ledger.trade resting incoming).completed incoming = [] := by
      rw [completed, spent, paid_zero]
    rw [if_neg full, nothing] at split
    rw [traded.spent spent] at made
    refine ⟨_, [resting], made, ?_, ?_, Nat.le_refl 1, fun spent => by omega⟩
    · rw [split]
      rfl
    · rw [split, before]
      exact List.prefix_append [resting] others

/-- A stopped match has filled what it completed and at most one order more. -/
theorem MatchRun.traded (run : MatchRun incoming ledger after) (inv : ledger.Inv (some incoming))
    (stopped : ¬ after.Crosses incoming) : ∃ fills last, ledger.Traded incoming after fills last := by
  induction run using Relation.ReflTransGen.head_induction_on with
  | refl =>
      have nothing := inv.completed_of_stopped stopped
      refine ⟨[], [], (List.append_nil _).symm, ?_, ?_, Nat.zero_le 1, fun _ => rfl⟩
      · rw [nothing]
        rfl
      · rw [nothing]
        exact List.nil_prefix
  | @head ledger middle step rest ih =>
      obtain ⟨fills, last, traded⟩ := ih (step.inv inv)
      cases step with
      | trade crosses head => exact traded.trade inv crosses head
      | rescan valid empty =>
          refine ⟨fills, last, ?_, traded.resting, traded.reached, traded.atMostOne, traded.spent⟩
          rw [traded.made, rescan_fills]

/-- A stopped match makes no more fills than there are orders it can reach. -/
theorem Traded.length_le {fills : List Fill} {last : List Ptr} (traded : ledger.Traded incoming after fills last) :
    fills.length ≤ (ledger.matchable incoming).length := by
  have short := traded.reached.length_le
  rw [← traded.resting, List.length_map] at short
  exact short

end Ledger

end OrderEngine
