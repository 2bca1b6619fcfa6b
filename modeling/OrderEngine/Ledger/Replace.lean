import OrderEngine.Ledger.Outcome

namespace OrderEngine

open Library

namespace Ledger

variable {ledger after : Ledger} {slot : Ptr} {id : OrderId} {newQty : Quantity}

/-- No order crosses the replacement of an order that rested in an uncrossed book. -/
theorem Settled.replacement_crossing (settled : ledger.Settled) (linked : ledger.Linked slot)
    {id : OrderId} {newQty : Quantity} :
    (ledger.withdraw slot).ticked.crossing
      ((ledger.withdraw slot).replacement slot id newQty).side.wing.opposite
      ((ledger.withdraw slot).replacement slot id newQty).price = [] := by
  have inv := (settled.withdraw linked).ticked.toInv
  rw [List.eq_nil_iff_forall_not_mem]
  intro other member
  rw [replacement_wing, replacement_price] at member
  obtain ⟨otherLinked, wing, near⟩ := inv.mem_crossing.mp member
  have was := ((withdraw_linked settled.toInv linked).mp (ticked_linked.mp otherLinked)).1
  rw [ticked_wing, withdraw_wing] at wing
  rw [ticked_price, withdraw_price] at near
  unfold Linked at linked was
  cases place : ledger.wing slot with
  | bid =>
      rw [place] at wing near linked
      rw [wing] at was
      have apart := settled.uncrossed linked was
      simp only [Wing.opposite, Wing.rank] at near
      omega
  | ask =>
      rw [place] at wing near linked
      rw [wing] at was
      have apart := settled.uncrossed was linked
      simp only [Wing.opposite, Wing.rank] at near
      omega

/-- Two settled ledgers with the same occupied levels on a wing have the same best price there. -/
theorem Settled.best_unique {other : Ledger} (settled : ledger.Settled) (otherSettled : other.Settled)
    {wing : Wing} (same : ∀ price, ledger.queue wing price = [] ↔ other.queue wing price = []) :
    ledger.best wing = other.best wing := by
  rcases settled.tight wing with missing | occupied
  · rcases otherSettled.tight wing with otherMissing | otherOccupied
    · rw [missing, otherMissing]
    · have here := mt (same _).mp otherOccupied
      exact absurd missing (settled.bestBound here).1
  · have there := mt (same _).mpr occupied
    obtain ⟨valid, low⟩ := otherSettled.bestBound there
    have otherOccupied := (otherSettled.tight wing).resolve_left valid
    have high := (settled.bestBound (mt (same _).mp otherOccupied)).2
    apply wing.rank_injective
    omega

/-- One order's quantities change, and its queue may. -/
structure Amended (ledger : Ledger) (slot : Ptr) (newQty : Quantity) (queue : List Ptr) (after : Ledger) :
    Prop where
  id : (after.data slot).id = (ledger.data slot).id
  side : (after.data slot).side = (ledger.data slot).side
  price : after.price slot = ledger.price slot
  filledLe : (after.data slot).filledQuantity ≤ (after.data slot).quantity
  remaining : (after.data slot).remaining = newQty
  others : ∀ other, other ≠ slot → after.data other = ledger.data other
  queue : after.queue = setCell ledger.queue (ledger.wing slot) (ledger.price slot) queue
  total : after.total = setCell ledger.total (ledger.wing slot) (ledger.price slot)
    (ledger.total (ledger.wing slot) (ledger.price slot) + (newQty - (ledger.data slot).remaining))
  free : after.free = ledger.free
  best : ∀ wing, after.best wing = ledger.best wing
  reports : after.reports = ledger.reports
  matchCount : after.matchCount = ledger.matchCount
  tradeVolume : after.tradeVolume = ledger.tradeVolume

open scoped UInt64.CommRing in
/-- A smaller quantity changes the order in place. -/
theorem Settled.shrink_amended (settled : ledger.Settled) (linked : ledger.Linked slot)
    (fits : newQty ≤ (ledger.data slot).remaining) : ledger.Amended slot newQty
      (ledger.queue (ledger.wing slot) (ledger.price slot)) (ledger.shrink slot newQty) where
  id := shrink_id slot
  side := shrink_side slot
  price := shrink_price slot
  filledLe := by
    rw [shrink_data, Function.update_self]
    exact le_add_of_fits (settled.filledLe linked) fits
  remaining := by
    rw [shrink_data, Function.update_self]
    show (ledger.data slot).filledQuantity + newQty - (ledger.data slot).filledQuantity = newQty
    ring
  others := fun other different => by
    rw [shrink_data, Function.update_of_ne different]
  queue := rfl
  total := by
    show setCell ledger.total _ _ (_ - ((ledger.data slot).remaining - newQty)) = _
    congr 1
    ring
  free := rfl
  best := fun wing => by cases wing <;> rfl
  reports := rfl
  matchCount := rfl
  tradeVolume := rfl

/-- An order that crosses nothing rests at once in the next free slot. -/
theorem Settled.rests_at_once {rest : List Ptr} {msg : OrderMessage} {placed : Option Ptr}
    (settled : ledger.Settled) (free : ledger.free = slot :: rest)
    (stops : ¬ (ledger.enroll slot rest msg).Crosses slot) (run : ledger.AddRun msg placed after) :
    placed = some slot ∧ after = (ledger.enroll slot rest msg).rest slot := by
  have still {own : Ptr} {others : List Ptr} {matched : Ledger} (top : ledger.free = own :: others)
      (matching : MatchRun own (ledger.enroll own others msg) matched) :
      own = slot ∧ matched = ledger.enroll slot rest msg := by
    obtain ⟨rfl, rfl⟩ := List.cons_eq_cons.mp (top.symm.trans free)
    refine ⟨rfl, matching.eq_of_not_crosses stops ?_⟩
    rw [Tight, enroll_best]
    exact settled.tight _
  cases run with
  | full none => exact absurd (none.symm.trans free) (List.cons_ne_nil _ _).symm
  | filled top matching stopped tight done =>
      obtain ⟨rfl, same⟩ := still top matching
      rw [same, enroll_data_self] at done
      exact absurd done (by simp)
  | rested top matching stopped tight left =>
      obtain ⟨rfl, same⟩ := still top matching
      exact ⟨rfl, congrArg (fun matched : Ledger => matched.rest _) same⟩

section Replace

variable (settled : ledger.Settled) (linked : ledger.Linked slot)

include settled linked

/-- The replacement crosses nothing. -/
theorem Settled.replacement_stops (rest : List Ptr) : ¬ ((ledger.withdraw slot).ticked.enroll slot rest
    ((ledger.withdraw slot).replacement slot id newQty)).Crosses slot := by
  have withdrawn := (settled.withdraw linked).ticked
  have nothing := @Settled.replacement_crossing ledger slot settled linked id newQty
  generalize (ledger.withdraw slot).replacement slot id newQty = msg at nothing ⊢
  generalize (ledger.withdraw slot).ticked = withdrawnLedger at withdrawn nothing ⊢
  rintro ⟨valid, reached, -⟩
  simp only [facing, wing, price, enroll_data_self, enroll_best] at valid reached
  obtain ⟨other, member⟩ := List.exists_mem_of_ne_nil _ ((withdrawn.tight _).resolve_left valid)
  obtain ⟨otherLinked, otherWing, otherPrice⟩ := withdrawn.mem_iff.mp member
  have crosses := withdrawn.toInv.mem_crossing.mpr ⟨otherLinked, otherWing, otherPrice ▸ reached⟩
  rw [nothing] at crosses
  exact absurd crosses List.not_mem_nil

/-- The cancelled order is added again to the slot that it left, and it rests at once. -/
theorem Settled.replace_eq {placed : Option Ptr}
    (run : (ledger.withdraw slot).ticked.AddRun ((ledger.withdraw slot).replacement slot id newQty)
      placed after) :
    placed = some slot ∧ after = (((ledger.withdraw slot).ticked.enroll slot ledger.free
      ((ledger.withdraw slot).replacement slot id newQty)).rest slot) := by
  exact (settled.withdraw linked).ticked.rests_at_once (ledger.withdraw_free slot)
    (settled.replacement_stops linked _) run

open scoped UInt64.CommRing in
/-- A larger quantity moves the order to the end of its level and changes nothing else. -/
theorem Settled.replace_amended {placed : Option Ptr} (larger : ¬ newQty ≤ (ledger.data slot).remaining)
    (run : (ledger.withdraw slot).ticked.AddRun ((ledger.withdraw slot).replacement slot id newQty)
      placed after) (named : (ledger.data slot).id = id) :
    ledger.Amended slot newQty ((ledger.queue (ledger.wing slot) (ledger.price slot)).erase slot ++ [slot])
      after := by
  obtain ⟨side, inside, positive⟩ := settled.replacement_admissible linked larger
  have settledAfter := (settled.withdraw linked).ticked.add side inside positive run
  obtain ⟨-, rfl⟩ := settled.replace_eq linked run
  have data := ((ledger.withdraw slot).ticked.enroll_data_self slot ledger.free
    ((ledger.withdraw slot).replacement slot id newQty))
  have wing : ((ledger.withdraw slot).ticked.enroll slot ledger.free
      ((ledger.withdraw slot).replacement slot id newQty)).wing slot = ledger.wing slot := by
    rw [Ledger.wing, data]
    exact @replacement_wing ledger slot id newQty
  have price : ((ledger.withdraw slot).ticked.enroll slot ledger.free
      ((ledger.withdraw slot).replacement slot id newQty)).price slot = ledger.price slot := by
    rw [Ledger.price, data]
    exact @replacement_price ledger slot id newQty
  have queue : (((ledger.withdraw slot).ticked.enroll slot ledger.free
      ((ledger.withdraw slot).replacement slot id newQty)).rest slot).queue =
      setCell ledger.queue (ledger.wing slot) (ledger.price slot)
        ((ledger.queue (ledger.wing slot) (ledger.price slot)).erase slot ++ [slot]) := by
    rw [rest_queue, wing, price, enroll_queue, ticked_queue, withdraw_queue, setCell_self, setCell_setCell]
  constructor
  · rw [rest_data, data]
    exact named.symm
  · rw [rest_data, data]
    exact withdraw_side slot
  · rw [Ledger.price, rest_data]
    exact price
  · rw [rest_data, data]
    exact UInt64.zero_le
  · rw [rest_data, data]
    exact UInt64.sub_zero newQty
  · intro other different
    rw [rest_data, enroll_data_other _ _ _ different, ticked_data, withdraw_data,
      Function.update_of_ne different]
  · exact queue
  · rw [rest_total, wing, price, data]
    rw [enroll_total, ticked_total, withdraw_total, setCell_self, setCell_setCell]
    congr 1
    show _ - _ + newQty = _
    ring
  · rw [rest_free, enroll_free]
  · intro other
    apply settledAfter.best_unique settled
    intro tick
    rw [queue, setCell_apply]
    split
    · next here =>
        rw [here.1, here.2]
        simp [List.ne_nil_of_mem linked]
    · rfl
  · rw [rest_reports, enroll_reports, ticked_reports, withdraw_reports]
  · rw [rest_matchCount, enroll_matchCount, ticked_matchCount, withdraw_matchCount]
  · rw [rest_tradeVolume, enroll_tradeVolume, ticked_tradeVolume, withdraw_tradeVolume]

end Replace

end Ledger

end OrderEngine
