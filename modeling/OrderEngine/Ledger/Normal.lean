import OrderEngine.Ledger.Replace
import OrderEngine.Ledger.SymmetricRuns

namespace OrderEngine

open Library

/-- Every byte that does not name a buy becomes a sell. -/
def Side.normal (side : Side) : Side := if side = Side.buy then Side.buy else Side.sell

theorem Side.normal_named (side : Side) : side.normal.Named := by
  unfold normal
  split
  · exact .inl rfl
  · exact .inr rfl

namespace Symmetry

/-- Every side becomes one of the two named ones. -/
def normal : Symmetry where
  mirrors := false
  side := Side.normal
  time := id
  side_wing := fun value => by
    unfold Side.normal Side.wing
    by_cases buy : value = Side.buy
    · simp [buy]
    · simp [buy]
      decide
  side_named := fun value _ => value.normal_named
  time_latency := fun _ _ => rfl

theorem normal_quote (price : Int) : normal.quote price = price := by
  unfold quote
  split
  · next missing => exact missing.symm
  · rfl

theorem normal_core (core : BookCore) : normal.core core = core := by
  unfold Symmetry.core
  rw [normal_quote, normal_quote]
  show { core with reports := core.reports.map id } = core
  rw [List.map_id]

/-- A ledger whose orders are normal stays as it is. -/
theorem normal_same {ledger : Ledger} (orders : ∀ slot, normal.order (ledger.data slot) = ledger.data slot) :
    normal.ledger ledger = ledger := by
  unfold Symmetry.ledger
  rw [normal_core, funext orders]
  rfl

theorem normal_admissible {call : Call} (sound : call.Sound) : (normal.call call).Admissible := by
  cases call with
  | add msg => exact ⟨msg.side.normal_named, sound⟩
  | cancel id => trivial
  | modify id newQty => trivial

end Symmetry

namespace Ledger

variable {ledger after : Ledger} {slot : Ptr} {wing : Wing}

/-- An order that rests at the best price makes a scan for that price unnecessary. -/
theorem rest_rescan (best : ledger.best (ledger.wing slot) = ledger.price slot) (inside : InTicks (ledger.price slot))
    (empty : ledger.queue (ledger.wing slot) (ledger.price slot) = []) :
    (ledger.rescan (ledger.wing slot)).rest slot = ledger.rest slot := by
  have scanned : (ledger.rescan (ledger.wing slot)).best (ledger.wing slot) = nextBest (ledger.wing slot)
      (fun price => !(ledger.queue (ledger.wing slot) price).isEmpty) (ledger.price slot) := by
    rw [rescan_best, if_pos rfl, best]
  have better : (ledger.rescan (ledger.wing slot)).best (ledger.wing slot) = kInvalidPrice ∨
      (ledger.wing slot).rank (ledger.price slot) <
        (ledger.wing slot).rank ((ledger.rescan (ledger.wing slot)).best (ledger.wing slot)) := by
    rw [scanned]
    rcases nextBest_cases (ledger.wing slot) (fun price => !(ledger.queue (ledger.wing slot) price).isEmpty)
      inside with ⟨missing, -⟩ | ⟨-, occupied, behind, -⟩
    · exact .inl missing
    · right
      apply lt_of_le_of_ne behind
      intro same
      rw [← (ledger.wing slot).rank_injective same, empty] at occupied
      exact absurd occupied (by simp)
  have stale : ¬ (ledger.best (ledger.wing slot) = kInvalidPrice ∨ (ledger.wing slot).rank (ledger.price slot) <
      (ledger.wing slot).rank (ledger.best (ledger.wing slot))) := by
    rw [best]
    rintro (missing | less)
    · exact kInvalidPrice_outside (missing ▸ inside)
    · exact lt_irrefl _ less
  have core : (ledger.rescan (ledger.wing slot)).setBest (ledger.wing slot) (ledger.price slot) =
      ledger.toBookCore := by
    unfold Ledger.rescan
    rw [BookCore.setBest_setBest, ← best, BookCore.setBest_same]
  rw [rest_eq, rest_eq, if_neg stale]
  apply (if_pos better).trans
  show ({ ledger.setLevel _ _ _ _ with
    toBookCore := (ledger.rescan (ledger.wing slot)).setBest (ledger.wing slot) (ledger.price slot) } : Ledger) = _
  rw [core]
  rfl

theorem rescan_enroll (rest : List Ptr) (msg : OrderMessage) :
    (ledger.rescan wing).enroll slot rest msg = (ledger.enroll slot rest msg).rescan wing := by
  cases wing <;> rfl

theorem rescan_ticked : (ledger.rescan wing).ticked = ledger.ticked.rescan wing := by
  cases wing <;> rfl

theorem rescan_replacement (id : OrderId) (newQty : Quantity) :
    (ledger.rescan wing).replacement slot id newQty = ledger.replacement slot id newQty := by
  cases wing <;> rfl

/-- A scan of its own wing does not let an order cross. -/
theorem rescan_crosses : (ledger.rescan (ledger.wing slot)).Crosses slot ↔ ledger.Crosses slot := by
  have facing : (ledger.rescan (ledger.wing slot)).facing slot = ledger.facing slot := rfl
  have different : ledger.facing slot ≠ ledger.wing slot := Wing.opposite_ne (ledger.wing slot)
  unfold Crosses
  rw [facing, rescan_best, if_neg different]
  rfl

/-- An order that is cancelled without a scan and added again stands alone at the stale best price. -/
theorem Exposes.arrived {arrived : Ledger} {id : OrderId} {newQty : Quantity} (exposes : ledger.Exposes slot)
    (queued : (ledger.expunge slot).ticked.enroll slot ledger.free
      ((ledger.expunge slot).replacement slot id newQty) = arrived) :
    arrived.wing slot = ledger.wing slot ∧ arrived.price slot = ledger.price slot ∧
      arrived.best (ledger.wing slot) = ledger.price slot ∧
      arrived.queue (ledger.wing slot) (ledger.price slot) = [] := by
  have left : (ledger.expunge slot).data slot = { ledger.data slot with status := .cancelled } :=
    Function.update_self ..
  subst queued
  refine ⟨?_, ?_, ?_, ?_⟩
  · rw [Ledger.wing, enroll_data_self, replacement, left]
    rfl
  · rw [Ledger.price, enroll_data_self, replacement, Ledger.price, left]
    rfl
  · rw [enroll_best, ticked_best]
    exact exposes.2.2.symm
  · rw [enroll_queue, ticked_queue]
    exact (setCell_self ..).trans exposes.1

/-- An order that is cancelled without a scan and added again ends where it would with the scan. -/
theorem Settled.stale_replace {other : Ledger} {id : OrderId} {newQty : Quantity} {placed otherPlaced : Option Ptr}
    (settled : ledger.Settled) (linked : ledger.Linked slot) (exposes : ledger.Exposes slot)
    (run : (ledger.expunge slot).ticked.AddRun ((ledger.expunge slot).replacement slot id newQty) placed after)
    (scanned : (ledger.withdraw slot).ticked.AddRun ((ledger.withdraw slot).replacement slot id newQty)
      otherPlaced other) : after = other := by
  have withdrawn : ledger.withdraw slot = (ledger.expunge slot).rescan (ledger.wing slot) := by
    rw [withdraw_eq, if_pos exposes]
  have stops := @Settled.replacement_stops ledger slot id newQty settled linked ledger.free
  have ended := (settled.replace_eq linked scanned).2
  have tight := (settled.withdraw linked).tight (ledger.wing slot).opposite
  rw [withdrawn, rescan_ticked, rescan_replacement, rescan_enroll] at stops ended
  rw [withdrawn, Tight, rescan_best, if_neg (Wing.opposite_ne (ledger.wing slot))] at tight
  have own : (ledger.expunge slot).ticked.Tight (ledger.wing slot).opposite := tight
  generalize queued : (ledger.expunge slot).ticked.enroll slot ledger.free
    ((ledger.expunge slot).replacement slot id newQty) = arrived at stops ended
  obtain ⟨wing, price, best, empty⟩ := exposes.arrived queued
  have side : ((ledger.expunge slot).replacement slot id newQty).side.wing = ledger.wing slot := by
    rw [← wing, ← queued, Ledger.wing, enroll_data_self]
  have inside : InTicks (arrived.price slot) := price ▸ settled.inTicks linked
  rw [← wing, rescan_crosses] at stops
  rw [← wing, ← price] at best empty
  rw [← wing, rest_rescan best inside empty] at ended
  have free : (ledger.expunge slot).ticked.free = slot :: ledger.free := rfl
  obtain ⟨-, matched, matching, -, -, same⟩ := run.matched free (by rw [side]; exact own)
  rw [queued] at matching
  have facing : arrived.Tight (arrived.facing slot) := by
    rw [facing, wing, ← queued, Tight, enroll_best]
    exact own
  have still := matching.eq_of_not_crosses stops facing
  have active : ¬ (arrived.data slot).status = .filled := by
    rw [← queued, enroll_data_self]
    simp
  rw [same, still, if_neg active, ended]

/-- A cancel that exposes its level moves the best price. -/
theorem Inv.withdraw_best_ne (inv : ledger.Inv none) (linked : ledger.Linked slot) (exposes : ledger.Exposes slot) :
    (ledger.withdraw slot).best (ledger.wing slot) ≠ ledger.price slot := by
  have inside : InTicks (ledger.best (ledger.wing slot)) := by
    rw [← exposes.2.2]
    exact inv.inTicks linked
  have queue : (ledger.expunge slot).queue (ledger.wing slot) (ledger.price slot) = [] :=
    (setCell_self ..).trans exposes.1
  have best : (ledger.expunge slot).best (ledger.wing slot) = ledger.best (ledger.wing slot) := rfl
  rw [withdraw_eq, if_pos exposes, rescan_best, if_pos rfl, best]
  rcases nextBest_cases (ledger.wing slot)
    (fun price => !((ledger.expunge slot).queue (ledger.wing slot) price).isEmpty) inside with
    ⟨missing, -⟩ | ⟨-, occupied, -⟩
  · rw [missing]
    intro same
    exact kInvalidPrice_outside (same ▸ inv.inTicks linked)
  · intro same
    rw [same, queue] at occupied
    exact absurd occupied (by simp)

/-- The cancel of this order empties the best level and does not scan for the next one. -/
def Hides (ledger : Ledger) (slot : Ptr) : Prop :=
  (ledger.queue (ledger.wing slot) (ledger.price slot)).erase slot = [] ∧
    ¬ (ledger.data slot).side.Named ∧ ledger.price slot = ledger.best (ledger.wing slot)

end Ledger

section Step

variable {ledger after otherAfter : Ledger} {slot : Ptr} {call : Call} {answer otherAnswer : Bool}

/-- The order with the normal side exposes its level whenever it empties the best one. -/
theorem Symmetry.normal_exposes (inv : ledger.Inv none) (linked : ledger.Linked slot) :
    (normal.ledger ledger).Exposes slot ↔
      (ledger.queue (ledger.wing slot) (ledger.price slot)).erase slot = [] ∧
        ledger.price slot = ledger.best (ledger.wing slot) := by
  have inside := inv.inTicks linked
  have valid := valid_of_inTicks inside
  have named : (normal.side (ledger.data slot).side).Named := (ledger.data slot).side.normal_named
  unfold Ledger.Exposes
  rw [normal.ledger_wing valid, normal.ledger_price valid, ledger_queue, ledger_data, normal.order_side _ valid,
    ledger_core, core_best, wing_wing, normal.tick_eq_quote inside inv.bestInTicks]
  exact and_congr_right fun _ => and_iff_right named

/-- A cancel that hides nothing does the same to the order with the normal side. -/
theorem Symmetry.normal_withdraw (inv : ledger.Inv none) (linked : ledger.Linked slot)
    (safe : ¬ ledger.Hides slot) : normal.ledger (ledger.withdraw slot) = (normal.ledger ledger).withdraw slot := by
  have valid := (inv.bestBound (List.ne_nil_of_mem linked)).1
  apply normal.ledger_withdraw (valid_of_inTicks (inv.inTicks linked)) (inv.bestInTicks valid)
  rw [normal_exposes inv linked]
  constructor
  · rintro ⟨empty, best⟩
    refine ⟨empty, ?_, best⟩
    by_contra unnamed
    exact safe ⟨empty, unnamed, best⟩
  · rintro ⟨empty, -, best⟩
    exact ⟨empty, best⟩

/-- An order that is replaced ends in the same ledger whether or not its cancel hid a level. -/
theorem Symmetry.normal_replace {id : OrderId} {newQty : Quantity} {placed otherPlaced : Option Ptr}
    (inv : ledger.Inv none) (settled : (normal.ledger ledger).Settled) (linked : ledger.Linked slot)
    (larger : ¬ newQty ≤ (ledger.data slot).remaining)
    (run : (ledger.withdraw slot).ticked.AddRun ((ledger.withdraw slot).replacement slot id newQty) placed after)
    (otherRun : ((normal.ledger ledger).withdraw slot).ticked.AddRun
      (((normal.ledger ledger).withdraw slot).replacement slot id newQty) otherPlaced otherAfter) :
    normal.ledger after = otherAfter := by
  have image := normal.replaceRun inv linked larger run
  have valid := valid_of_inTicks (inv.inTicks linked)
  have otherLinked : (normal.ledger ledger).Linked slot := by
    unfold Ledger.Linked
    rw [normal.ledger_wing valid, normal.ledger_price valid, ledger_queue]
    exact linked
  by_cases hidden : ledger.Hides slot
  · have unscanned : ledger.withdraw slot = ledger.expunge slot := by
      rw [Ledger.withdraw_eq]
      exact if_neg fun exposes => hidden.2.1 exposes.2.1
    rw [unscanned, normal.ledger_expunge valid] at image
    have exposes := (normal_exposes inv linked).mpr ⟨hidden.1, hidden.2.2⟩
    exact settled.stale_replace otherLinked exposes image otherRun
  · rw [normal_withdraw inv linked hidden] at image
    exact (image.unique otherRun ((settled.withdraw otherLinked).tight _)).2

/-- A call with the normal side does the same unless it is a cancel that hides a level. -/
theorem Symmetry.normal_call_eq (inv : ledger.Inv none) (settled : (normal.ledger ledger).Settled)
    (sound : call.Sound) (run : ledger.CallRun call answer after)
    (otherRun : (normal.ledger ledger).CallRun (normal.call call) otherAnswer otherAfter)
    (safe : ∀ id slot, call = .cancel id → ledger.findLive id = some slot → ¬ ledger.Hides slot) :
    normal.ledger after = otherAfter := by
  have unique (image : (normal.ledger ledger).CallRun (normal.call call) answer (normal.ledger after)) :
      normal.ledger after = otherAfter := by
    apply (image.unique otherRun settled.tight _).2
    intro id slot found
    exact (settled.withdraw (settled.toInv.found_linked found).1).tight
  cases run with
  | add run => exact unique (.add (normal.addRun inv sound.1 sound.2 run))
  | cancelMissing missing => exact unique (.cancelMissing missing)
  | cancel found =>
      apply unique
      rw [normal_withdraw inv (inv.found_linked found).1 (safe _ _ rfl found)]
      exact .cancel found
  | modifyMissing missing => exact unique (.modifyMissing missing)
  | shrink found fits =>
      apply unique
      rw [normal.ledger_shrink (valid_of_inTicks (inv.inTicks (inv.found_linked found).1))]
      exact .shrink found fits
  | replace found larger run =>
      obtain ⟨placed, -, otherRun⟩ := otherRun.modify_replaces found larger
      exact normal_replace inv settled (inv.found_linked found).1 larger run otherRun

/-- Only an order of the ask wing hides a level, and it stands there alone. -/
theorem Ledger.hides_iff (linked : ledger.Linked slot) : ledger.Hides slot ↔
    ¬ (ledger.data slot).side.Named ∧ ledger.queue .ask (ledger.price slot) = [slot] ∧
      ledger.price slot = ledger.best .ask := by
  have wing (unnamed : ¬ (ledger.data slot).side.Named) : ledger.wing slot = .ask :=
    if_neg fun buy => unnamed (.inl buy)
  have alone : (ledger.queue (ledger.wing slot) (ledger.price slot)).erase slot = [] ↔
      ledger.queue (ledger.wing slot) (ledger.price slot) = [slot] := by
    rw [List.erase_eq_nil_iff]
    exact or_iff_right (List.ne_nil_of_mem linked)
  unfold Hides
  rw [alone]
  constructor
  · rintro ⟨queue, unnamed, best⟩
    rw [wing unnamed] at queue best
    exact ⟨unnamed, queue, best⟩
  · rintro ⟨unnamed, queue, best⟩
    rw [wing unnamed]
    exact ⟨queue, unnamed, best⟩

end Step

end OrderEngine
