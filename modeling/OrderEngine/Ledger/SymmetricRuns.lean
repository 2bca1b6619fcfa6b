import OrderEngine.Ledger.Image
import OrderEngine.Ledger.Unique

namespace OrderEngine

namespace Symmetry

variable (symmetry : Symmetry) {ledger next after : Ledger} {pending placed : Option Ptr} {incoming slot : Ptr}
  {msg : OrderMessage}

theorem valid_of_inTicks {price : Int} (inside : InTicks price) : price ≠ kInvalidPrice := by
  intro missing
  exact kInvalidPrice_outside (missing ▸ inside)

/-- A wing is tight exactly when its image is. -/
theorem tight_iff (inv : ledger.Inv pending) (place : Wing) :
    (symmetry.ledger ledger).Tight (symmetry.wing place) ↔ ledger.Tight place := by
  unfold Ledger.Tight
  rw [ledger_core, core_best, wing_wing, symmetry.quote_eq_invalid inv.bestInTicks]
  by_cases missing : ledger.best place = kInvalidPrice
  · simp only [missing, true_or]
  · rw [symmetry.quote_of_inTicks (inv.bestInTicks missing), ledger_queue]

section Match

variable (inv : ledger.Inv (some incoming))

include inv

theorem facing_eq : (symmetry.ledger ledger).facing incoming = symmetry.wing (ledger.facing incoming) := by
  unfold Ledger.facing
  rw [symmetry.ledger_wing (valid_of_inTicks (inv.arrived rfl).inTicks), wing_opposite]

theorem crosses_iff : (symmetry.ledger ledger).Crosses incoming ↔ ledger.Crosses incoming := by
  unfold Ledger.Crosses
  rw [symmetry.facing_eq inv, symmetry.ledger_price (valid_of_inTicks (inv.arrived rfl).inTicks), ledger_core,
    core_best, wing_wing, ne_eq, symmetry.quote_eq_invalid inv.bestInTicks]
  by_cases missing : ledger.best (ledger.facing incoming) = kInvalidPrice
  · simp only [missing, ne_eq, not_true, false_and]
  · rw [symmetry.quote_of_inTicks (inv.bestInTicks missing), symmetry.rank_tick_le]
    rfl

/-- The image of a step of the match is a step of the match. -/
theorem matchStep (step : Ledger.MatchStep incoming ledger next) :
    Ledger.MatchStep incoming (symmetry.ledger ledger) (symmetry.ledger next) := by
  have facing := symmetry.facing_eq inv
  cases step with
  | @trade resting rest crosses head =>
      have linked := (Ledger.head_linked inv.toShelved head).1
      have best := symmetry.quote_of_inTicks (inv.bestInTicks crosses.1)
      rw [Ledger.trade, symmetry.ledger_fill (valid_of_inTicks (inv.inTicks linked))]
      apply Ledger.MatchStep.trade ((symmetry.crosses_iff inv).mpr crosses)
      rw [facing, ledger_core, core_best, wing_wing, best, ledger_queue]
      exact head
  | rescan valid empty =>
      have best := symmetry.quote_of_inTicks (inv.bestInTicks valid)
      rw [symmetry.ledger_rescan (inv.bestInTicks valid), ← facing]
      apply Ledger.MatchStep.rescan
      · rw [facing, ledger_core, core_best, wing_wing, ne_eq, symmetry.quote_eq_invalid inv.bestInTicks]
        exact valid
      · rw [facing, ledger_core, core_best, wing_wing, best, ledger_queue]
        exact empty

theorem matchRun (run : Ledger.MatchRun incoming ledger next) :
    Ledger.MatchRun incoming (symmetry.ledger ledger) (symmetry.ledger next) := by
  induction run with
  | refl => exact .refl
  | tail earlier step ih => exact .tail ih (symmetry.matchStep (Ledger.MatchRun.inv earlier inv) step)

end Match

/-- The image of an add is an add of the image of the message. -/
theorem addRun (inv : ledger.Inv none) (inside : InTicks msg.price) (positive : 0 < msg.quantity)
    (run : ledger.AddRun msg placed after) :
    (symmetry.ledger ledger).AddRun (symmetry.message msg) placed (symmetry.ledger after) := by
  have enrolled {slot : Ptr} {rest : List Ptr} (free : ledger.free = slot :: rest) :
      ((symmetry.ledger ledger).enroll slot rest (symmetry.message msg)) =
        symmetry.ledger (ledger.enroll slot rest msg) := (symmetry.ledger_enroll inside rest).symm
  cases run with
  | full free => exact .full free
  | @filled slot rest after free run stopped tight done =>
      have arrived := inv.enroll free inside positive
      have freeImage : (symmetry.ledger ledger).free = slot :: rest := free
      apply Ledger.AddRun.filled freeImage
      · rw [enrolled free]
        exact symmetry.matchRun arrived run
      · rw [symmetry.crosses_iff (run.inv arrived)]
        exact stopped
      · rw [enrolled free, symmetry.facing_eq arrived, symmetry.tight_iff arrived,
          symmetry.tight_iff (run.inv arrived)]
        exact tight
      · exact done
  | @rested slot rest matched free run stopped tight left =>
      have arrived := inv.enroll free inside positive
      have ended := run.inv arrived
      rw [symmetry.ledger_rest (ended.arrived rfl).inTicks fun _ => ended.bestInTicks]
      have freeImage : (symmetry.ledger ledger).free = slot :: rest := free
      apply Ledger.AddRun.rested freeImage
      · rw [enrolled free]
        exact symmetry.matchRun arrived run
      · rw [symmetry.crosses_iff ended]
        exact stopped
      · rw [enrolled free, symmetry.facing_eq arrived, symmetry.tight_iff arrived, symmetry.tight_iff ended]
        exact tight
      · exact left

/-- A cancel of an order of a named side commutes with the symmetry. -/
theorem withdraw (inv : ledger.Inv none) (linked : ledger.Linked slot)
    (named : (symmetry.side (ledger.data slot).side).Named ↔ (ledger.data slot).side.Named) :
    symmetry.ledger (ledger.withdraw slot) = (symmetry.ledger ledger).withdraw slot := by
  have valid := (inv.bestBound (List.ne_nil_of_mem linked)).1
  apply symmetry.ledger_withdraw (valid_of_inTicks (inv.inTicks linked)) (inv.bestInTicks valid)
  exact symmetry.exposes_iff (inv.inTicks linked) inv.bestInTicks named

/-- The image of the message that replaces an order is the message that replaces its image. -/
theorem replacement (valid : ledger.price slot ≠ kInvalidPrice) (id : OrderId) (newQty : Quantity) :
    symmetry.message (ledger.replacement slot id newQty) =
      (symmetry.ledger ledger).replacement slot id newQty := by
  unfold Ledger.replacement message
  rw [symmetry.ledger_price valid, ledger_data, symmetry.order_side _ valid]
  rfl

/-- The image of an order that is added again is added again after the image of its cancel. -/
theorem replaceRun (inv : ledger.Inv none) (linked : ledger.Linked slot) {id : OrderId} {newQty : Quantity}
    (larger : ¬ newQty ≤ (ledger.data slot).remaining)
    (run : (ledger.withdraw slot).ticked.AddRun ((ledger.withdraw slot).replacement slot id newQty)
      placed after) :
    (symmetry.ledger (ledger.withdraw slot)).ticked.AddRun
      ((symmetry.ledger (ledger.withdraw slot)).replacement slot id newQty) placed (symmetry.ledger after) := by
  have inside : InTicks ((ledger.withdraw slot).price slot) := by
    rw [Ledger.withdraw_price]
    exact inv.inTicks linked
  have positive : 0 < ((ledger.withdraw slot).replacement slot id newQty).quantity :=
    UInt64.lt_of_le_of_lt UInt64.zero_le (UInt64.not_le.mp larger)
  have image := symmetry.addRun (inv.withdraw linked).ticked inside positive run
  rw [symmetry.ledger_ticked, symmetry.replacement (valid_of_inTicks inside)] at image
  exact image

/-- The image of a call is a call when the orders have named sides. -/
theorem callRun {call : Call} {answer : Bool} (inv : ledger.Inv none) (sound : call.Sound)
    (named : ∀ slot, (ledger.data slot).side.Named) (run : ledger.CallRun call answer after) :
    (symmetry.ledger ledger).CallRun (symmetry.call call) answer (symmetry.ledger after) := by
  have withdrawn {slot : Ptr} (linked : ledger.Linked slot) :=
    symmetry.withdraw inv linked (iff_of_true (symmetry.side_named _ (named slot)) (named slot))
  cases run with
  | add run => exact .add (symmetry.addRun inv sound.1 sound.2 run)
  | cancelMissing missing => exact .cancelMissing missing
  | cancel found =>
      rw [withdrawn (inv.found_linked found).1]
      exact .cancel found
  | modifyMissing missing => exact .modifyMissing missing
  | shrink found fits =>
      have inside := inv.inTicks (inv.found_linked found).1
      rw [symmetry.ledger_shrink (valid_of_inTicks inside)]
      exact .shrink found fits
  | @replace id newQty slot placed after found larger run =>
      have linked := (inv.found_linked found).1
      have image := symmetry.replaceRun inv linked larger run
      rw [withdrawn linked] at image
      exact .replace found larger image

theorem ledger_tight (inv : ledger.Inv pending) (tight : ∀ wing, ledger.Tight wing) (place : Wing) :
    (symmetry.ledger ledger).Tight place := by
  rw [← symmetry.wing_wing place, symmetry.tight_iff inv]
  exact tight (symmetry.wing place)

/-- Two settled ledgers with one image keep one image when they take calls with one image. -/
theorem images_agree {other otherAfter : Ledger} (second : Symmetry) (settled : ledger.Settled)
    (otherSettled : other.Settled) (alike : symmetry.ledger ledger = second.ledger other)
    {call otherCall : Call} (sound : call.Sound) (otherSound : otherCall.Sound)
    (calls : symmetry.call call = second.call otherCall) {answer otherAnswer : Bool}
    (run : ledger.CallRun call answer after) (otherRun : other.CallRun otherCall otherAnswer otherAfter) :
    symmetry.ledger after = second.ledger otherAfter := by
  have image := symmetry.callRun settled.toInv sound settled.named run
  have otherImage := second.callRun otherSettled.toInv otherSound otherSettled.named otherRun
  rw [← alike, ← calls] at otherImage
  apply (image.unique otherImage (symmetry.ledger_tight settled.toInv settled.tight) _).2
  intro id slot found
  have linked := (settled.toInv.found_linked (by exact found)).1
  have named := settled.named slot
  rw [← symmetry.withdraw settled.toInv linked (iff_of_true (symmetry.side_named _ named) named)]
  have withdrawn := settled.withdraw linked
  exact symmetry.ledger_tight withdrawn.toInv withdrawn.tight

end Symmetry

end OrderEngine
