import OrderEngine.Ledger.Outcome
import OrderEngine.Library.Tally

namespace OrderEngine

open Library

/-- This is the worst tick that a wing can have. -/
def Wing.back : Wing → Int
  | .bid => 0
  | .ask => kMaxPriceTicks - 1

theorem Wing.rank_le_back {wing : Wing} {price : Int} (inside : InTicks price) :
    wing.rank price ≤ wing.rank wing.back := by
  obtain ⟨low, high⟩ := inside
  cases wing <;> simp only [rank, back] <;> omega

namespace Ledger

instance (ledger : Ledger) (slot : Ptr) : Decidable (ledger.Linked slot) := inferInstanceAs (Decidable (_ ∈ _))

/-- These orders stand in a queue. -/
def resting (ledger : Ledger) : List Ptr :=
  ledger.crossing .bid Wing.bid.back ++ ledger.crossing .ask Wing.ask.back

def restingVolume (ledger : Ledger) : Nat := ledger.volume ledger.resting

/-- This is the sum of the quantities of all fills. -/
def traded (ledger : Ledger) : Nat := (ledger.fills.map fun fill => fill.quantity.toNat).sum

variable {ledger next after : Ledger} {pending other : Option Ptr} {incoming slot : Ptr} {rest : List Ptr}
  {msg : OrderMessage}

theorem Inv.mem_resting (inv : ledger.Inv pending) : slot ∈ ledger.resting ↔ ledger.Linked slot := by
  unfold resting
  rw [List.mem_append, inv.mem_crossing, inv.mem_crossing]
  constructor
  · rintro (⟨linked, -⟩ | ⟨linked, -⟩)
    · exact linked
    · exact linked
  · intro linked
    have near := fun wing : Wing => wing.rank_le_back (inv.inTicks linked)
    cases place : ledger.wing slot with
    | bid => exact .inl ⟨linked, rfl, near .bid⟩
    | ask => exact .inr ⟨linked, rfl, near .ask⟩

theorem Inv.resting_nodup (inv : ledger.Inv pending) : ledger.resting.Nodup := by
  apply List.Nodup.append inv.crossing_nodup inv.crossing_nodup
  intro slot bid ask
  have first := (inv.mem_crossing.mp bid).2.1
  have second := (inv.mem_crossing.mp ask).2.1
  exact absurd (first.symm.trans second) (by decide)

/-- The resting volume follows what one order contributes to it. -/
theorem restingVolume_change (inv : ledger.Inv pending) (invNext : next.Inv other)
    (members : ∀ other, other ≠ slot → (next.Linked other ↔ ledger.Linked other))
    (same : ∀ other, ledger.Linked other → other ≠ slot → next.left other = ledger.left other) :
    next.restingVolume + (if ledger.Linked slot then ledger.left slot else 0) =
      ledger.restingVolume + (if next.Linked slot then next.left slot else 0) := by
  have changed := @sum_change Ptr _ ledger.resting next.resting ledger.left next.left slot inv.resting_nodup
    invNext.resting_nodup (by simpa only [inv.mem_resting, invNext.mem_resting] using members)
    (by simpa only [inv.mem_resting] using same)
  simp only [inv.mem_resting, invNext.mem_resting] at changed
  exact changed

/-- What rests, what is left of the incoming order and twice what was traded. -/
def account (ledger : Ledger) (incoming : Ptr) : Nat :=
  ledger.restingVolume + ledger.left incoming + 2 * ledger.traded

/-- A trade takes the same quantity from both orders. -/
theorem MatchStep.account_eq (step : MatchStep incoming ledger next) (inv : ledger.Inv (some incoming)) :
    next.account incoming = ledger.account incoming := by
  have invNext := step.inv inv
  cases step with
  | @trade resting rest crosses head =>
      have linked := (head_linked inv.toShelved head).1
      have volume := @restingVolume_change ledger (ledger.trade resting incoming) _ _ resting inv invNext
        (fun other different => by
          rw [trade_linked inv head]
          exact and_iff_left fun _ => different)
        (fun other here different => trade_left_other different
          ((inv.arrived rfl).ne here))
      have kept : (ledger.trade resting incoming).Linked resting ↔ ¬ ledger.left resting ≤ ledger.left incoming := by
        rw [trade_linked inv head]
        simp [linked]
      rw [if_pos linked, trade_left_resting inv head] at volume
      have traded : (ledger.trade resting incoming).traded =
          ledger.traded + min (ledger.left resting) (ledger.left incoming) := by
        unfold Ledger.traded
        rw [Ledger.trade, fill_fills, List.map_append, List.sum_append, List.map_singleton, List.sum_singleton,
          word_min_toNat]
        rfl
      unfold account
      rw [trade_left_incoming inv, traded]
      split at volume
      · next stays =>
          have more := kept.mp stays
          omega
      · next gone =>
          have all : ledger.left resting ≤ ledger.left incoming := not_not.mp (mt kept.mpr gone)
          omega
  | rescan valid empty =>
      unfold account restingVolume traded
      rw [rescan_fills]
      rfl

theorem MatchRun.account_eq (run : MatchRun incoming ledger next) (inv : ledger.Inv (some incoming)) :
    next.account incoming = ledger.account incoming := by
  induction run with
  | refl => rfl
  | tail earlier step ih => exact (step.account_eq (MatchRun.inv earlier inv)).trans ih

/-- An order that comes in brings its quantity. -/
theorem Inv.enroll_account (inv : ledger.Inv none) (free : ledger.free = slot :: rest)
    (inside : InTicks msg.price) (positive : 0 < msg.quantity) :
    (ledger.enroll slot rest msg).account slot =
      ledger.restingVolume + 2 * ledger.traded + msg.quantity.toNat := by
  have top : slot ∈ ledger.free := by simp [free]
  have unlinked : ¬ ledger.Linked slot := inv.fresh top
  have enrolled := inv.enroll free inside positive
  have volume := @restingVolume_change ledger (ledger.enroll slot rest msg) _ _ slot inv enrolled
    (fun other _ => inv.enroll_linked top rest msg)
    (fun other _ different => by
      rw [left, enroll_data_other _ _ _ different]
      rfl)
  have still : ¬ (ledger.enroll slot rest msg).Linked slot := (enrolled.arrived rfl).unlinked
  rw [if_neg unlinked, if_neg still] at volume
  have own : (ledger.enroll slot rest msg).left slot = msg.quantity.toNat := by
    rw [left, enroll_data_self, OrderData.remaining]
    simp
  unfold account traded
  rw [own, enroll_fills]
  omega

/-- An order that rests moves what is left of it to the resting volume. -/
theorem Inv.rest_volume (inv : ledger.Inv (some incoming)) (invNext : (ledger.rest incoming).Inv none) :
    (ledger.rest incoming).restingVolume = ledger.restingVolume + ledger.left incoming := by
  have unlinked := (inv.arrived rfl).unlinked
  have volume := @restingVolume_change ledger (ledger.rest incoming) _ _ incoming inv invNext
    (fun other different => by
      rw [rest_linked]
      exact or_iff_left different)
    (fun other _ _ => by
      rw [left, rest_data]
      rfl)
  have linked : (ledger.rest incoming).Linked incoming := by
    rw [rest_linked]
    exact .inr rfl
  have own : (ledger.rest incoming).left incoming = ledger.left incoming := by
    rw [left, rest_data]
    rfl
  rw [if_neg unlinked, if_pos linked, own, Nat.add_zero] at volume
  exact volume

/-- An add puts the quantity of its order on the book or trades it against as much. -/
theorem AddRun.volume_eq {placed : Option Ptr} (run : ledger.AddRun msg placed after) (inv : ledger.Inv none)
    (inside : InTicks msg.price) (positive : 0 < msg.quantity) :
    after.restingVolume + 2 * after.traded = ledger.restingVolume + 2 * ledger.traded +
      (if placed.isSome then msg.quantity.toNat else 0) := by
  cases run with
  | full free => simp
  | @filled slot rest after free run stopped tight done =>
      have enrolled := inv.enroll free inside positive
      have kept := run.account_eq enrolled
      have arrived := (run.inv enrolled).arrived rfl
      rw [inv.enroll_account free inside positive] at kept
      have nothing : after.left slot = 0 := by
        have filled := (unfilled_iff arrived.filledLe).not.mp (arrived.filled_iff.mp done)
        omega
      unfold account at kept
      rw [nothing] at kept
      simpa using kept
  | @rested slot rest matched free run stopped tight left =>
      have enrolled := inv.enroll free inside positive
      have kept := run.account_eq enrolled
      have before := run.inv enrolled
      have live := (before.arrived rfl).live_of_open left
      rw [inv.enroll_account free inside positive] at kept
      unfold account at kept
      have traded : (matched.rest slot).traded = matched.traded := by
        unfold Ledger.traded
        rw [rest_fills]
      rw [before.rest_volume (before.rest live), traded]
      simpa using kept

/-- A cancel takes what is left of its order off the book. -/
theorem Inv.withdraw_volume (inv : ledger.Inv none) (linked : ledger.Linked slot) :
    (ledger.withdraw slot).restingVolume + ledger.left slot = ledger.restingVolume ∧
      (ledger.withdraw slot).traded = ledger.traded := by
  constructor
  · have volume := @restingVolume_change ledger (ledger.withdraw slot) _ _ slot inv (inv.withdraw linked)
      (fun other different => by
        rw [withdraw_linked inv linked]
        exact and_iff_left different)
      (fun other _ different => by
        rw [left, withdraw_data, Function.update_of_ne different]
        rfl)
    have gone : ¬ (ledger.withdraw slot).Linked slot := by
      rw [withdraw_linked inv linked]
      simp
    rw [if_pos linked, if_neg gone, Nat.add_zero] at volume
    exact volume
  · unfold traded
    rw [withdraw_fills]

end Ledger

end OrderEngine
