import OrderEngine.Ledger.Accounts

namespace OrderEngine

open Library

/-- A report deals its quantity to the buyer and to the seller that it names. -/
def TradeReport.dealt (id : OrderId) (report : TradeReport) : Nat :=
  (if report.buyOrderId = id then report.quantity.toNat else 0) +
    if report.sellOrderId = id then report.quantity.toNat else 0

namespace Ledger

variable {ledger next after : Ledger} {pending other : Option Ptr} {incoming slot : Ptr} {rest : List Ptr}
  {msg : OrderMessage} {id : OrderId}

/-- This is what is left of an order of the identifier. -/
def owned (ledger : Ledger) (id : OrderId) (slot : Ptr) : Nat :=
  if (ledger.data slot).id = id then ledger.left slot else 0

def held (ledger : Ledger) (id : OrderId) : Nat := (ledger.resting.map (ledger.owned id)).sum

def dealt (ledger : Ledger) (id : OrderId) : Nat := (ledger.reports.map (TradeReport.dealt id)).sum

/-- What an identifier holds follows what one order contributes to it. -/
theorem held_change (inv : ledger.Inv pending) (invNext : next.Inv other)
    (members : ∀ other, other ≠ slot → (next.Linked other ↔ ledger.Linked other))
    (same : ∀ other, ledger.Linked other → other ≠ slot → next.owned id other = ledger.owned id other) :
    next.held id + (if ledger.Linked slot then ledger.owned id slot else 0) =
      ledger.held id + (if next.Linked slot then next.owned id slot else 0) := by
  have changed := @sum_change Ptr _ ledger.resting next.resting (ledger.owned id) (next.owned id) slot
    inv.resting_nodup invNext.resting_nodup (by simpa only [inv.mem_resting, invNext.mem_resting] using members)
    (by simpa only [inv.mem_resting] using same)
  simp only [inv.mem_resting, invNext.mem_resting] at changed
  exact changed

/-- What an identifier holds, what is left of the incoming order when it is its own, and what was dealt to it. -/
def standing (ledger : Ledger) (id : OrderId) (incoming : Ptr) : Nat :=
  ledger.held id + ledger.owned id incoming + ledger.dealt id

/-- One of the two identifiers of a trade is that of the resting order, and the other one is the incoming order's. -/
theorem tradeReport_dealt (core : BookCore) (resting aggressor : OrderData) (qty : Quantity) (id : OrderId) :
    (core.tradeReport resting aggressor qty).dealt id =
      (if resting.id = id then qty.toNat else 0) + if aggressor.id = id then qty.toNat else 0 := by
  unfold TradeReport.dealt BookCore.tradeReport
  by_cases buy : resting.side = Side.buy
  · simp only [buy, if_true]
  · simp only [buy, if_false]
    omega

/-- A trade takes from both orders what its report deals to them. -/
theorem MatchStep.standing_eq (step : MatchStep incoming ledger next) (inv : ledger.Inv (some incoming))
    (installed : ledger.tradeCb = true) (id : OrderId) : next.standing id incoming = ledger.standing id incoming := by
  have invNext := step.inv inv
  have named (slot : Ptr) := (step.same_order slot).1
  cases step with
  | @trade resting rest crosses head =>
      have linked := (head_linked inv.toShelved head).1
      have held := @held_change ledger (ledger.trade resting incoming) _ _ resting id inv invNext
        (fun other different => by
          rw [trade_linked inv head]
          exact and_iff_left fun _ => different)
        (fun other here different => by
          rw [owned, owned, named, trade_left_other different ((inv.arrived rfl).ne here)])
      have kept : (ledger.trade resting incoming).Linked resting ↔ ¬ ledger.left resting ≤ ledger.left incoming := by
        rw [trade_linked inv head]
        simp [linked]
      have dealt : (ledger.trade resting incoming).dealt id = ledger.dealt id +
          ((if (ledger.data resting).id = id then min (ledger.left resting) (ledger.left incoming) else 0) +
            if (ledger.data incoming).id = id then min (ledger.left resting) (ledger.left incoming) else 0) := by
        unfold Ledger.dealt
        rw [Ledger.trade, fill_reports, if_pos installed, List.map_append, List.sum_append, List.map_singleton,
          List.sum_singleton, tradeReport_dealt, word_min_toNat]
        rfl
      have own : (ledger.trade resting incoming).owned id incoming =
          if (ledger.data incoming).id = id then ledger.left incoming - ledger.left resting else 0 := by
        rw [owned, named, trade_left_incoming inv]
      have his : (ledger.trade resting incoming).owned id resting =
          if (ledger.data resting).id = id then ledger.left resting - ledger.left incoming else 0 := by
        rw [owned, named, trade_left_resting inv head]
      rw [if_pos linked, his] at held
      simp only [kept] at held
      unfold standing
      rw [own, dealt]
      unfold owned at held ⊢
      by_cases mine : (ledger.data resting).id = id
      · simp only [mine, if_true] at held ⊢
        by_cases also : (ledger.data incoming).id = id
        · simp only [also, if_true]
          split at held <;> omega
        · simp only [also, if_false]
          split at held <;> omega
      · simp only [mine, if_false] at held ⊢
        by_cases also : (ledger.data incoming).id = id
        · simp only [also, if_true]
          split at held <;> omega
        · simp only [also, if_false]
          split at held <;> omega
  | rescan valid empty =>
      unfold standing held dealt
      rw [rescan_reports]
      rfl

theorem MatchRun.standing_eq (run : MatchRun incoming ledger next) (inv : ledger.Inv (some incoming))
    (installed : ledger.tradeCb = true) (id : OrderId) : next.standing id incoming = ledger.standing id incoming := by
  induction run with
  | refl => rfl
  | tail earlier step ih =>
      have callback := (MatchRun.tradeCb earlier).trans installed
      exact (step.standing_eq (MatchRun.inv earlier inv) callback id).trans ih

/-- An order that comes in brings its quantity to its own identifier. -/
theorem Inv.enroll_standing (inv : ledger.Inv none) (free : ledger.free = slot :: rest) (inside : InTicks msg.price)
    (positive : 0 < msg.quantity) (id : OrderId) : (ledger.enroll slot rest msg).standing id slot =
      ledger.held id + ledger.dealt id + if msg.orderId = id then msg.quantity.toNat else 0 := by
  have top : slot ∈ ledger.free := by simp [free]
  have unlinked : ¬ ledger.Linked slot := inv.fresh top
  have enrolled := inv.enroll free inside positive
  have held := @held_change ledger (ledger.enroll slot rest msg) _ _ slot id inv enrolled
    (fun other _ => inv.enroll_linked top rest msg)
    (fun other _ different => by
      rw [owned, owned, left, enroll_data_other _ _ _ different]
      rfl)
  have still : ¬ (ledger.enroll slot rest msg).Linked slot := (enrolled.arrived rfl).unlinked
  rw [if_neg unlinked, if_neg still] at held
  have own : (ledger.enroll slot rest msg).owned id slot = if msg.orderId = id then msg.quantity.toNat else 0 := by
    rw [owned, left, enroll_data_self, OrderData.remaining]
    simp
  have dealt : (ledger.enroll slot rest msg).dealt id = ledger.dealt id := rfl
  unfold standing
  rw [own, dealt]
  omega

/-- An order that rests is held by its identifier. -/
theorem Inv.rest_held (inv : ledger.Inv (some incoming)) (invNext : (ledger.rest incoming).Inv none) (id : OrderId) :
    (ledger.rest incoming).held id = ledger.held id + ledger.owned id incoming := by
  have unlinked := (inv.arrived rfl).unlinked
  have same (slot : Ptr) : (ledger.rest incoming).owned id slot = ledger.owned id slot := by
    rw [owned, owned, left, rest_data]
    rfl
  have held := @held_change ledger (ledger.rest incoming) _ _ incoming id inv invNext
    (fun other different => by
      rw [rest_linked]
      exact or_iff_left different)
    (fun other _ _ => same other)
  have linked : (ledger.rest incoming).Linked incoming := by
    rw [rest_linked]
    exact .inr rfl
  rw [if_neg unlinked, if_pos linked, same, Nat.add_zero] at held
  exact held

/-- What the identifiers hold and what was dealt to them changes by what each of them brings and takes away. -/
def Stated (ledger : Ledger) (id : OrderId) (credit cancelled : Int) (after : Ledger) : Prop :=
  (after.held id + after.dealt id : Int) + cancelled = ledger.held id + ledger.dealt id + credit

/-- An add brings its quantity to its own identifier. -/
theorem AddRun.stated {placed : Option Ptr} (run : ledger.AddRun msg placed after) (inv : ledger.Inv none)
    (inside : InTicks msg.price) (positive : 0 < msg.quantity) (installed : ledger.tradeCb = true) (id : OrderId) :
    ledger.Stated id (if msg.orderId = id then (if placed.isSome then msg.quantity.toNat else 0) else 0) 0 after := by
  unfold Stated
  cases run with
  | full free =>
      simp only [Option.isSome_none, Bool.false_eq_true, if_false, ite_self]
  | @filled slot rest after free run stopped tight done =>
      have enrolled := inv.enroll free inside positive
      have kept := run.standing_eq enrolled installed id
      have arrived := (run.inv enrolled).arrived rfl
      rw [inv.enroll_standing free inside positive] at kept
      have nothing : after.owned id slot = 0 := by
        have filled := (unfilled_iff arrived.filledLe).not.mp (arrived.filled_iff.mp done)
        unfold owned
        split <;> omega
      unfold standing at kept
      simp only [nothing, Option.isSome_some, if_true] at kept ⊢
      by_cases mine : msg.orderId = id
      · rw [if_pos mine] at kept ⊢
        omega
      · rw [if_neg mine] at kept ⊢
        omega
  | @rested slot rest matched free run stopped tight left =>
      have enrolled := inv.enroll free inside positive
      have kept := run.standing_eq enrolled installed id
      have before := run.inv enrolled
      have live := (before.arrived rfl).live_of_open left
      rw [inv.enroll_standing free inside positive] at kept
      have dealt : (matched.rest slot).dealt id = matched.dealt id := by
        unfold Ledger.dealt
        rw [rest_reports]
      have held := before.rest_held (before.rest live) id
      unfold standing at kept
      simp only [held, dealt, Option.isSome_some, if_true]
      by_cases mine : msg.orderId = id
      · rw [if_pos mine] at kept ⊢
        omega
      · rw [if_neg mine] at kept ⊢
        omega

/-- A cancel takes what is left of its order from its identifier. -/
theorem Inv.withdraw_stated (inv : ledger.Inv none) (linked : ledger.Linked slot) (id : OrderId) :
    ledger.Stated id 0 (ledger.owned id slot) (ledger.withdraw slot) := by
  have held := @held_change ledger (ledger.withdraw slot) _ _ slot id inv (inv.withdraw linked)
    (fun other different => by
      rw [withdraw_linked inv linked]
      exact and_iff_left different)
    (fun other _ different => by
      rw [owned, owned, left, withdraw_data, Function.update_of_ne different]
      rfl)
  have gone : ¬ (ledger.withdraw slot).Linked slot := by
    rw [withdraw_linked inv linked]
    simp
  rw [if_pos linked, if_neg gone, Nat.add_zero] at held
  have dealt : (ledger.withdraw slot).dealt id = ledger.dealt id := by
    unfold Ledger.dealt
    rw [withdraw_reports]
  unfold Stated
  rw [dealt]
  omega

/-- A smaller quantity changes what is left of the order of one identifier. -/
theorem Inv.shrink_stated (inv : ledger.Inv none) (linked : ledger.Linked slot) {newQty : Quantity}
    (fits : newQty ≤ (ledger.data slot).remaining) (id : OrderId) : ledger.Stated id
      (if (ledger.data slot).id = id then newQty.toNat - ledger.left slot else 0) 0 (ledger.shrink slot newQty) := by
  have held := @held_change ledger (ledger.shrink slot newQty) _ _ slot id inv (inv.shrink linked fits)
    (fun other _ => shrink_linked)
    (fun other _ different => by
      rw [owned, owned, left, shrink_data, Function.update_of_ne different]
      rfl)
  have own : (ledger.shrink slot newQty).owned id slot = if (ledger.data slot).id = id then newQty.toNat else 0 := by
    rw [owned, shrink_id, left, shrink_data, Function.update_self, OrderData.remaining]
    have total := toNat_add_of_fits (inv.filledLe linked) fits
    have inside := le_add_of_fits (inv.filledLe linked) fits
    rw [UInt64.toNat_sub_of_le _ _ inside, total, Nat.add_sub_cancel_left]
  have dealt : (ledger.shrink slot newQty).dealt id = ledger.dealt id := rfl
  rw [if_pos linked, if_pos (shrink_linked.mpr linked), own, owned] at held
  unfold Stated
  rw [dealt]
  by_cases mine : (ledger.data slot).id = id
  · rw [if_pos mine, if_pos mine] at held
    rw [if_pos mine]
    omega
  · rw [if_neg mine, if_neg mine] at held
    rw [if_neg mine]
    omega

/-- A larger quantity gives up the order and brings it again under the same identifier. -/
theorem Settled.replace_stated (settled : ledger.Settled) (linked : ledger.Linked slot) {newQty : Quantity}
    {placed : Option Ptr} (larger : ¬ newQty ≤ (ledger.data slot).remaining)
    (run : (ledger.withdraw slot).ticked.AddRun
      ((ledger.withdraw slot).replacement slot (ledger.data slot).id newQty) placed after)
    (installed : ledger.tradeCb = true) (id : OrderId) : ledger.Stated id
      (if (ledger.data slot).id = id then newQty.toNat - ledger.left slot else 0) 0 after := by
  obtain ⟨side, inside, positive⟩ := settled.replacement_admissible linked larger
  have withdrawn := settled.toInv.withdraw_stated linked id
  have callback : (ledger.withdraw slot).ticked.tradeCb = true := (withdraw_tradeCb ..).trans installed
  have added := run.stated (settled.toInv.withdraw linked).ticked inside positive callback id
  have served := (settled.replace_eq linked run).1
  have held : (ledger.withdraw slot).ticked.held id = (ledger.withdraw slot).held id := rfl
  have dealt : (ledger.withdraw slot).ticked.dealt id = (ledger.withdraw slot).dealt id := rfl
  have wanted : ((ledger.withdraw slot).replacement slot (ledger.data slot).id newQty).quantity = newQty := rfl
  have named : ((ledger.withdraw slot).replacement slot (ledger.data slot).id newQty).orderId =
      (ledger.data slot).id := rfl
  unfold Stated owned at withdrawn
  unfold Stated at added ⊢
  rw [served, held, dealt, wanted, named] at added
  simp only [Option.isSome_some, if_true] at added
  by_cases mine : (ledger.data slot).id = id
  · rw [if_pos mine] at withdrawn added ⊢
    omega
  · rw [if_neg mine] at withdrawn added ⊢
    omega

end Ledger

end OrderEngine
