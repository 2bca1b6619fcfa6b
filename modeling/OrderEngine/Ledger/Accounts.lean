import OrderEngine.Ledger.Replace
import OrderEngine.Ledger.Volume

namespace OrderEngine

open Library

/-- An order took part in a fill on either side. -/
def Fill.involves (fill : Fill) (slot : Ptr) : Bool := fill.resting = slot || fill.aggressor = slot

/-- The counters count the fills, and the callback received a report of each. -/
structure BookCore.Counted (core : BookCore) : Prop where
  matchCount : core.matchCount = UInt64.ofNat core.fills.length
  tradeVolume : core.tradeVolume = UInt64.ofNat (core.fills.map fun fill => fill.quantity.toNat).sum
  reported : core.tradeCb = true →
    core.reports.map TradeReport.quantity = core.fills.map Fill.quantity

theorem BookCore.Counted.congr {core other : BookCore} (counted : core.Counted) (fills : other.fills = core.fills)
    (reports : other.reports = core.reports) (matchCount : other.matchCount = core.matchCount)
    (tradeVolume : other.tradeVolume = core.tradeVolume) (tradeCb : other.tradeCb = core.tradeCb) :
    other.Counted where
  matchCount := by rw [matchCount, fills]; exact counted.matchCount
  tradeVolume := by rw [tradeVolume, fills]; exact counted.tradeVolume
  reported := by rw [tradeCb, reports, fills]; exact counted.reported

namespace Ledger

variable {ledger next after : Ledger} {incoming slot : Ptr} {others : List Ptr} {msg : OrderMessage} {since : Nat}

/-- The fills that an order took part in since it came in add up to its filled quantity. -/
structure Credited (ledger : Ledger) (since : Nat) (slot : Ptr) : Prop where
  started : since ≤ ledger.fills.length
  filled : (ledger.data slot).filledQuantity.toNat = (((ledger.fills.drop since).filter
    fun fill => fill.involves slot).map fun fill => fill.quantity.toNat).sum
  within : (ledger.data slot).filledQuantity ≤ (ledger.data slot).quantity

theorem Credited.congr (credited : ledger.Credited since slot) (fills : next.fills = ledger.fills)
    (filled : (next.data slot).filledQuantity = (ledger.data slot).filledQuantity)
    (within : (next.data slot).filledQuantity ≤ (next.data slot).quantity) : next.Credited since slot where
  started := by rw [fills]; exact credited.started
  filled := by rw [fills, filled]; exact credited.filled
  within := within

theorem MatchStep.counted (step : MatchStep incoming ledger next) (counted : ledger.Counted) : next.Counted := by
  cases step with
  | @trade resting rest crosses head =>
      constructor
      · rw [Ledger.trade, fill_matchCount, fill_fills, counted.matchCount, List.length_append]
        exact (UInt64.ofNat_add _ 1).symm
      · rw [Ledger.trade, fill_tradeVolume, fill_fills, counted.tradeVolume, List.map_append, List.sum_append,
          UInt64.ofNat_add, List.map_singleton, List.sum_singleton, UInt64.ofNat_toNat]
      · intro installed
        rw [Ledger.trade, fill_tradeCb] at installed
        rw [Ledger.trade, fill_reports, if_pos installed, fill_fills, List.map_append, List.map_append,
          counted.reported installed]
        rfl
  | rescan valid empty =>
      exact counted.congr (rescan_fills ..) (rescan_reports ..) (rescan_matchCount ..) (rescan_tradeVolume ..)
        (rescan_tradeCb ..)

/-- One more fill is credited to an order when the order took part in it. -/
theorem Credited.grow (credited : ledger.Credited since slot) {fill : Fill}
    (fills : next.fills = ledger.fills ++ [fill])
    (filled : (next.data slot).filledQuantity.toNat = (ledger.data slot).filledQuantity.toNat +
      (if fill.involves slot then fill.quantity.toNat else 0))
    (within : (next.data slot).filledQuantity ≤ (next.data slot).quantity) : next.Credited since slot where
  started := by
    rw [fills, List.length_append]
    exact Nat.le_add_right_of_le credited.started
  filled := by
    rw [filled, fills, List.drop_append_of_le_length credited.started, List.filter_append, List.map_append,
      List.sum_append, ← credited.filled]
    congr 1
    cases taken : fill.involves slot <;> simp [taken]
  within := within

/-- A fill that fits in both orders credits them and no other one. -/
theorem Credited.fill (credited : ledger.Credited since slot) {resting : Ptr} (different : resting ≠ incoming)
    {qty : Quantity} (restingFits : qty ≤ (ledger.data resting).remaining)
    (incomingFits : qty ≤ (ledger.data incoming).remaining) :
    (ledger.fill resting incoming qty).Credited since slot := by
  have part {data : OrderData} (same : ledger.data slot = data) (fits : qty ≤ data.remaining) :
      (data.filledBy qty).filledQuantity.toNat = (ledger.data slot).filledQuantity.toNat + qty.toNat ∧
        (data.filledBy qty).filledQuantity ≤ (data.filledBy qty).quantity := by
    subst same
    exact ⟨toNat_add_of_fits credited.within fits, add_le_of_fits credited.within fits⟩
  by_cases first : slot = resting
  · subst first
    have data := ledger.fill_data_resting qty different
    obtain ⟨filled, within⟩ := part rfl restingFits
    apply credited.grow (fill_fills ..)
    · rw [data, filled]
      simp [Fill.involves]
    · rw [data]
      exact within
  · by_cases second : slot = incoming
    · subst second
      have data := ledger.fill_data_aggressor resting slot qty
      obtain ⟨filled, within⟩ := part rfl incomingFits
      apply credited.grow (fill_fills ..)
      · rw [data, filled]
        simp [Fill.involves]
      · rw [data]
        exact within
    · have data := ledger.fill_data_other qty first second
      apply credited.grow (fill_fills ..)
      · rw [data]
        simp [Fill.involves, Ne.symm first, Ne.symm second]
      · rw [data]
        exact credited.within

theorem MatchStep.credited (step : MatchStep incoming ledger next) (inv : ledger.Inv (some incoming))
    (credited : ledger.Credited since slot) : next.Credited since slot := by
  cases step with
  | @trade resting rest crosses head =>
      have linked := (head_linked inv.toShelved head).1
      have different : resting ≠ incoming := (inv.arrived rfl).ne linked
      have fits := word_min_le (ledger.data resting).remaining (ledger.data incoming).remaining
      exact credited.fill different fits.1 fits.2
  | rescan valid empty => exact credited.congr (rescan_fills ..) rfl credited.within

theorem MatchRun.counted (run : MatchRun incoming ledger next) (counted : ledger.Counted) : next.Counted := by
  induction run with
  | refl => exact counted
  | tail _ step ih => exact step.counted ih

theorem MatchRun.credited (run : MatchRun incoming ledger next) (inv : ledger.Inv (some incoming))
    (credited : ledger.Credited since slot) : next.Credited since slot := by
  induction run with
  | refl => exact credited
  | tail earlier step ih => exact step.credited (MatchRun.inv earlier inv) ih

theorem Credited.rest (credited : ledger.Credited since slot) : (ledger.rest incoming).Credited since slot := by
  have data := ledger.rest_data incoming
  apply credited.congr (rest_fills ..)
  · rw [data]
  · rw [data]
    exact credited.within

theorem Counted.rest (counted : ledger.Counted) : (ledger.rest incoming).Counted :=
  counted.congr (rest_fills ..) (rest_reports ..) (rest_matchCount ..) (rest_tradeVolume ..) (rest_tradeCb ..)

section Ticked

theorem Counted.ticked (counted : ledger.Counted) : ledger.ticked.Counted := counted.congr rfl rfl rfl rfl rfl

theorem Credited.ticked (credited : ledger.Credited since slot) : ledger.ticked.Credited since slot :=
  credited.congr rfl rfl credited.within

theorem ticked_restingVolume : ledger.ticked.restingVolume = ledger.restingVolume := rfl

theorem ticked_traded : ledger.ticked.traded = ledger.traded := rfl

end Ticked

/-- An order that comes in has no fill to its credit. -/
theorem enroll_credited : (ledger.enroll slot others msg).Credited ledger.fills.length slot where
  started := Nat.le_refl _
  filled := by
    rw [enroll_data_self, enroll_fills, List.drop_length]
    rfl
  within := by
    rw [enroll_data_self]
    exact UInt64.zero_le

theorem Credited.enroll (credited : ledger.Credited since slot) (different : slot ≠ incoming) :
    (ledger.enroll incoming others msg).Credited since slot := by
  have data := ledger.enroll_data_other others msg different
  apply credited.congr (enroll_fills ..)
  · rw [data]
  · rw [data]
    exact credited.within

/-- The order of an add starts without credit, and every other order keeps its own. -/
structure Booked (ledger : Ledger) (credit cancelled : Int) (placed : Option Ptr) (after : Ledger) : Prop where
  balance : (after.restingVolume + 2 * after.traded : Int) + cancelled =
    ledger.restingVolume + 2 * ledger.traded + credit
  tradeCb : after.tradeCb = ledger.tradeCb
  counted : ledger.Counted → after.Counted
  born : ∀ slot, placed = some slot → after.Credited ledger.fills.length slot
  kept : ∀ since slot, placed ≠ some slot → ledger.Credited since slot → after.Credited since slot

/-- A call that fails changes nothing. -/
theorem Booked.refl : ledger.Booked 0 0 none ledger where
  balance := by omega
  tradeCb := rfl
  counted := id
  born := fun slot none_ => absurd none_.symm (Option.some_ne_none slot)
  kept := fun _ _ _ credited => credited

theorem AddRun.booked {placed : Option Ptr} (run : ledger.AddRun msg placed after) (inv : ledger.Inv none)
    (inside : InTicks msg.price) (positive : 0 < msg.quantity) :
    ledger.Booked (if placed.isSome then msg.quantity.toNat else 0) 0 placed after := by
  have volume := run.volume_eq inv inside positive
  have balance : (after.restingVolume + 2 * after.traded : Int) + 0 = ledger.restingVolume + 2 * ledger.traded +
      (if placed.isSome then (msg.quantity.toNat : Int) else 0) := by
    rw [add_zero]
    exact_mod_cast volume
  cases run with
  | full free => exact .refl
  | @filled slot rest after free run stopped tight done =>
      have enrolled := inv.enroll free inside positive
      constructor
      · exact balance
      · exact run.tradeCb
      · exact fun counted => run.counted (counted.congr rfl rfl rfl rfl rfl)
      · intro own here
        obtain rfl := Option.some.inj here
        exact run.credited enrolled enroll_credited
      · intro since other different credited
        exact run.credited enrolled (credited.enroll fun same => different (congrArg some same.symm))
  | @rested slot rest matched free run stopped tight left =>
      have enrolled := inv.enroll free inside positive
      constructor
      · exact balance
      · exact (rest_tradeCb ..).trans run.tradeCb
      · exact fun counted => Counted.rest (run.counted (counted.congr rfl rfl rfl rfl rfl))
      · intro own here
        obtain rfl := Option.some.inj here
        exact (run.credited enrolled enroll_credited).rest
      · intro since other different credited
        apply Credited.rest
        exact run.credited enrolled (credited.enroll fun same => different (congrArg some same.symm))

/-- A cancel gives up what is left of its order. -/
theorem Inv.withdraw_booked (inv : ledger.Inv none) (linked : ledger.Linked slot) :
    ledger.Booked 0 (ledger.left slot) none (ledger.withdraw slot) where
  balance := by
    obtain ⟨volume, traded⟩ := inv.withdraw_volume linked
    rw [traded, add_zero]
    omega
  tradeCb := withdraw_tradeCb ..
  counted := fun counted => counted.congr (withdraw_fills ..) (withdraw_reports ..) (withdraw_matchCount ..)
    (withdraw_tradeVolume ..) (withdraw_tradeCb ..)
  born := fun slot none_ => absurd none_.symm (Option.some_ne_none slot)
  kept := fun since other _ credited => by
    have filled : ((ledger.withdraw slot).data other).filledQuantity = (ledger.data other).filledQuantity := by
      rw [withdraw_data]
      exact update_field OrderData.filledQuantity ledger.data (by rfl) other
    have quantity : ((ledger.withdraw slot).data other).quantity = (ledger.data other).quantity := by
      rw [withdraw_data]
      exact update_field OrderData.quantity ledger.data (by rfl) other
    apply credited.congr (withdraw_fills ..) filled
    rw [filled, quantity]
    exact credited.within

/-- A smaller quantity changes what is left of one order. -/
theorem Inv.shrink_booked (inv : ledger.Inv none) (linked : ledger.Linked slot) {newQty : Quantity}
    (fits : newQty ≤ (ledger.data slot).remaining) :
    ledger.Booked (newQty.toNat - ledger.left slot) 0 none (ledger.shrink slot newQty) where
  balance := by
    have volume := @restingVolume_change ledger (ledger.shrink slot newQty) _ _ slot inv (inv.shrink linked fits)
      (fun other _ => shrink_linked)
      (fun other _ different => by
        rw [left, shrink_data, Function.update_of_ne different]
        rfl)
    have own : (ledger.shrink slot newQty).left slot = newQty.toNat := by
      rw [left, shrink_data, Function.update_self, OrderData.remaining]
      have total := toNat_add_of_fits (inv.filledLe linked) fits
      have inside := le_add_of_fits (inv.filledLe linked) fits
      rw [UInt64.toNat_sub_of_le _ _ inside, total]
      omega
    have traded : (ledger.shrink slot newQty).traded = ledger.traded := rfl
    rw [if_pos linked, if_pos (shrink_linked.mpr linked), own] at volume
    rw [traded, add_zero]
    omega
  tradeCb := rfl
  counted := fun counted => counted.congr rfl rfl rfl rfl rfl
  born := fun slot none_ => absurd none_.symm (Option.some_ne_none slot)
  kept := fun since other _ credited => by
    have filled : ((ledger.shrink slot newQty).data other).filledQuantity =
        (ledger.data other).filledQuantity := by
      rw [shrink_data]
      exact update_field OrderData.filledQuantity ledger.data (by rfl) other
    apply credited.congr (by rfl) filled
    by_cases here : other = slot
    · subst here
      rw [shrink_data, Function.update_self]
      exact le_add_of_fits (inv.filledLe linked) fits
    · rw [shrink_data, Function.update_of_ne here]
      exact credited.within

/-- A larger quantity gives up the order and books it again. -/
theorem Settled.replace_booked (settled : ledger.Settled) (linked : ledger.Linked slot) {id : OrderId}
    {newQty : Quantity} {placed : Option Ptr} (larger : ¬ newQty ≤ (ledger.data slot).remaining)
    (run : (ledger.withdraw slot).ticked.AddRun ((ledger.withdraw slot).replacement slot id newQty)
      placed after) : ledger.Booked (newQty.toNat - ledger.left slot) 0 placed after := by
  obtain ⟨side, inside, positive⟩ := settled.replacement_admissible linked larger
  have withdrawn := settled.toInv.withdraw_booked linked
  have added := run.booked (settled.toInv.withdraw linked).ticked inside positive
  have served := (settled.replace_eq linked run).1
  have fills : (ledger.withdraw slot).ticked.fills = ledger.fills := ledger.withdraw_fills slot
  constructor
  · have first := withdrawn.balance
    have second := added.balance
    have wanted : ((ledger.withdraw slot).replacement slot id newQty).quantity = newQty := rfl
    rw [served, ticked_restingVolume, ticked_traded, wanted] at second
    simp only [Option.isSome_some, if_true] at second
    omega
  · exact added.tradeCb.trans withdrawn.tradeCb
  · exact fun counted => added.counted (Counted.ticked (withdrawn.counted counted))
  · intro own here
    rw [← fills]
    exact added.born own here
  · intro since other different credited
    apply added.kept since other different
    exact (withdrawn.kept since other (Option.some_ne_none other).symm credited).ticked

end Ledger

end OrderEngine
