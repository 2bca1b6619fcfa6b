import OrderEngine.Construction.Calls
import OrderEngine.Ledger.Matching

namespace OrderEngine

open Library

namespace Ledger

/-- A modify that asks for more sends the order again under its own identifier. -/
def replacement (ledger : Ledger) (slot : Ptr) (id : OrderId) (newQty : Quantity) : OrderMessage :=
  { action := .add
    side := (ledger.data slot).side
    orderId := id
    price := ledger.price slot
    quantity := newQty
    arrivalCycles := ledger.rdtsc }

def ticked (ledger : Ledger) : Ledger := { ledger with toBookCore := ledger.tick }

/-- Each call of the book has one of these effects on the ledger. -/
inductive CallRun (ledger : Ledger) : Call → Bool → Ledger → Prop where
  | add {msg : OrderMessage} {placed : Option Ptr} {after : Ledger}
      (run : ledger.AddRun msg placed after) : CallRun ledger (.add msg) placed.isSome after
  | cancelMissing {id : OrderId} (missing : ledger.findLive id = none) :
      CallRun ledger (.cancel id) false ledger
  | cancel {id : OrderId} {slot : Ptr} (found : ledger.findLive id = some slot) :
      CallRun ledger (.cancel id) true (ledger.withdraw slot)
  | modifyMissing {id : OrderId} {newQty : Quantity} (missing : ledger.findLive id = none) :
      CallRun ledger (.modify id newQty) false ledger
  | shrink {id : OrderId} {newQty : Quantity} {slot : Ptr} (found : ledger.findLive id = some slot)
      (fits : newQty ≤ (ledger.data slot).remaining) :
      CallRun ledger (.modify id newQty) true (ledger.shrink slot newQty)
  | replace {id : OrderId} {newQty : Quantity} {slot : Ptr} {placed : Option Ptr} {after : Ledger}
      (found : ledger.findLive id = some slot) (larger : ¬ newQty ≤ (ledger.data slot).remaining)
      (run : (ledger.withdraw slot).ticked.AddRun
        ((ledger.withdraw slot).replacement slot id newQty) placed after) :
      CallRun ledger (.modify id newQty) placed.isSome after

section Ticked

variable (ledger : Ledger)

@[simp] theorem ticked_data : ledger.ticked.data = ledger.data := rfl

@[simp] theorem ticked_queue : ledger.ticked.queue = ledger.queue := rfl

@[simp] theorem ticked_total : ledger.ticked.total = ledger.total := rfl

@[simp] theorem ticked_best (wing : Wing) : ledger.ticked.best wing = ledger.best wing := by
  cases wing <;> rfl

@[simp] theorem ticked_reports : ledger.ticked.reports = ledger.reports := rfl

@[simp] theorem ticked_fills : ledger.ticked.fills = ledger.fills := rfl

@[simp] theorem ticked_matchCount : ledger.ticked.matchCount = ledger.matchCount := rfl

@[simp] theorem ticked_tradeVolume : ledger.ticked.tradeVolume = ledger.tradeVolume := rfl

@[simp] theorem ticked_free : ledger.ticked.free = ledger.free := rfl

@[simp] theorem ticked_wing (slot : Ptr) : ledger.ticked.wing slot = ledger.wing slot := rfl

@[simp] theorem ticked_price (slot : Ptr) : ledger.ticked.price slot = ledger.price slot := rfl

variable {ledger} {pending : Option Ptr} {slot : Ptr}

theorem ticked_linked : ledger.ticked.Linked slot ↔ ledger.Linked slot := Iff.rfl

/-- A reading of the clock matters to no order. -/
theorem Inv.ticked (inv : ledger.Inv pending) : ledger.ticked.Inv pending :=
  inv.congr rfl rfl rfl rfl (fun _ => rfl) rfl rfl

end Ticked

variable {ledger : Ledger} {slot : Ptr} {id : OrderId}

/-- A lookup that succeeds finds a live order of the requested identifier in the map. -/
theorem findLive_eq_some : ledger.findLive id = some slot ↔
    ledger.orderMap (mapSlot id) = some slot ∧ (ledger.data slot).id = id ∧ (ledger.data slot).live := by
  unfold findLive
  cases mapped : ledger.orderMap (mapSlot id) with
  | none => simp
  | some found =>
      simp only [Option.some.injEq]
      constructor
      · intro result
        split at result
        · next here =>
            obtain rfl : found = slot := Option.some.inj result
            exact ⟨rfl, here⟩
        · exact absurd result (by simp)
      · rintro ⟨rfl, here⟩
        exact if_pos here

theorem Inv.found_linked (inv : ledger.Inv none) (found : ledger.findLive id = some slot) :
    ledger.Linked slot ∧ (ledger.data slot).id = id := by
  obtain ⟨mapped, named, live⟩ := findLive_eq_some.mp found
  exact ⟨inv.linked_of_found mapped live, named⟩

namespace CallRun

variable {after : Ledger} {newQty : Quantity} {answer : Bool}

/-- A modify that finds nothing changes nothing. -/
theorem modify_missing (run : ledger.CallRun (.modify id newQty) answer after)
    (missing : ledger.findLive id = none) : answer = false ∧ after = ledger := by
  cases run with
  | modifyMissing => exact ⟨rfl, rfl⟩
  | shrink found => exact absurd (missing.symm.trans found) (Option.some_ne_none _).symm
  | replace found => exact absurd (missing.symm.trans found) (Option.some_ne_none _).symm

theorem modify_shrinks (run : ledger.CallRun (.modify id newQty) answer after)
    (found : ledger.findLive id = some slot) (fits : newQty ≤ (ledger.data slot).remaining) :
    answer = true ∧ after = ledger.shrink slot newQty := by
  cases run with
  | modifyMissing missing => exact absurd (missing.symm.trans found) (Option.some_ne_none _).symm
  | shrink own =>
      obtain rfl := Option.some.inj (found.symm.trans own)
      exact ⟨rfl, rfl⟩
  | replace own larger =>
      obtain rfl := Option.some.inj (found.symm.trans own)
      exact absurd fits larger

/-- A modify that asks for more adds the order that it finds again. -/
theorem modify_replaces (run : ledger.CallRun (.modify id newQty) answer after)
    (found : ledger.findLive id = some slot) (larger : ¬ newQty ≤ (ledger.data slot).remaining) :
    ∃ placed, answer = placed.isSome ∧ (ledger.withdraw slot).ticked.AddRun
      ((ledger.withdraw slot).replacement slot id newQty) placed after := by
  cases run with
  | modifyMissing missing => exact absurd (missing.symm.trans found) (Option.some_ne_none _).symm
  | shrink own fits =>
      obtain rfl := Option.some.inj (found.symm.trans own)
      exact absurd fits larger
  | replace own _ run =>
      obtain rfl := Option.some.inj (found.symm.trans own)
      exact ⟨_, rfl, run⟩

end CallRun

section Withdraw

variable (ledger slot)

theorem shrink_data (newQty : Quantity) : (ledger.shrink slot newQty).data =
    Function.update ledger.data slot { ledger.data slot with
      quantity := (ledger.data slot).filledQuantity + newQty } := rfl

theorem withdraw_cases (Holds : Ledger → Prop) (kept : Holds (ledger.expunge slot))
    (scanned : Holds ((ledger.expunge slot).rescan (ledger.wing slot))) : Holds (ledger.withdraw slot) := by
  rw [withdraw_eq]
  split
  · exact scanned
  · exact kept

@[simp] theorem withdraw_data : (ledger.withdraw slot).data =
    Function.update ledger.data slot { ledger.data slot with status := .cancelled } :=
  ledger.withdraw_cases slot (fun after => after.data = _) rfl rfl

@[simp] theorem withdraw_queue : (ledger.withdraw slot).queue = setCell ledger.queue (ledger.wing slot)
    (ledger.price slot) ((ledger.queue (ledger.wing slot) (ledger.price slot)).erase slot) :=
  ledger.withdraw_cases slot (fun after => after.queue = _) rfl rfl

@[simp] theorem withdraw_total : (ledger.withdraw slot).total = setCell ledger.total (ledger.wing slot)
    (ledger.price slot) (ledger.total (ledger.wing slot) (ledger.price slot) -
      (ledger.data slot).remaining) :=
  ledger.withdraw_cases slot (fun after => after.total = _) rfl rfl

@[simp] theorem withdraw_free : (ledger.withdraw slot).free = slot :: ledger.free :=
  ledger.withdraw_cases slot (fun after => after.free = _) rfl rfl

@[simp] theorem withdraw_released : (ledger.withdraw slot).released = ledger.released ++ [(slot, ledger.free)] :=
  ledger.withdraw_cases slot (fun after => after.released = _) rfl (rescan_released ..)

@[simp] theorem withdraw_orderMap : (ledger.withdraw slot).orderMap =
    Function.update ledger.orderMap (mapSlot (ledger.data slot).id) none :=
  ledger.withdraw_cases slot (fun after => after.orderMap = _) rfl (rescan_orderMap ..)

@[simp] theorem withdraw_reports : (ledger.withdraw slot).reports = ledger.reports :=
  ledger.withdraw_cases slot (fun after => after.reports = _) rfl (rescan_reports ..)

@[simp] theorem withdraw_fills : (ledger.withdraw slot).fills = ledger.fills :=
  ledger.withdraw_cases slot (fun after => after.fills = _) rfl (rescan_fills ..)

@[simp] theorem withdraw_matchCount : (ledger.withdraw slot).matchCount = ledger.matchCount :=
  ledger.withdraw_cases slot (fun after => after.matchCount = _) rfl (rescan_matchCount ..)

@[simp] theorem withdraw_tradeVolume : (ledger.withdraw slot).tradeVolume = ledger.tradeVolume :=
  ledger.withdraw_cases slot (fun after => after.tradeVolume = _) rfl (rescan_tradeVolume ..)

@[simp] theorem withdraw_tradeCb : (ledger.withdraw slot).tradeCb = ledger.tradeCb :=
  ledger.withdraw_cases slot (fun after => after.tradeCb = _) rfl (rescan_tradeCb ..)

variable {ledger slot}

/-- A cancelled order keeps its side and its price, which the replacement copies. -/
theorem withdraw_side (other : Ptr) :
    ((ledger.withdraw slot).data other).side = (ledger.data other).side := by
  rw [withdraw_data]
  exact update_field OrderData.side ledger.data (by rfl) other

theorem withdraw_id (other : Ptr) : ((ledger.withdraw slot).data other).id = (ledger.data other).id := by
  rw [withdraw_data]
  exact update_field OrderData.id ledger.data (by rfl) other

theorem withdraw_wing (other : Ptr) : (ledger.withdraw slot).wing other = ledger.wing other :=
  congrArg Side.wing (withdraw_side other)

theorem withdraw_price (other : Ptr) : (ledger.withdraw slot).price other = ledger.price other := by
  rw [price, withdraw_data]
  exact update_field OrderData.price ledger.data (by rfl) other

/-- The replacement goes back to the level of the order it replaces. -/
theorem replacement_wing {newQty : Quantity} :
    ((ledger.withdraw slot).replacement slot id newQty).side.wing = ledger.wing slot :=
  withdraw_wing slot

theorem replacement_price {newQty : Quantity} :
    ((ledger.withdraw slot).replacement slot id newQty).price = ledger.price slot :=
  withdraw_price slot

/-- A cancelled order leaves its queue, and every other order stays. -/
theorem withdraw_linked (inv : ledger.Inv none) (linked : ledger.Linked slot) {other : Ptr} :
    (ledger.withdraw slot).Linked other ↔ ledger.Linked other ∧ other ≠ slot := by
  rw [Linked, withdraw_wing, withdraw_price, withdraw_queue, inv.mem_erase linked]
  rfl

theorem shrink_side {newQty : Quantity} (other : Ptr) :
    ((ledger.shrink slot newQty).data other).side = (ledger.data other).side := by
  rw [shrink_data]
  exact update_field OrderData.side ledger.data (by rfl) other

theorem shrink_id {newQty : Quantity} (other : Ptr) :
    ((ledger.shrink slot newQty).data other).id = (ledger.data other).id := by
  rw [shrink_data]
  exact update_field OrderData.id ledger.data (by rfl) other

theorem shrink_price {newQty : Quantity} (other : Ptr) :
    (ledger.shrink slot newQty).price other = ledger.price other := by
  rw [price, shrink_data]
  exact update_field OrderData.price ledger.data (by rfl) other

@[simp] theorem shrink_queue {newQty : Quantity} : (ledger.shrink slot newQty).queue = ledger.queue :=
  setCell_same ..

/-- A smaller quantity keeps every order linked. -/
theorem shrink_linked {newQty : Quantity} {other : Ptr} :
    (ledger.shrink slot newQty).Linked other ↔ ledger.Linked other := by
  rw [Linked, wing, shrink_side, shrink_price, shrink_queue]
  rfl

end Withdraw

end Ledger

end OrderEngine
