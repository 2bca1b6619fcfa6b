import OrderEngine.Ledger.Ledger
import OrderEngine.Library.Unsigned

namespace OrderEngine

open Library

namespace BookCore

section Report

variable (core : BookCore) (resting aggressor : OrderData) (qty : Quantity)

@[simp] theorem report_orderMap : (core.report resting aggressor qty).orderMap = core.orderMap := by
  unfold report
  split <;> rfl

@[simp] theorem report_best (wing : Wing) :
    (core.report resting aggressor qty).best wing = core.best wing := by
  unfold report
  split <;> cases wing <;> rfl

@[simp] theorem report_released : (core.report resting aggressor qty).released = core.released := by
  unfold report
  split <;> rfl

@[simp] theorem report_faults : (core.report resting aggressor qty).faults = core.faults := by
  unfold report
  split <;> rfl

@[simp] theorem report_fills : (core.report resting aggressor qty).fills = core.fills := by
  unfold report
  split <;> rfl

@[simp] theorem report_matchCount :
    (core.report resting aggressor qty).matchCount = core.matchCount := by
  unfold report
  split <;> rfl

@[simp] theorem report_tradeVolume :
    (core.report resting aggressor qty).tradeVolume = core.tradeVolume := by
  unfold report
  split <;> rfl

@[simp] theorem report_tradeCb : (core.report resting aggressor qty).tradeCb = core.tradeCb := by
  unfold report
  split <;> rfl

/-- This is the report of a trade between a resting order and an aggressor. -/
def tradeReport (core : BookCore) (resting aggressor : OrderData) (qty : Quantity) : TradeReport where
  buyOrderId := if resting.side = Side.buy then resting.id else aggressor.id
  sellOrderId := if resting.side = Side.buy then aggressor.id else resting.id
  price := resting.price
  quantity := qty
  matchNanos := core.rdtsc
  latencyCycles := if aggressor.entryNanos > 0 then core.rdtsc - aggressor.entryNanos else 0

theorem report_reports : (core.report resting aggressor qty).reports =
    if core.tradeCb then core.reports ++ [core.tradeReport resting aggressor qty] else core.reports := by
  unfold report
  split <;> rfl

end Report

@[simp] theorem count_best (core : BookCore) (resting aggressor : Ptr) (qty : Quantity) (wing : Wing) :
    (core.count resting aggressor qty).best wing = core.best wing := by
  cases wing <;> rfl

theorem setBest_best (core : BookCore) (wing other : Wing) (price : Int) :
    (core.setBest wing price).best other = if other = wing then price else core.best other := by
  cases wing <;> cases other <;> rfl

theorem setBest_setBest (core : BookCore) (wing : Wing) (first price : Int) :
    (core.setBest wing first).setBest wing price = core.setBest wing price := by
  cases wing <;> rfl

theorem setBest_same (core : BookCore) (wing : Wing) : core.setBest wing (core.best wing) = core := by
  cases wing <;> rfl

@[simp] theorem setSlot_best (core : BookCore) (id : OrderId) (order : Option Ptr) (wing : Wing) :
    (core.setSlot id order).best wing = core.best wing := by
  cases wing <;> rfl

end BookCore

namespace OrderData

section FilledBy

variable (data : OrderData) (qty : Quantity)

@[simp] theorem filledBy_id : (data.filledBy qty).id = data.id := rfl

@[simp] theorem filledBy_side : (data.filledBy qty).side = data.side := rfl

@[simp] theorem filledBy_price : (data.filledBy qty).price = data.price := rfl

@[simp] theorem filledBy_quantity : (data.filledBy qty).quantity = data.quantity := rfl

@[simp] theorem filledBy_filledQuantity :
    (data.filledBy qty).filledQuantity = data.filledQuantity + qty := rfl

/-- A fill leaves an order live exactly when it does not complete it. -/
theorem filledBy_live : (data.filledBy qty).live ↔ ¬ data.completedBy qty := by
  unfold filledBy live
  split <;> simp_all

theorem filledBy_status (full : data.completedBy qty) : (data.filledBy qty).status = .filled :=
  if_pos full

variable {data qty}

/-- A quantity that fits completes the order exactly when nothing remains. -/
theorem completedBy_iff (filledLe : data.filledQuantity ≤ data.quantity) (fits : qty ≤ data.remaining) :
    data.completedBy qty ↔ data.filledQuantity + qty = data.quantity := by
  constructor
  · intro full
    exact UInt64.le_antisymm (add_le_of_fits filledLe fits) full
  · intro equal
    rw [completedBy, equal]
    exact UInt64.le_refl _

theorem completedBy_iff_remaining (filledLe : data.filledQuantity ≤ data.quantity)
    (fits : qty ≤ data.remaining) : data.completedBy qty ↔ qty = data.remaining := by
  rw [completedBy_iff filledLe fits, remaining, ← UInt64.toNat_inj, ← UInt64.toNat_inj,
    toNat_add_of_fits filledLe fits, UInt64.toNat_sub_of_le _ _ filledLe]
  have inside := UInt64.le_iff_toNat_le.mp filledLe
  omega

end FilledBy

end OrderData

namespace Ledger

variable (ledger : Ledger) (resting aggressor : Ptr) (qty : Quantity)

/-- A fill changes the data of its two orders. -/
theorem fill_data : (ledger.fill resting aggressor qty).data =
    Function.update (Function.update ledger.data resting ((ledger.data resting).filledBy qty))
      aggressor ((ledger.data aggressor).filledBy qty) := by
  simp only [fill]
  split <;> rfl

@[simp] theorem fill_data_aggressor : (ledger.fill resting aggressor qty).data aggressor =
    (ledger.data aggressor).filledBy qty := by
  rw [fill_data, Function.update_self]

variable {resting aggressor} in
theorem fill_data_resting (different : resting ≠ aggressor) :
    (ledger.fill resting aggressor qty).data resting = (ledger.data resting).filledBy qty := by
  rw [fill_data, Function.update_of_ne different, Function.update_self]

variable {resting aggressor} in
theorem fill_data_other {slot : Ptr} (first : slot ≠ resting) (second : slot ≠ aggressor) :
    (ledger.fill resting aggressor qty).data slot = ledger.data slot := by
  rw [fill_data, Function.update_of_ne second, Function.update_of_ne first]

/-- A fill changes no other member of an order than its filled quantity and its status. -/
theorem fill_data_cases (slot : Ptr) : (ledger.fill resting aggressor qty).data slot = ledger.data slot ∨
    (ledger.fill resting aggressor qty).data slot = (ledger.data slot).filledBy qty := by
  rw [fill_data, Function.update_apply, Function.update_apply]
  split
  · next same => exact .inr (by rw [same])
  · split
    · next same => exact .inr (by rw [same])
    · exact .inl rfl

@[simp] theorem fill_id (slot : Ptr) :
    ((ledger.fill resting aggressor qty).data slot).id = (ledger.data slot).id := by
  rcases ledger.fill_data_cases resting aggressor qty slot with same | same <;> rw [same]
  rfl

@[simp] theorem fill_side (slot : Ptr) :
    ((ledger.fill resting aggressor qty).data slot).side = (ledger.data slot).side := by
  rcases ledger.fill_data_cases resting aggressor qty slot with same | same <;> rw [same]
  rfl

@[simp] theorem fill_quantity (slot : Ptr) :
    ((ledger.fill resting aggressor qty).data slot).quantity = (ledger.data slot).quantity := by
  rcases ledger.fill_data_cases resting aggressor qty slot with same | same <;> rw [same]
  rfl

@[simp] theorem fill_entryNanos (slot : Ptr) :
    ((ledger.fill resting aggressor qty).data slot).entryNanos = (ledger.data slot).entryNanos := by
  rcases ledger.fill_data_cases resting aggressor qty slot with same | same <;> rw [same]
  rfl

@[simp] theorem fill_price (slot : Ptr) :
    (ledger.fill resting aggressor qty).price slot = ledger.price slot := by
  rcases ledger.fill_data_cases resting aggressor qty slot with same | same <;> rw [price, same]
  · rfl
  · rfl

@[simp] theorem fill_wing (slot : Ptr) :
    (ledger.fill resting aggressor qty).wing slot = ledger.wing slot := by
  rw [wing, fill_side]
  rfl

theorem fill_queue : (ledger.fill resting aggressor qty).queue =
    if (ledger.data resting).completedBy qty then
      setCell ledger.queue (ledger.wing resting) (ledger.price resting)
        ((ledger.queue (ledger.wing resting) (ledger.price resting)).erase resting)
    else ledger.queue := by
  simp only [fill]
  split <;> simp [recordTrade, withData, deductTotal, retire, release, wing, price]

theorem fill_total : (ledger.fill resting aggressor qty).total =
    setCell ledger.total (ledger.wing resting) (ledger.price resting)
      (ledger.total (ledger.wing resting) (ledger.price resting) - qty) := by
  simp only [fill]
  split <;> simp [recordTrade, withData, deductTotal, retire, release, wing, price]

theorem fill_free : (ledger.fill resting aggressor qty).free =
    if (ledger.data resting).completedBy qty then resting :: ledger.free else ledger.free := by
  simp only [fill]
  split <;> rfl

theorem fill_orderMap : (ledger.fill resting aggressor qty).orderMap =
    if (ledger.data resting).completedBy qty then
      Function.update ledger.orderMap (mapSlot (ledger.data resting).id) none
    else ledger.orderMap := by
  simp only [fill, recordTrade, BookCore.report_orderMap]
  split <;> rfl

theorem fill_released : (ledger.fill resting aggressor qty).released =
    if (ledger.data resting).completedBy qty then ledger.released ++ [(resting, ledger.free)]
    else ledger.released := by
  simp only [fill, recordTrade, BookCore.report_released]
  split <;> rfl

@[simp] theorem fill_best (wing : Wing) :
    (ledger.fill resting aggressor qty).best wing = ledger.best wing := by
  simp only [fill, recordTrade, BookCore.report_best, BookCore.count_best]
  split <;> cases wing <;> rfl

@[simp] theorem fill_faults : (ledger.fill resting aggressor qty).faults = ledger.faults := by
  simp only [fill, recordTrade, BookCore.report_faults]
  split <;> rfl

@[simp] theorem fill_matchCount :
    (ledger.fill resting aggressor qty).matchCount = ledger.matchCount + 1 := by
  simp only [fill, recordTrade, BookCore.report_matchCount]
  split <;> rfl

@[simp] theorem fill_tradeVolume :
    (ledger.fill resting aggressor qty).tradeVolume = ledger.tradeVolume + qty := by
  simp only [fill, recordTrade, BookCore.report_tradeVolume]
  split <;> rfl

@[simp] theorem fill_fills : (ledger.fill resting aggressor qty).fills =
    ledger.fills ++ [⟨resting, aggressor, qty⟩] := by
  simp only [fill, recordTrade, BookCore.report_fills]
  split <;> rfl

/-- A fill reports its trade at the resting price when a callback is installed. -/
theorem fill_reports : (ledger.fill resting aggressor qty).reports =
    if ledger.tradeCb then ledger.reports ++
      [ledger.tradeReport (ledger.data resting) (ledger.data aggressor) qty]
    else ledger.reports := by
  have steps : (ledger.fill resting aggressor qty).reports =
      if ledger.tradeCb then ledger.reports ++
        [ledger.tradeReport ((ledger.fill resting aggressor qty).data resting)
          ((ledger.fill resting aggressor qty).data aggressor) qty]
      else ledger.reports := by
    rw [fill_data]
    simp only [fill, recordTrade, BookCore.report_reports]
    split <;> rfl
  rw [steps]
  simp only [BookCore.tradeReport, fill_id, fill_side, fill_entryNanos]
  rw [← price, fill_price]
  rfl

@[simp] theorem fill_tradeCb : (ledger.fill resting aggressor qty).tradeCb = ledger.tradeCb := by
  simp only [fill, recordTrade, BookCore.report_tradeCb]
  split <;> rfl

section Arrival

variable (ledger : Ledger) (slot : Ptr) (rest : List Ptr) (msg : OrderMessage)

@[simp] theorem enroll_data_self : (ledger.enroll slot rest msg).data slot =
    { id := msg.orderId, side := msg.side, status := .active, price := msg.price,
      quantity := msg.quantity, filledQuantity := 0, timestamp := msg.arrivalCycles,
      entryNanos := ledger.rdtsc } := Function.update_self ..

variable {slot} in
theorem enroll_data_other {other : Ptr} (different : other ≠ slot) :
    (ledger.enroll slot rest msg).data other = ledger.data other :=
  Function.update_of_ne different _ _

theorem enroll_orderMap (index : Nat) : (ledger.enroll slot rest msg).orderMap index =
    if index = mapSlot msg.orderId then some slot else ledger.orderMap index :=
  Function.update_apply ..

@[simp] theorem enroll_best (wing : Wing) :
    (ledger.enroll slot rest msg).best wing = ledger.best wing := by
  cases wing <;> rfl

@[simp] theorem enroll_queue : (ledger.enroll slot rest msg).queue = ledger.queue := rfl

@[simp] theorem enroll_total : (ledger.enroll slot rest msg).total = ledger.total := rfl

@[simp] theorem enroll_free : (ledger.enroll slot rest msg).free = rest := rfl

@[simp] theorem enroll_reports : (ledger.enroll slot rest msg).reports = ledger.reports := rfl

@[simp] theorem enroll_fills : (ledger.enroll slot rest msg).fills = ledger.fills := rfl

@[simp] theorem enroll_matchCount : (ledger.enroll slot rest msg).matchCount = ledger.matchCount := rfl

@[simp] theorem enroll_tradeVolume : (ledger.enroll slot rest msg).tradeVolume = ledger.tradeVolume := rfl

/-- An order joins the end of its level, and it becomes the best price when it is better. -/
theorem rest_eq : ledger.rest slot =
    if ledger.best (ledger.wing slot) = kInvalidPrice ∨ (ledger.wing slot).rank (ledger.price slot) <
        (ledger.wing slot).rank (ledger.best (ledger.wing slot)) then
      { ledger.setLevel (ledger.wing slot) (ledger.price slot)
          (ledger.queue (ledger.wing slot) (ledger.price slot) ++ [slot])
          (ledger.total (ledger.wing slot) (ledger.price slot) + (ledger.data slot).quantity) with
        toBookCore := ledger.setBest (ledger.wing slot) (ledger.price slot) }
    else ledger.setLevel (ledger.wing slot) (ledger.price slot)
      (ledger.queue (ledger.wing slot) (ledger.price slot) ++ [slot])
      (ledger.total (ledger.wing slot) (ledger.price slot) + (ledger.data slot).quantity) := rfl

/-- The data, the map and the pool stay as they are while an order joins its level. -/
@[simp] theorem rest_data : (ledger.rest slot).data = ledger.data := by
  simp only [Ledger.rest]
  split <;> rfl

@[simp] theorem rest_queue : (ledger.rest slot).queue = setCell ledger.queue (ledger.wing slot)
    (ledger.price slot) (ledger.queue (ledger.wing slot) (ledger.price slot) ++ [slot]) := by
  simp only [Ledger.rest]
  split <;> rfl

@[simp] theorem rest_total : (ledger.rest slot).total = setCell ledger.total (ledger.wing slot)
    (ledger.price slot) (ledger.total (ledger.wing slot) (ledger.price slot) +
      (ledger.data slot).quantity) := by
  simp only [Ledger.rest]
  split <;> rfl

@[simp] theorem rest_free : (ledger.rest slot).free = ledger.free := by
  simp only [Ledger.rest]
  split <;> rfl

@[simp] theorem rest_orderMap : (ledger.rest slot).orderMap = ledger.orderMap := by
  simp only [Ledger.rest]
  split <;> cases ledger.wing slot <;> rfl

@[simp] theorem rest_released : (ledger.rest slot).released = ledger.released := by
  simp only [Ledger.rest]
  split <;> cases ledger.wing slot <;> rfl

@[simp] theorem rest_reports : (ledger.rest slot).reports = ledger.reports := by
  simp only [Ledger.rest]
  split <;> cases ledger.wing slot <;> rfl

@[simp] theorem rest_fills : (ledger.rest slot).fills = ledger.fills := by
  simp only [Ledger.rest]
  split <;> cases ledger.wing slot <;> rfl

@[simp] theorem rest_matchCount : (ledger.rest slot).matchCount = ledger.matchCount := by
  simp only [Ledger.rest]
  split <;> cases ledger.wing slot <;> rfl

@[simp] theorem rest_tradeVolume : (ledger.rest slot).tradeVolume = ledger.tradeVolume := by
  simp only [Ledger.rest]
  split <;> cases ledger.wing slot <;> rfl

@[simp] theorem rest_tradeCb : (ledger.rest slot).tradeCb = ledger.tradeCb := by
  simp only [Ledger.rest]
  split <;> cases ledger.wing slot <;> rfl

@[simp] theorem rest_faults : (ledger.rest slot).faults = ledger.faults := by
  simp only [Ledger.rest]
  split <;> cases ledger.wing slot <;> rfl

/-- The best price moves only when the order is better than it. -/
theorem rest_best (wing : Wing) : (ledger.rest slot).best wing =
    if wing = ledger.wing slot ∧ (ledger.best wing = kInvalidPrice ∨
        wing.rank (ledger.price slot) < wing.rank (ledger.best wing)) then ledger.price slot
    else ledger.best wing := by
  by_cases here : wing = ledger.wing slot
  · subst here
    simp only [Ledger.rest, true_and]
    split
    · rw [BookCore.setBest_best, if_pos rfl]
    · rfl
  · rw [if_neg (fun both => here both.1)]
    simp only [Ledger.rest]
    split
    · rw [BookCore.setBest_best, if_neg here]
      rfl
    · rfl

end Arrival

section Rescan

variable (ledger : Ledger) (wing : Wing)

@[simp] theorem rescan_queue : (ledger.rescan wing).queue = ledger.queue := rfl

@[simp] theorem rescan_total : (ledger.rescan wing).total = ledger.total := rfl

@[simp] theorem rescan_data : (ledger.rescan wing).data = ledger.data := rfl

@[simp] theorem rescan_free : (ledger.rescan wing).free = ledger.free := rfl

@[simp] theorem rescan_orderMap : (ledger.rescan wing).orderMap = ledger.orderMap := by
  cases wing <;> rfl

@[simp] theorem rescan_released : (ledger.rescan wing).released = ledger.released := by
  cases wing <;> rfl

@[simp] theorem rescan_faults : (ledger.rescan wing).faults = ledger.faults := by
  cases wing <;> rfl

@[simp] theorem rescan_reports : (ledger.rescan wing).reports = ledger.reports := by
  cases wing <;> rfl

@[simp] theorem rescan_tradeCb : (ledger.rescan wing).tradeCb = ledger.tradeCb := by
  cases wing <;> rfl

@[simp] theorem rescan_fills : (ledger.rescan wing).fills = ledger.fills := by
  cases wing <;> rfl

@[simp] theorem rescan_matchCount : (ledger.rescan wing).matchCount = ledger.matchCount := by
  cases wing <;> rfl

@[simp] theorem rescan_tradeVolume : (ledger.rescan wing).tradeVolume = ledger.tradeVolume := by
  cases wing <;> rfl

theorem rescan_best (other : Wing) : (ledger.rescan wing).best other =
    if other = wing then
      nextBest wing (fun price => !(ledger.queue wing price).isEmpty) (ledger.best wing)
    else ledger.best other := by
  rw [Ledger.rescan, BookCore.setBest_best]

end Rescan

end Ledger

end OrderEngine
