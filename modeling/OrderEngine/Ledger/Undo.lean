import OrderEngine.Ledger.Replace

namespace OrderEngine

open Library

namespace Ledger

/-- An arriving order stays behind the best price of the wing that it faces. -/
def Passive (ledger : Ledger) (msg : OrderMessage) : Prop :=
  ledger.best msg.side.wing.opposite = kInvalidPrice ∨
    msg.side.wing.opposite.rank msg.price <
      msg.side.wing.opposite.rank (ledger.best msg.side.wing.opposite)

/-- Only one slot may hold other data than before. -/
structure Restored (ledger : Ledger) (slot : Ptr) (after : Ledger) : Prop where
  queue : after.queue = ledger.queue
  total : after.total = ledger.total
  data : ∀ other, other ≠ slot → after.data other = ledger.data other
  free : after.free = ledger.free
  orderMap : after.orderMap = ledger.orderMap
  best : ∀ wing, after.best wing = ledger.best wing
  fills : after.fills = ledger.fills
  reports : after.reports = ledger.reports
  matchCount : after.matchCount = ledger.matchCount
  tradeVolume : after.tradeVolume = ledger.tradeVolume

variable {ledger after : Ledger} {slot : Ptr} {rest : List Ptr} {msg : OrderMessage}

theorem Passive.stops (passive : ledger.Passive msg) : ¬ (ledger.enroll slot rest msg).Crosses slot := by
  rintro ⟨valid, near, -⟩
  simp only [facing, wing, price, enroll_data_self, enroll_best] at valid near
  rcases passive with missing | behind
  · exact valid missing
  · omega

/-- A passive order rests at once. -/
def arrive (ledger : Ledger) (slot : Ptr) (rest : List Ptr) (msg : OrderMessage) : Ledger :=
  (ledger.enroll slot rest msg).rest slot

section Arrive

theorem arrive_data_self : (ledger.arrive slot rest msg).data slot =
    { id := msg.orderId, side := msg.side, status := .active, price := msg.price,
      quantity := msg.quantity, filledQuantity := 0, timestamp := msg.arrivalCycles,
      entryNanos := ledger.rdtsc } := by
  rw [arrive, rest_data, enroll_data_self]

theorem arrive_data_other {other : Ptr} (different : other ≠ slot) :
    (ledger.arrive slot rest msg).data other = ledger.data other := by
  rw [arrive, rest_data, enroll_data_other _ _ _ different]

theorem arrive_orderMap : (ledger.arrive slot rest msg).orderMap =
    Function.update ledger.orderMap (mapSlot msg.orderId) (some slot) := by
  rw [arrive, rest_orderMap]
  rfl

theorem arrive_queue : (ledger.arrive slot rest msg).queue = setCell ledger.queue msg.side.wing msg.price
    (ledger.queue msg.side.wing msg.price ++ [slot]) := by
  rw [arrive, rest_queue, wing, price, enroll_data_self, enroll_queue]

theorem arrive_total : (ledger.arrive slot rest msg).total = setCell ledger.total msg.side.wing msg.price
    (ledger.total msg.side.wing msg.price + msg.quantity) := by
  rw [arrive, rest_total, wing, price, enroll_data_self, enroll_total]

/-- The lookup of a cancel finds the order that was just added. -/
theorem arrive_findLive : (ledger.arrive slot rest msg).findLive msg.orderId = some slot := by
  rw [findLive_eq_some, arrive_data_self, arrive_orderMap]
  exact ⟨Function.update_self .., rfl, .inl rfl⟩

end Arrive

open scoped UInt64.CommRing in
/-- A cancel takes the order that was just added out of its queue, the map and the used slots again. -/
theorem Settled.arrive_withdraw (settled : ledger.Settled) (free : ledger.free = slot :: rest)
    (vacant : ledger.orderMap (mapSlot msg.orderId) = none) (settledArrive : (ledger.arrive slot rest msg).Settled) :
    ledger.Restored slot ((ledger.arrive slot rest msg).withdraw slot) := by
  have fresh : slot ∉ ledger.queue msg.side.wing msg.price := settled.toInv.fresh (by simp [free])
  have linked := (settledArrive.toInv.found_linked arrive_findLive).1
  have wing : (ledger.arrive slot rest msg).wing slot = msg.side.wing := by rw [Ledger.wing, arrive_data_self]
  have price : (ledger.arrive slot rest msg).price slot = msg.price := by rw [Ledger.price, arrive_data_self]
  have queue : ((ledger.arrive slot rest msg).withdraw slot).queue = ledger.queue := by
    rw [withdraw_queue, wing, price, arrive_queue, setCell_self, setCell_setCell, List.erase_append_right _ fresh,
      List.erase_cons_head, List.append_nil, setCell_same]
  constructor
  · exact queue
  · rw [withdraw_total, wing, price, arrive_total, setCell_self, setCell_setCell, arrive_data_self]
    have back : ledger.total msg.side.wing msg.price + msg.quantity - (msg.quantity - 0) =
        ledger.total msg.side.wing msg.price := by ring
    show setCell ledger.total _ _ (_ + msg.quantity - (msg.quantity - 0)) = _
    rw [back, setCell_same]
  · intro other different
    rw [withdraw_data, Function.update_of_ne different, arrive_data_other different]
  · rw [withdraw_free, arrive, rest_free, enroll_free, free]
  · rw [withdraw_orderMap, arrive_data_self, arrive_orderMap, Function.update_idem, ← vacant,
      Function.update_eq_self]
  · intro wing
    apply (settledArrive.withdraw linked).best_unique settled
    intro tick
    rw [queue]
  · rw [withdraw_fills, arrive, rest_fills, enroll_fills]
  · rw [withdraw_reports, arrive, rest_reports, enroll_reports]
  · rw [withdraw_matchCount, arrive, rest_matchCount, enroll_matchCount]
  · rw [withdraw_tradeVolume, arrive, rest_tradeVolume, enroll_tradeVolume]

end Ledger

end OrderEngine
