import OrderEngine.Construction.Calls

namespace OrderEngine

open Library

namespace OrderBook

variable {book : OrderBook}

section Frames

variable (book) (wing : Wing) (price : Int) (slot : Ptr)

@[simp] theorem setLevel_reports (level : LimitLevel) :
    (book.setLevel wing price level).reports = book.reports := by
  cases wing <;> rfl

@[simp] theorem touch_reports : (book.touch price).reports = book.reports := by
  unfold touch
  split <;> rfl

@[simp] theorem updateBestBid_reports : (book.updateBestBid price).reports = book.reports := by
  unfold updateBestBid
  split
  · exact book.touch_reports price
  · rfl

@[simp] theorem updateBestAsk_reports : (book.updateBestAsk price).reports = book.reports := by
  unfold updateBestAsk
  split
  · exact book.touch_reports price
  · rfl

@[simp] theorem setSlots_reports (slots : Slots) : (book.setSlots slots).reports = book.reports := rfl

@[simp] theorem removeFromLevel_reports : (book.removeFromLevel slot).reports = book.reports := by
  simp [removeFromLevel]

@[simp] theorem deductTotal_reports (qty : Quantity) : (book.deductTotal slot qty).reports = book.reports := by
  simp [deductTotal]

@[simp] theorem restOrder_reports : (book.restOrder slot).reports = book.reports := by
  simp only [restOrder]
  split
  · split <;> simp
  · split <;> simp

@[simp] theorem settleResting_reports : (book.settleResting slot).reports = book.reports := by
  unfold settleResting
  split
  · exact removeFromLevel_reports _ slot
  · rfl

@[simp] theorem settleAggressor_reports : (book.settleAggressor slot).reports = book.reports := by
  unfold settleAggressor
  split <;> rfl

@[simp] theorem rescanAfterCancel_reports : (book.rescanAfterCancel slot).reports = book.reports := by
  simp only [rescanAfterCancel]
  split
  · split
    · exact book.updateBestBid_reports _
    · split
      · exact book.updateBestAsk_reports _
      · rfl
  · rfl

end Frames

/-- A report is only ever added behind the others. -/
theorem report_keeps_reports (core : BookCore) (resting aggressor : OrderData) (qty : Quantity) :
    core.reports <+: (core.report resting aggressor qty).reports := by
  unfold BookCore.report
  split
  · exact List.prefix_append _ _
  · exact List.prefix_rfl

theorem recordTrade_keeps_reports {reports : List TradeReport} (same : reports = book.reports)
    (resting aggressor : Ptr) (qty : Quantity) :
    reports <+: (book.recordTrade resting aggressor qty).reports := by
  rw [same]
  exact report_keeps_reports (book.toBookCore.count resting aggressor qty) _ _ _

theorem fill_keeps_reports (book : OrderBook) (resting aggressor : Ptr) (qty : Quantity) :
    book.reports <+: (book.fill resting aggressor qty).reports := by
  unfold fill
  apply recordTrade_keeps_reports
  rw [settleAggressor_reports, settleResting_reports, deductTotal_reports]
  rfl

theorem walkLevel_keeps_reports (book : OrderBook) (incoming : Ptr) (resting : Option Ptr) :
    book.reports <+: (book.walkLevel incoming resting).reports := by
  unfold walkLevel
  generalize kMaxOrders + 1 = fuel
  apply whileLoop_keeps (fun state : OrderBook × Option Ptr => book.reports <+: state.1.reports)
  · rintro ⟨state, _ | next⟩ grown
    · exact grown
    · exact grown.trans (fill_keeps_reports _ _ _ _)
  · intro state grown
    exact grown
  · exact List.prefix_rfl

theorem matchBuyBody_keeps_reports (incoming : Ptr) (book : OrderBook) :
    book.reports <+: (matchBuyBody incoming book).reports := by
  have walked := walkLevel_keeps_reports (book.touch book.bestAsk) incoming
    ((book.touch book.bestAsk).sellLevels book.bestAsk).head
  rw [touch_reports] at walked
  unfold matchBuyBody
  simp only
  split
  · simp
  · split
    · simpa using walked
    · exact walked

theorem matchSellBody_keeps_reports (incoming : Ptr) (book : OrderBook) :
    book.reports <+: (matchSellBody incoming book).reports := by
  have walked := walkLevel_keeps_reports (book.touch book.bestBid) incoming
    ((book.touch book.bestBid).buyLevels book.bestBid).head
  rw [touch_reports] at walked
  unfold matchSellBody
  simp only
  split
  · simp
  · split
    · simpa using walked
    · exact walked

theorem match_keeps_reports {reports : List TradeReport} (same : reports = book.reports) (incoming : Ptr) :
    reports <+: (book.match incoming).reports := by
  rw [same]
  unfold OrderBook.match
  split
  · apply whileLoop_keeps (fun state : OrderBook => book.reports <+: state.reports)
    · intro state grown
      exact grown.trans (matchBuyBody_keeps_reports incoming state)
    · intro state grown
      exact grown
    · exact List.prefix_rfl
  · apply whileLoop_keeps (fun state : OrderBook => book.reports <+: state.reports)
    · intro state grown
      exact grown.trans (matchSellBody_keeps_reports incoming state)
    · intro state grown
      exact grown
    · exact List.prefix_rfl

theorem addOrder_keeps_reports {reports : List TradeReport} (same : reports = book.reports) (msg : OrderMessage) :
    reports <+: (book.addOrder msg).2.reports := by
  rw [same]
  unfold addOrder
  split
  · exact List.prefix_rfl
  · simp only
    split
    · rw [restOrder_reports]
      exact match_keeps_reports (by rfl) _
    · exact match_keeps_reports (by rfl) _

theorem cancelOrder_reports (book : OrderBook) (id : OrderId) : (book.cancelOrder id).2.reports = book.reports := by
  unfold cancelOrder
  split
  · rfl
  · exact (rescanAfterCancel_reports _ _).trans (removeFromLevel_reports _ _)

/-- Every call keeps the reports that were made before it. -/
theorem call_keeps_reports (book : OrderBook) (call : Call) : book.reports <+: (book.call call).2.reports := by
  cases call with
  | add msg => exact addOrder_keeps_reports rfl msg
  | cancel id =>
      rw [show (book.call (.cancel id)).2 = (book.cancelOrder id).2 from rfl, cancelOrder_reports]
  | modify id newQty =>
      show _ <+: (book.modifyOrder id newQty).2.reports
      unfold modifyOrder
      split
      · exact List.prefix_rfl
      · split
        · show _ <+: (book.deductTotal _ _).reports
          rw [deductTotal_reports]
        · have cancelled := book.cancelOrder_reports id
          rw [← cancelled]
          exact addOrder_keeps_reports (by rfl) _

end OrderBook

end OrderEngine
