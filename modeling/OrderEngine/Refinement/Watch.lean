import OrderEngine.Construction.Watch
import OrderEngine.Refinement.Orders

namespace OrderEngine

open Library

namespace Watch

section Erasure

variable (watch : Watch)

@[simp] theorem use_book (slot : Ptr) : (watch.use slot).book = watch.book := by
  unfold use
  split <;> rfl

@[simp] theorem useLink_book (slot : Option Ptr) : (watch.useLink slot).book = watch.book := by
  cases slot with
  | none => rfl
  | some slot => exact watch.use_book slot

@[simp] theorem update_book (effect : OrderBook → OrderBook) :
    (watch.update effect).book = effect watch.book := rfl

@[simp] theorem inspect_book (incoming : Ptr) (resting : Option Ptr) :
    (watch.inspect incoming resting).book = watch.book := by
  cases resting with
  | none => rfl
  | some slot => exact watch.use_book incoming

@[simp] theorem compare_book (incoming : Ptr) (best : Int) : (watch.compare incoming best).book = watch.book := by
  unfold compare
  split
  · rfl
  · exact watch.use_book incoming

@[simp] theorem lookup_book (id : OrderId) : (watch.lookup id).book = watch.book :=
  watch.useLink_book _

@[simp] theorem removeFromLevel_book (slot : Ptr) :
    (watch.removeFromLevel slot).book = watch.book.removeFromLevel slot := by
  simp [removeFromLevel]

@[simp] theorem restOrder_book (slot : Ptr) : (watch.restOrder slot).book = watch.book.restOrder slot := by
  simp [restOrder]

@[simp] theorem destroy_book (slot : Ptr) : (watch.destroy slot).book = watch.book.destroy slot := by
  simp [destroy]

@[simp] theorem settleResting_book (slot : Ptr) :
    (watch.settleResting slot).book = watch.book.settleResting slot := by
  simp only [settleResting, OrderBook.settleResting, use_book]
  split <;> simp

@[simp] theorem recordTrade_book (resting aggressor : Ptr) (qty : Quantity) :
    (watch.recordTrade resting aggressor qty).book = watch.book.recordTrade resting aggressor qty := by
  simp only [recordTrade, update_book]
  split <;> simp

@[simp] theorem fill_book (resting aggressor : Ptr) (qty : Quantity) :
    (watch.fill resting aggressor qty).book = watch.book.fill resting aggressor qty := by
  simp [fill, OrderBook.fill]

/-- The watched inner loop takes the rounds of the inner loop. -/
theorem fillNext_view (incoming : Ptr) (state : Watch × Option Ptr) :
    ((fillNext incoming state).1.book, (fillNext incoming state).2) =
      OrderBook.fillNext incoming (state.1.book, state.2) := by
  obtain ⟨watch, resting⟩ := state
  cases resting with
  | none => rfl
  | some resting => simp [fillNext, OrderBook.fillNext]

@[simp] theorem walkLevel_book (incoming : Ptr) (resting : Option Ptr) :
    (watch.walkLevel incoming resting).book = watch.book.walkLevel incoming resting := by
  unfold walkLevel OrderBook.walkLevel
  generalize kMaxOrders + 1 = fuel
  have view := @whileLoop_view _ (fun state => state.2.isSome && state.1.book.hasRemaining incoming)
    (fillNext incoming) (fun state => (state.1.update OrderBook.markEndless, state.2)) _
    (fun state => state.2.isSome && state.1.hasRemaining incoming) (OrderBook.fillNext incoming)
    (fun state => (state.1.markEndless, state.2)) (fun state => (state.1.book, state.2))
    (fun _ => rfl) (fillNext_view incoming) (fun _ => rfl) fuel (watch.inspect incoming resting, resting)
  rw [inspect_book] at view
  exact congrArg Prod.fst view

@[simp] theorem matchBuyBody_book (incoming : Ptr) :
    (matchBuyBody incoming watch).book = OrderBook.matchBuyBody incoming watch.book := by
  simp only [matchBuyBody, OrderBook.matchBuyBody, compare_book, apply_ite Watch.book, update_book, walkLevel_book]

@[simp] theorem matchSellBody_book (incoming : Ptr) :
    (matchSellBody incoming watch).book = OrderBook.matchSellBody incoming watch.book := by
  simp only [matchSellBody, OrderBook.matchSellBody, compare_book, apply_ite Watch.book, update_book, walkLevel_book]

@[simp] theorem match_book (incoming : Ptr) : (watch.match incoming).book = watch.book.match incoming := by
  simp only [Watch.match, OrderBook.match, use_book]
  generalize kMaxPriceTicks + 1 = fuel
  split
  · apply (@whileLoop_view _ _ _ _ _ (fun book : OrderBook => book.bestAsk ≠ kInvalidPrice ∧
      book.bestAsk ≤ (book.order incoming).price ∧ book.hasRemaining incoming) _ OrderBook.markEndless
      Watch.book (fun _ => rfl) (fun watch => watch.matchBuyBody_book incoming) (fun _ => rfl) fuel _).trans
    rw [compare_book, use_book]
  · apply (@whileLoop_view _ _ _ _ _ (fun book : OrderBook => book.bestBid ≠ kInvalidPrice ∧
      book.bestBid ≥ (book.order incoming).price ∧ book.hasRemaining incoming) _ OrderBook.markEndless
      Watch.book (fun _ => rfl) (fun watch => watch.matchSellBody_book incoming) (fun _ => rfl) fuel _).trans
    rw [compare_book, use_book]

theorem addOrder_book (msg : OrderMessage) :
    ((watch.addOrder msg).1, (watch.addOrder msg).2.book) = watch.book.addOrder msg := by
  unfold addOrder OrderBook.addOrder
  rcases watch.book.orderPool.construct {} with ⟨_ | slot, pool⟩
  · rfl
  · simp only [apply_ite Watch.book, restOrder_book, use_book, match_book, update_book]

theorem cancelOrder_book (id : OrderId) :
    ((watch.cancelOrder id).1, (watch.cancelOrder id).2.book) = watch.book.cancelOrder id := by
  unfold cancelOrder OrderBook.cancelOrder
  simp only [lookup_book]
  cases watch.book.findLive id with
  | none => simp
  | some slot =>
      simp only [destroy_book, update_book, apply_ite Watch.book, use_book, ite_self, removeFromLevel_book, lookup_book]

theorem modifyOrder_book (id : OrderId) (newQty : Quantity) :
    ((watch.modifyOrder id newQty).1, (watch.modifyOrder id newQty).2.book) =
      watch.book.modifyOrder id newQty := by
  unfold modifyOrder OrderBook.modifyOrder
  simp only [lookup_book, use_book]
  cases watch.book.findLive id with
  | none => simp
  | some slot =>
      simp only
      split
      · simp
      · have both := congrArg Prod.snd (((watch.lookup id).use slot).cancelOrder_book id)
        rw [use_book, lookup_book] at both
        have cancelled : (((watch.lookup id).use slot).cancelOrder id).2.book = (watch.book.cancelOrder id).2 := both
        rw [addOrder_book, update_book, use_book, cancelled]

/-- The watch does to its book what the call does to the book alone. -/
theorem call_book (call : Call) : (watch.call call).book = (watch.book.call call).2 := by
  cases call with
  | add msg => exact congrArg Prod.snd (watch.addOrder_book msg)
  | cancel id => exact congrArg Prod.snd (watch.cancelOrder_book id)
  | modify id newQty => exact congrArg Prod.snd (watch.modifyOrder_book id newQty)

theorem run_book (calls : List Call) : (watch.run calls).book = watch.book.run calls := by
  induction calls using List.reverseRecOn with
  | nil => rfl
  | append_singleton past call ih => rw [run_append, OrderBook.run_append, call_book, ih]

end Erasure

end Watch

end OrderEngine
