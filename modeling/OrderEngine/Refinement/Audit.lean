import OrderEngine.Construction.Audit
import OrderEngine.Refinement.Orders

namespace OrderEngine

open Library

namespace Audit

section Erasure

variable (audit : Audit)

@[simp] theorem note_book (operation : Arithmetic) : (audit.note operation).book = audit.book := rfl

@[simp] theorem noteRemaining_book (slot : Ptr) : (audit.noteRemaining slot).book = audit.book := rfl

@[simp] theorem update_book (effect : OrderBook → OrderBook) :
    (audit.update effect).book = effect audit.book := rfl

@[simp] theorem removeFromLevel_book (slot : Ptr) :
    (audit.removeFromLevel slot).book = audit.book.removeFromLevel slot := rfl

@[simp] theorem addFilled_book (slot : Ptr) (qty : Quantity) :
    (audit.addFilled slot qty).book = audit.book.addFilled slot qty := rfl

@[simp] theorem settleResting_book (slot : Ptr) :
    (audit.settleResting slot).book = audit.book.settleResting slot := by
  simp only [settleResting, OrderBook.settleResting]
  split <;> rfl

@[simp] theorem fill_book (resting aggressor : Ptr) (qty : Quantity) :
    (audit.fill resting aggressor qty).book = audit.book.fill resting aggressor qty := by
  simp [fill, OrderBook.fill]

/-- The audited inner loop takes the rounds of the inner loop. -/
theorem fillNext_view (incoming : Ptr) (state : Audit × Option Ptr) :
    ((fillNext incoming state).1.book, (fillNext incoming state).2) =
      OrderBook.fillNext incoming (state.1.book, state.2) := by
  obtain ⟨audit, resting⟩ := state
  cases resting with
  | none => rfl
  | some resting => simp [fillNext, OrderBook.fillNext]

@[simp] theorem walkLevel_book (incoming : Ptr) (resting : Option Ptr) :
    (audit.walkLevel incoming resting).book = audit.book.walkLevel incoming resting := by
  unfold walkLevel OrderBook.walkLevel
  generalize kMaxOrders + 1 = fuel
  have view := @whileLoop_view _ (fun state => state.2.isSome && state.1.book.hasRemaining incoming)
    (fillNext incoming) (fun state => (state.1.update OrderBook.markEndless, state.2)) _
    (fun state => state.2.isSome && state.1.hasRemaining incoming) (OrderBook.fillNext incoming)
    (fun state => (state.1.markEndless, state.2)) (fun state => (state.1.book, state.2))
    (fun _ => rfl) (fillNext_view incoming) (fun _ => rfl) fuel (audit, resting)
  exact congrArg Prod.fst view

/-- Both branches of the audited match do the same on their own wings. -/
def matchBody (wing : Wing) (incoming : Ptr) (audit : Audit) : Audit :=
  let best := audit.book.best wing
  let audit := audit.update fun book => book.touch best
  if (audit.book.level wing best).empty then audit.update fun book => book.updateBest wing (book.best wing)
  else
    let audit := audit.walkLevel incoming (audit.book.level wing best).head
    if (audit.book.level wing best).empty then audit.update fun book => book.updateBest wing (book.best wing)
    else audit

@[simp] theorem matchBody_book (wing : Wing) (incoming : Ptr) :
    (matchBody wing incoming audit).book = OrderBook.matchBody wing incoming audit.book := by
  simp only [matchBody, OrderBook.matchBody, apply_ite Audit.book, update_book, walkLevel_book]

theorem match_eq (incoming : Ptr) : audit.match incoming =
    whileLoop (fun state => state.book.crosses (audit.book.order incoming).side.wing.opposite incoming)
      (matchBody (audit.book.order incoming).side.wing.opposite incoming)
      (fun state => state.update OrderBook.markEndless) (kMaxPriceTicks + 1) audit := by
  by_cases buy : (audit.book.order incoming).side = Side.buy
  · simp only [Audit.match, Side.wing, if_pos buy]
    rfl
  · simp only [Audit.match, Side.wing, if_neg buy, Wing.opposite, OrderBook.crosses_bid]
    rfl

@[simp] theorem match_book (incoming : Ptr) : (audit.match incoming).book = audit.book.match incoming := by
  rw [match_eq, OrderBook.match_eq]
  generalize kMaxPriceTicks + 1 = fuel
  exact whileLoop_view Audit.book (fun _ => rfl) (fun audit => audit.matchBody_book _ incoming) (fun _ => rfl)
    fuel audit

theorem addOrder_book (msg : OrderMessage) :
    ((audit.addOrder msg).1, (audit.addOrder msg).2.book) = audit.book.addOrder msg := by
  unfold addOrder OrderBook.addOrder
  rcases audit.book.orderPool.construct {} with ⟨_ | slot, pool⟩
  · rfl
  · simp only [apply_ite Audit.book, match_book, update_book]

theorem cancelOrder_book (id : OrderId) :
    ((audit.cancelOrder id).1, (audit.cancelOrder id).2.book) = audit.book.cancelOrder id := by
  unfold cancelOrder OrderBook.cancelOrder
  cases audit.book.findLive id with
  | none => rfl
  | some slot => rfl

theorem modifyOrder_book (id : OrderId) (newQty : Quantity) :
    ((audit.modifyOrder id newQty).1, (audit.modifyOrder id newQty).2.book) =
      audit.book.modifyOrder id newQty := by
  unfold modifyOrder OrderBook.modifyOrder
  cases audit.book.findLive id with
  | none => rfl
  | some slot =>
      dsimp only
      by_cases fits : newQty ≤ audit.book.remaining slot
      · have same : newQty ≤ (audit.noteRemaining slot).book.remaining slot := fits
        rw [if_pos fits, if_pos same]
        rfl
      · have same : ¬ newQty ≤ (audit.noteRemaining slot).book.remaining slot := fits
        rw [if_neg fits, if_neg same]
        have cancelled : ((audit.noteRemaining slot).cancelOrder id).2.book = (audit.book.cancelOrder id).2 :=
          congrArg Prod.snd ((audit.noteRemaining slot).cancelOrder_book id)
        rw [addOrder_book, update_book, cancelled]

/-- The audit does to its book what the call does to the book alone. -/
theorem call_book (call : Call) : (audit.call call).book = (audit.book.call call).2 := by
  cases call with
  | add msg => exact congrArg Prod.snd (audit.addOrder_book msg)
  | cancel id => exact congrArg Prod.snd (audit.cancelOrder_book id)
  | modify id newQty => exact congrArg Prod.snd (audit.modifyOrder_book id newQty)

theorem run_book (calls : List Call) : (audit.run calls).book = audit.book.run calls := by
  induction calls using List.reverseRecOn with
  | nil => rfl
  | append_singleton past call ih => rw [run_append, OrderBook.run_append, call_book, ih]

end Erasure

end Audit

end OrderEngine
