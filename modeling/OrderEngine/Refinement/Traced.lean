import OrderEngine.Refinement.Strays

namespace OrderEngine

open Library

namespace OrderBook

section Best

variable (book : OrderBook) (wing : Wing) (price : Int)

@[simp] theorem touch_released : (book.touch price).released = book.released := by
  unfold touch
  split <;> rfl

@[simp] theorem touch_tradeCb : (book.touch price).tradeCb = book.tradeCb := by
  unfold touch
  split <;> rfl

/-- A scan for the best price changes that price and the faults. -/
theorem updateBest_keeps {Field : Type} (field : OrderBook → Field)
    (touched : ∀ book price, field (OrderBook.touch book price) = field book)
    (moved : ∀ (book : OrderBook) wing price,
      field { book with toBookCore := book.setBest wing price } = field book) :
    field (book.updateBest wing price) = field book := by
  cases wing with
  | bid =>
      apply (moved _ .bid _).trans
      split
      · exact touched book price
      · rfl
  | ask =>
      apply (moved _ .ask _).trans
      split
      · exact touched book price
      · rfl

@[simp] theorem updateBest_released : (book.updateBest wing price).released = book.released :=
  book.updateBest_keeps wing price (fun book => book.released) touch_released fun _ wing _ => by cases wing <;> rfl

@[simp] theorem updateBest_tradeCb : (book.updateBest wing price).tradeCb = book.tradeCb :=
  book.updateBest_keeps wing price (fun book => book.tradeCb) touch_tradeCb fun _ wing _ => by cases wing <;> rfl

@[simp] theorem updateBest_free : (book.updateBest wing price).orderPool.free = book.orderPool.free :=
  book.updateBest_keeps wing price (fun book => book.orderPool.free)
    (fun book price => congrArg MemoryPool.free (book.touch_orderPool price)) fun _ _ _ => rfl

@[simp] theorem rescanAfterCancel_free (slot : Ptr) :
    (book.rescanAfterCancel slot).orderPool.free = book.orderPool.free := by
  simp only [rescanAfterCancel]
  split
  · split
    · exact book.updateBest_free .bid _
    · split
      · exact book.updateBest_free .ask _
      · rfl
  · rfl

end Best

end OrderBook

namespace Watch

/-- The strays since some point of the run are the orders released since then to a book that reports
its trades. -/
structure Traced (before : List Ptr) (count : Nat) (watch : Watch) : Prop where
  grown : count ≤ watch.book.released.length
  strays_eq : watch.strays =
    before ++ if watch.book.tradeCb then (watch.book.released.drop count).map Prod.fst else []

variable {watch : Watch} {ledger now : Ledger} {before : List Ptr} {count left : Nat}
  {incoming resting : Ptr} {qty : Quantity}

theorem Traced.update (traced : Traced before count watch) {effect : OrderBook → OrderBook}
    (released : (effect watch.book).released = watch.book.released)
    (tradeCb : (effect watch.book).tradeCb = watch.book.tradeCb) : Traced before count (watch.update effect) where
  grown := by
    rw [update_book, released]
    exact traced.grown
  strays_eq := by
    rw [update_book, released, tradeCb]
    exact traced.strays_eq

/-- A completed order is released and, when its trade is reported, used once more. -/
theorem Traced.fill (traced : Traced before count watch) (same : Represents watch.book ledger)
    (inv : ledger.Inv (some incoming)) (linked : ledger.Linked resting)
    (whole : (ledger.data resting).completedBy qty →
      (ledger.data resting).filledQuantity + qty = (ledger.data resting).quantity) :
    Traced before count (watch.fill resting incoming qty) := by
  have different : resting ≠ incoming := (inv.arrived rfl).ne linked
  have filled := same.fill inv.toShelved different linked (inv.inTicks linked) whole
  have released : (watch.fill resting incoming qty).book.released =
      if (ledger.data resting).completedBy qty then ledger.released ++ [(resting, ledger.free)]
      else ledger.released := by
    rw [fill_book, filled.core, Ledger.fill_released]
  have tradeCb : (watch.fill resting incoming qty).book.tradeCb = ledger.tradeCb := by
    rw [fill_book, filled.core, Ledger.fill_tradeCb]
  obtain ⟨grown, strays⟩ := traced
  rw [same.core] at grown strays
  constructor
  · rw [released]
    split
    · rw [List.length_append]
      exact grown.trans (Nat.le_add_right _ _)
    · exact grown
  · rw [fill_strays same inv linked whole, released, tradeCb, strays]
    by_cases full : (ledger.data resting).completedBy qty
    · cases ledger.tradeCb with
      | false => simp
      | true => simp [full, List.drop_append_of_le_length grown]
    · rw [if_neg fun both => full both.2, if_neg full]

theorem inspect_of_held (held : incoming ∉ watch.book.orderPool.free) (resting : Option Ptr) :
    watch.inspect incoming resting = watch := by
  cases resting with
  | none => rfl
  | some slot => exact use_of_held held

theorem compare_of_held (held : incoming ∉ watch.book.orderPool.free) (best : Int) :
    watch.compare incoming best = watch := by
  unfold compare
  split
  · rfl
  · exact use_of_held held

theorem held_of_arrived (same : Represents watch.book ledger) (inv : ledger.Inv (some incoming)) :
    incoming ∉ watch.book.orderPool.free := by
  rw [same.free]
  exact (inv.arrived rfl).used.2

/-- A round of the inner loop uses the two orders of its fill and nothing else. -/
theorem Traced.fillNext {cursor : Option Ptr} (traced : Traced before count watch)
    (walking : Walking incoming ledger left (watch.book, cursor) now)
    (valid : ledger.best (ledger.facing incoming) ≠ kInvalidPrice)
    (behind : (ledger.facing incoming).rank (ledger.best (ledger.facing incoming)) ≤
      (ledger.facing incoming).rank (ledger.price incoming))
    (going : (cursor.isSome && watch.book.hasRemaining incoming) = true) :
    Traced before count (Watch.fillNext incoming (watch, cursor)).1 := by
  obtain ⟨smaller, after, less, onward⟩ := walking.next valid behind going
  obtain ⟨resting, rest, rfl, -, head⟩ := walking.head going
  have linked := (Ledger.head_linked walking.inv.toShelved head).1
  have fits := word_min_le (now.data resting).remaining (now.data incoming).remaining
  have own : resting ∉ watch.book.orderPool.free := (walking.same.attached walking.inv linked).own
  have held : incoming ∉ watch.book.orderPool.free := held_of_arrived walking.same walking.inv
  have filled := traced.fill walking.same walking.inv linked
    ((OrderData.completedBy_iff (walking.inv.filledLe linked) fits.1).mp)
  rw [← walking.same.remaining_eq, ← walking.same.remaining_eq] at filled
  simp only [Watch.fillNext, use_of_held own, use_of_held held]
  rw [inspect_of_held]
  · exact filled
  · apply held_of_arrived _ onward.inv
    rw [fill_book]
    exact onward.same

/-- The inner loop uses the incoming order and the orders of one level. -/
theorem Traced.walkLevel (traced : Traced before count watch) (same : Represents watch.book ledger)
    (inv : ledger.Inv (some incoming)) (valid : ledger.best (ledger.facing incoming) ≠ kInvalidPrice)
    (behind : (ledger.facing incoming).rank (ledger.best (ledger.facing incoming)) ≤
      (ledger.facing incoming).rank (ledger.price incoming)) :
    Traced before count (watch.walkLevel incoming
      (watch.book.level (ledger.facing incoming) (ledger.best (ledger.facing incoming))).head) := by
  obtain ⟨bound, enough, start⟩ := same.walking inv
  unfold Watch.walkLevel
  rw [inspect_of_held (held_of_arrived same inv)]
  refine whileLoop_follow (fun state : Watch × Option Ptr => (state.1.book, state.2)) (fillNext_view incoming)
    (fun left state => ∃ now, Walking incoming ledger left state now) (fun state => Traced before count state.1) ?_
    enough ⟨ledger, start⟩ traced
  rintro left state ⟨now, walking⟩ going traced
  obtain ⟨smaller, after, less, onward⟩ := walking.next valid behind going
  exact ⟨⟨smaller, less, after, onward⟩, traced.fillNext walking valid behind going⟩

/-- Both branches of the watched match do the same on their own wings. -/
def sweepLevel (wing : Wing) (incoming : Ptr) (watch : Watch) : Watch :=
  let best := watch.book.best wing
  let watch := watch.update fun book => book.touch best
  if (watch.book.level wing best).empty then watch.update fun book => book.updateBest wing (book.best wing)
  else
    let watch := watch.walkLevel incoming (watch.book.level wing best).head
    if (watch.book.level wing best).empty then watch.update fun book => book.updateBest wing (book.best wing)
    else watch

def matchBody (wing : Wing) (incoming : Ptr) (watch : Watch) : Watch :=
  let watch := watch.sweepLevel wing incoming
  watch.compare incoming (watch.book.best wing)

@[simp] theorem sweepLevel_book (wing : Wing) :
    (watch.sweepLevel wing incoming).book = OrderBook.matchBody wing incoming watch.book := by
  simp only [sweepLevel, OrderBook.matchBody, apply_ite Watch.book, update_book, walkLevel_book]

theorem match_eq (watch : Watch) (incoming : Ptr) : watch.match incoming =
    whileLoop (fun state => state.book.crosses (watch.book.order incoming).side.wing.opposite incoming)
      (matchBody (watch.book.order incoming).side.wing.opposite incoming)
      (fun state => state.update OrderBook.markEndless) (kMaxPriceTicks + 1)
      ((watch.use incoming).compare incoming (watch.book.best (watch.book.order incoming).side.wing.opposite)) := by
  by_cases buy : (watch.book.order incoming).side = Side.buy
  · simp only [Watch.match, use_book, Side.wing, if_pos buy]
    rfl
  · simp only [Watch.match, use_book, Side.wing, if_neg buy, Wing.opposite, OrderBook.crosses_bid]
    rfl

/-- A round of the outer loop uses the orders of its level only. -/
theorem Traced.sweepLevel (traced : Traced before count watch) (sweeping : Sweeping incoming ledger left watch.book now)
    (going : watch.book.crosses (ledger.facing incoming) incoming = true) :
    Traced before count (watch.sweepLevel (ledger.facing incoming) incoming) := by
  have facing := sweeping.run.facing_eq
  obtain ⟨valid, behind, unfilled⟩ := sweeping.same.crosses_iff.mp (facing ▸ going)
  have touched : (watch.update fun book => book.touch (watch.book.best (ledger.facing incoming))) = watch := by
    rw [Watch.update, sweeping.same.best_eq, ← facing, OrderBook.touch_of_inTicks (sweeping.inv.bestInTicks valid)]
  have walked := traced.walkLevel sweeping.same sweeping.inv valid behind
  rw [facing, ← sweeping.same.best_eq] at walked
  simp only [Watch.sweepLevel, touched]
  split
  · exact traced.update (by simp) (by simp)
  · split
    · exact walked.update (by simp) (by simp)
    · exact walked

theorem Traced.matchBody (traced : Traced before count watch) (sweeping : Sweeping incoming ledger left watch.book now)
    (going : watch.book.crosses (ledger.facing incoming) incoming = true) :
    Traced before count (watch.matchBody (ledger.facing incoming) incoming) := by
  obtain ⟨smaller, after, less, onward⟩ := sweeping.next going
  rw [← sweepLevel_book] at onward
  rw [Watch.matchBody, compare_of_held (held_of_arrived onward.same onward.inv)]
  exact traced.sweepLevel sweeping going

/-- The strays of a whole match are the orders that it completes and whose trades it reports. -/
theorem Traced.match (traced : Traced before count watch) (same : Represents watch.book ledger)
    (inv : ledger.Inv (some incoming)) : Traced before count (watch.match incoming) := by
  obtain ⟨bound, enough, start⟩ := same.sweeping inv
  have held := held_of_arrived same inv
  have wing : (watch.book.order incoming).side.wing.opposite = ledger.facing incoming := by
    rw [same.wing_eq]
    rfl
  rw [match_eq, wing, use_of_held held, compare_of_held held]
  have bodies (watch : Watch) : (watch.matchBody (ledger.facing incoming) incoming).book =
      OrderBook.matchBody (ledger.facing incoming) incoming watch.book := by
    rw [Watch.matchBody, compare_book, sweepLevel_book]
  refine whileLoop_follow Watch.book bodies (fun left book => ∃ now, Sweeping incoming ledger left book now)
    (Traced before count) ?_ enough ⟨ledger, start⟩ traced
  rintro left watch ⟨now, sweeping⟩ going traced
  obtain ⟨smaller, after, less, onward⟩ := sweeping.next going
  exact ⟨⟨smaller, less, after, onward⟩, traced.matchBody sweeping going⟩

end Watch

end OrderEngine
