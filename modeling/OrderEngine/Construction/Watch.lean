import OrderEngine.Construction.Calls

namespace OrderEngine

open Library

/-- A slot is released from the moment the book gives it back until the pool hands it out again. -/
def OrderBook.Released (book : OrderBook) (slot : Ptr) : Prop :=
  slot ∈ book.released.map Prod.fst ∧ slot ∈ book.orderPool.free

instance (book : OrderBook) (slot : Ptr) : Decidable (book.Released slot) :=
  inferInstanceAs (Decidable (_ ∧ _))

/-- The watch runs the operations of a book and notes each use of an order whose slot is released. -/
structure Watch where
  book : OrderBook
  strays : List Ptr := []

namespace Watch

/-- A statement reads or writes members of an order. -/
def use (watch : Watch) (slot : Ptr) : Watch :=
  if watch.book.Released slot then { watch with strays := watch.strays ++ [slot] } else watch

def useLink (watch : Watch) : Option Ptr → Watch
  | none => watch
  | some slot => watch.use slot

/-- The uses of a statement are noted before its effect on the book. -/
def update (watch : Watch) (effect : OrderBook → OrderBook) : Watch :=
  { watch with book := effect watch.book }

/-- An order that leaves its level also writes the links of its neighbours. -/
def removeFromLevel (watch : Watch) (slot : Ptr) : Watch :=
  let watch := watch.use slot
  let watch := watch.useLink (watch.book.order slot).prev
  let watch := watch.useLink (watch.book.order slot).next
  watch.update fun book => book.removeFromLevel slot

/-- An order that joins a level also writes the link of the level's last order. -/
def restOrder (watch : Watch) (slot : Ptr) : Watch :=
  let watch := watch.use slot
  let level := watch.book.level (watch.book.order slot).side.wing (watch.book.order slot).price
  let watch := watch.useLink level.tail
  watch.update fun book => book.restOrder slot

/-- The destructor still runs in a slot that is not released. -/
def destroy (watch : Watch) (slot : Ptr) : Watch :=
  (watch.use slot).update fun book => book.destroy slot

def settleResting (watch : Watch) (slot : Ptr) : Watch :=
  let watch := watch.use slot
  if (watch.book.order slot).filledQuantity ≥ (watch.book.order slot).quantity then
    let watch := (watch.use slot).update fun book => book.setStatus slot .filled
    let watch := watch.removeFromLevel slot
    let watch := (watch.use slot).update fun book =>
      { book with toBookCore := book.setSlot (book.order slot).id none }
    watch.destroy slot
  else
    (watch.use slot).update fun book => book.setStatus slot .partiallyFilled

/-- The report reads both orders, and it is built only for a callback. -/
def recordTrade (watch : Watch) (resting aggressor : Ptr) (qty : Quantity) : Watch :=
  let watch := if watch.book.tradeCb then (watch.use resting).use aggressor else watch
  watch.update fun book => book.recordTrade resting aggressor qty

def fill (watch : Watch) (resting aggressor : Ptr) (qty : Quantity) : Watch :=
  let watch := (watch.use resting).update fun book => book.addFilled resting qty
  let watch := (watch.use aggressor).update fun book => book.addFilled aggressor qty
  let watch := (watch.use resting).update fun book => book.deductTotal resting qty
  let watch := watch.settleResting resting
  let watch := (watch.use aggressor).update fun book => book.settleAggressor aggressor
  watch.recordTrade resting aggressor qty

/-- The condition of the inner loop reads the incoming order when there is a resting one. -/
def inspect (watch : Watch) (incoming : Ptr) : Option Ptr → Watch
  | none => watch
  | some _ => watch.use incoming

def fillNext (incoming : Ptr) : Watch × Option Ptr → Watch × Option Ptr
  | (watch, none) => (watch, none)
  | (watch, some resting) =>
    let watch := (watch.use resting).use incoming
    let fillQty := min (watch.book.remaining resting) (watch.book.remaining incoming)
    let watch := watch.use resting
    let next := (watch.book.order resting).next
    ((watch.fill resting incoming fillQty).inspect incoming next, next)

def walkLevel (watch : Watch) (incoming : Ptr) (resting : Option Ptr) : Watch :=
  (whileLoop (fun state => state.2.isSome && state.1.book.hasRemaining incoming) (fillNext incoming)
    (fun state => (state.1.update OrderBook.markEndless, state.2)) (kMaxOrders + 1)
    (watch.inspect incoming resting, resting)).1

/-- The condition of the outer loops reads the incoming order when there is a best price. -/
def compare (watch : Watch) (incoming : Ptr) (best : Int) : Watch :=
  if best = kInvalidPrice then watch else watch.use incoming

def matchBuyBody (incoming : Ptr) (watch : Watch) : Watch :=
  let best := watch.book.bestAsk
  let watch := watch.update fun book => book.touch best
  let watch :=
    if (watch.book.sellLevels best).empty then watch.update fun book => book.updateBestAsk book.bestAsk
    else
      let watch := watch.walkLevel incoming (watch.book.sellLevels best).head
      if (watch.book.sellLevels best).empty then watch.update fun book => book.updateBestAsk book.bestAsk
      else watch
  watch.compare incoming watch.book.bestAsk

def matchSellBody (incoming : Ptr) (watch : Watch) : Watch :=
  let best := watch.book.bestBid
  let watch := watch.update fun book => book.touch best
  let watch :=
    if (watch.book.buyLevels best).empty then watch.update fun book => book.updateBestBid book.bestBid
    else
      let watch := watch.walkLevel incoming (watch.book.buyLevels best).head
      if (watch.book.buyLevels best).empty then watch.update fun book => book.updateBestBid book.bestBid
      else watch
  watch.compare incoming watch.book.bestBid

def «match» (watch : Watch) (incoming : Ptr) : Watch :=
  let watch := watch.use incoming
  if (watch.book.order incoming).side = Side.buy then
    whileLoop (fun watch => watch.book.bestAsk ≠ kInvalidPrice ∧
        watch.book.bestAsk ≤ (watch.book.order incoming).price ∧ watch.book.hasRemaining incoming)
      (matchBuyBody incoming) (fun watch => watch.update OrderBook.markEndless) (kMaxPriceTicks + 1)
      (watch.compare incoming watch.book.bestAsk)
  else
    whileLoop (fun watch => watch.book.bestBid ≠ kInvalidPrice ∧
        watch.book.bestBid ≥ (watch.book.order incoming).price ∧ watch.book.hasRemaining incoming)
      (matchSellBody incoming) (fun watch => watch.update OrderBook.markEndless) (kMaxPriceTicks + 1)
      (watch.compare incoming watch.book.bestBid)

def addOrder (watch : Watch) (msg : OrderMessage) : Option Ptr × Watch :=
  match watch.book.orderPool.construct {} with
  | (none, _) => (none, watch)
  | (some slot, pool) =>
    let watch := watch.update fun book => { book with orderPool := pool }
    let watch := (watch.use slot).update fun book => book.setData slot
      { id := msg.orderId
        side := msg.side
        status := .active
        price := msg.price
        quantity := msg.quantity
        filledQuantity := 0
        timestamp := msg.arrivalCycles
        entryNanos := book.rdtsc }
    let watch := watch.update fun book => { book with toBookCore := book.tick.setSlot msg.orderId (some slot) }
    let watch := watch.match slot
    let watch := watch.use slot
    (some slot, if (watch.book.order slot).status ≠ .filled then watch.restOrder slot else watch)

/-- Both lookups read the order that the map holds. -/
def lookup (watch : Watch) (id : OrderId) : Watch := watch.useLink (watch.book.orderMap (mapSlot id))

def cancelOrder (watch : Watch) (id : OrderId) : Bool × Watch :=
  let watch := watch.lookup id
  match watch.book.findLive id with
  | none => (false, watch)
  | some slot =>
    let watch := (watch.use slot).update fun book => book.setStatus slot .cancelled
    let watch := watch.update fun book => { book with toBookCore := book.setSlot id none }
    let watch := watch.removeFromLevel slot
    let level := watch.book.level (watch.book.order slot).side.wing (watch.book.order slot).price
    let watch := (if level.empty then watch.use slot else watch).update fun book => book.rescanAfterCancel slot
    (true, watch.destroy slot)

def modifyOrder (watch : Watch) (id : OrderId) (newQty : Quantity) : Option Ptr × Watch :=
  let watch := watch.lookup id
  match watch.book.findLive id with
  | none => (none, watch)
  | some slot =>
    let watch := watch.use slot
    if newQty ≤ watch.book.remaining slot then
      let watch := (watch.use slot).update fun book => book.deductTotal slot (book.remaining slot - newQty)
      (some slot, (watch.use slot).update fun book => book.setData slot { (book.order slot).toOrderData with
        quantity := (book.order slot).filledQuantity + newQty })
    else
      let watch := (watch.cancelOrder id).2
      let watch := watch.use slot
      let msg : OrderMessage :=
        { action := .add
          side := (watch.book.order slot).side
          orderId := id
          price := (watch.book.order slot).price
          quantity := newQty
          arrivalCycles := watch.book.rdtsc }
      (watch.update fun book => { book with toBookCore := book.tick }).addOrder msg

def call (watch : Watch) : Call → Watch
  | .add msg => (watch.addOrder msg).2
  | .cancel id => (watch.cancelOrder id).2
  | .modify id newQty => (watch.modifyOrder id newQty).2

def run (watch : Watch) (calls : List Call) : Watch := calls.foldl call watch

theorem run_append (watch : Watch) (past : List Call) (call : Call) :
    watch.run (past ++ [call]) = (watch.run past).call call := by
  simp [run]

end Watch

end OrderEngine
