import OrderEngine.Construction.MemoryPool
import OrderEngine.Library.Scan
import OrderEngine.Library.WhileLoop

namespace OrderEngine

open Library

/-- The book keeps one array of levels on each wing. -/
inductive Wing where
  | bid
  | ask
  deriving DecidableEq, Repr

def Wing.opposite : Wing → Wing
  | .bid => .ask
  | .ask => .bid

/-- The book tests for `Side.buy` and takes every other byte as a sell. -/
def Side.wing (side : Side) : Wing := if side = Side.buy then .bid else .ask

/-- These prices are the indices of the level arrays. -/
def InTicks (price : Int) : Prop := 0 ≤ price ∧ price < kMaxPriceTicks

instance (price : Int) : Decidable (InTicks price) := inferInstanceAs (Decidable (_ ∧ _))

/-- A run records a fault where the program leaves an array or fails to end a loop. -/
inductive Fault where
  | levelIndex (price : Int)
  | endless
  deriving DecidableEq, Repr

/-- A fill takes the same quantity from a resting order and from an aggressor. -/
structure Fill where
  resting : Ptr
  aggressor : Ptr
  quantity : Quantity
  deriving DecidableEq, Repr

/-- These are the members of the book besides its level arrays and its pool. The lists `fills`,
`reports`, `released` and `faults` and the clock record what the members of the class cannot show:
the fills made, the reports the callback received, each slot given back with the free stack at that
time, the faults, and the readings of the time stamp counter. -/
structure BookCore where
  orderMap : Nat → Option Ptr := fun _ => none
  bestBid : Int := kInvalidPrice
  bestAsk : Int := kInvalidPrice
  tradeCb : Bool
  matchCount : UInt64 := 0
  tradeVolume : UInt64 := 0
  clock : Nat → Nanos
  readings : Nat := 0
  fills : List Fill := []
  reports : List TradeReport := []
  released : List (Ptr × List Ptr) := []
  faults : List Fault := []

structure OrderBook extends BookCore where
  buyLevels : Int → LimitLevel
  sellLevels : Int → LimitLevel
  orderPool : MemoryPool Order

/-- The slot of an order spans two cache lines. -/
def orderSlotSize : Nat := 128

def OrderBook.empty (tradeCb : Bool) (clock : Nat → Nanos) : OrderBook where
  tradeCb := tradeCb
  clock := clock
  buyLevels := fun price => { price := price }
  sellLevels := fun price => { price := price }
  orderPool := MemoryPool.init kMaxOrders orderSlotSize {}

/-- The index into the order map is the identifier modulo the map's size. -/
def mapSlot (id : OrderId) : Nat := id.toNat % kMaxOrders

def BookCore.rdtsc (core : BookCore) : Nanos := core.clock core.readings

def BookCore.tick (core : BookCore) : BookCore := { core with readings := core.readings + 1 }

def BookCore.setSlot (core : BookCore) (id : OrderId) (order : Option Ptr) : BookCore :=
  { core with orderMap := Function.update core.orderMap (mapSlot id) order }

def BookCore.count (core : BookCore) (resting aggressor : Ptr) (qty : Quantity) : BookCore :=
  { core with
    matchCount := core.matchCount + 1
    tradeVolume := core.tradeVolume + qty
    fills := core.fills ++ [⟨resting, aggressor, qty⟩] }

/-- The report reads both orders after their quantities were updated. -/
def BookCore.report (core : BookCore) (resting aggressor : OrderData) (qty : Quantity) : BookCore :=
  if core.tradeCb then
    let matchNanos := core.rdtsc
    let report : TradeReport :=
      { buyOrderId := if resting.side = Side.buy then resting.id else aggressor.id
        sellOrderId := if resting.side = Side.buy then aggressor.id else resting.id
        price := resting.price
        quantity := qty
        matchNanos := matchNanos
        latencyCycles :=
          if aggressor.entryNanos > 0 then matchNanos - aggressor.entryNanos else 0 }
    { core.tick with reports := core.reports ++ [report] }
  else core

namespace OrderBook

def order (book : OrderBook) (slot : Ptr) : Order := book.orderPool.slots slot

def level (book : OrderBook) : Wing → Int → LimitLevel
  | .bid => book.buyLevels
  | .ask => book.sellLevels

def setLevel (book : OrderBook) (wing : Wing) (price : Int) (level : LimitLevel) : OrderBook :=
  match wing with
  | .bid => { book with buyLevels := Function.update book.buyLevels price level }
  | .ask => { book with sellLevels := Function.update book.sellLevels price level }

def setSlots (book : OrderBook) (slots : Slots) : OrderBook :=
  { book with orderPool := { book.orderPool with slots := slots } }

/-- An assignment to members of an order leaves its links alone. -/
def setData (book : OrderBook) (slot : Ptr) (data : OrderData) : OrderBook :=
  book.setSlots (Function.update book.orderPool.slots slot
    { book.order slot with toOrderData := data })

def setStatus (book : OrderBook) (slot : Ptr) (status : OrderStatus) : OrderBook :=
  book.setData slot { (book.order slot).toOrderData with status := status }

/-- Every access to a level array goes through this check of the index. -/
def touch (book : OrderBook) (price : Int) : OrderBook :=
  if InTicks price then book
  else { book with faults := book.faults ++ [.levelIndex price] }

def destroy (book : OrderBook) (slot : Ptr) : OrderBook :=
  { book with
    orderPool := book.orderPool.destroy slot
    released := book.released ++ [(slot, book.orderPool.free)] }

def orderCount (book : OrderBook) : Nat := kMaxOrders - book.orderPool.available

/-- When any tick the loop visits lies outside the array, the first one does. -/
def updateBestBid (book : OrderBook) (fromPrice : Int) : OrderBook :=
  let book := if 0 ≤ fromPrice then book.touch fromPrice else book
  { book with
    bestBid := (scan (fun price => !(book.buyLevels price).empty) (-1)
      (fromPrice + 1).toNat fromPrice).getD kInvalidPrice }

def updateBestAsk (book : OrderBook) (fromPrice : Int) : OrderBook :=
  let book := if fromPrice < kMaxPriceTicks then book.touch fromPrice else book
  { book with
    bestAsk := (scan (fun price => !(book.sellLevels price).empty) 1
      (kMaxPriceTicks - fromPrice).toNat fromPrice).getD kInvalidPrice }

/-- The order leaves the level that its own side and price name. -/
def removeFromLevel (book : OrderBook) (slot : Ptr) : OrderBook :=
  let wing := (book.order slot).side.wing
  let price := (book.order slot).price
  let book := book.touch price
  let (level, slots) := (book.level wing price).remove book.orderPool.slots slot
  (book.setLevel wing price level).setSlots slots

def restOrder (book : OrderBook) (slot : Ptr) : OrderBook :=
  let wing := (book.order slot).side.wing
  let price := (book.order slot).price
  let book := book.touch price
  let (level, slots) := (book.level wing price).pushBack book.orderPool.slots slot
  let book := (book.setLevel wing price level).setSlots slots
  match wing with
  | .bid =>
    if book.bestBid = kInvalidPrice ∨ price > book.bestBid then { book with bestBid := price }
    else book
  | .ask =>
    if book.bestAsk = kInvalidPrice ∨ price < book.bestAsk then { book with bestAsk := price }
    else book

def addFilled (book : OrderBook) (slot : Ptr) (qty : Quantity) : OrderBook :=
  book.setData slot { (book.order slot).toOrderData with
    filledQuantity := (book.order slot).filledQuantity + qty }

/-- The level's total loses a quantity while the order stays linked. -/
def deductTotal (book : OrderBook) (slot : Ptr) (qty : Quantity) : OrderBook :=
  let wing := (book.order slot).side.wing
  let price := (book.order slot).price
  let book := book.touch price
  let level := book.level wing price
  book.setLevel wing price { level with totalQuantity := level.totalQuantity - qty }

/-- A filled resting order leaves its level, the order map and the pool. -/
def settleResting (book : OrderBook) (slot : Ptr) : OrderBook :=
  if (book.order slot).filledQuantity ≥ (book.order slot).quantity then
    let book := book.setStatus slot .filled
    let book := book.removeFromLevel slot
    let book := { book with toBookCore := book.setSlot (book.order slot).id none }
    book.destroy slot
  else
    book.setStatus slot .partiallyFilled

/-- A filled aggressor only changes its status. -/
def settleAggressor (book : OrderBook) (slot : Ptr) : OrderBook :=
  if (book.order slot).filledQuantity ≥ (book.order slot).quantity then
    book.setStatus slot .filled
  else
    book.setStatus slot .partiallyFilled

/-- The counters rise, and the callback receives the report when one is installed. -/
def recordTrade (book : OrderBook) (resting aggressor : Ptr) (qty : Quantity) : OrderBook :=
  { book with
    toBookCore := (book.toBookCore.count resting aggressor qty).report (book.order resting).toOrderData
      (book.order aggressor).toOrderData qty }

def fill (book : OrderBook) (resting aggressor : Ptr) (qty : Quantity) : OrderBook :=
  let book := book.addFilled resting qty
  let book := book.addFilled aggressor qty
  let book := book.deductTotal resting qty
  let book := book.settleResting resting
  let book := book.settleAggressor aggressor
  book.recordTrade resting aggressor qty

def hasRemaining (book : OrderBook) (slot : Ptr) : Bool :=
  (book.order slot).quantity > (book.order slot).filledQuantity

def remaining (book : OrderBook) (slot : Ptr) : Quantity :=
  (book.order slot).quantity - (book.order slot).filledQuantity

def markEndless (book : OrderBook) : OrderBook :=
  { book with faults := book.faults ++ [.endless] }

/-- The successor is read before the fill can unlink the resting order. -/
def fillNext (incoming : Ptr) : OrderBook × Option Ptr → OrderBook × Option Ptr
  | (book, none) => (book, none)
  | (book, some resting) =>
    let fillQty := min (book.remaining resting) (book.remaining incoming)
    (book.fill resting incoming fillQty, (book.order resting).next)

/-- The inner loop of `match` walks one level from its oldest order. -/
def walkLevel (book : OrderBook) (incoming : Ptr) (resting : Option Ptr) : OrderBook :=
  (whileLoop (fun state => state.2.isSome && state.1.hasRemaining incoming) (fillNext incoming)
    (fun state => (state.1.markEndless, state.2)) (kMaxOrders + 1) (book, resting)).1

def matchBuyBody (incoming : Ptr) (book : OrderBook) : OrderBook :=
  let best := book.bestAsk
  let book := book.touch best
  if (book.sellLevels best).empty then book.updateBestAsk book.bestAsk
  else
    let book := book.walkLevel incoming (book.sellLevels best).head
    if (book.sellLevels best).empty then book.updateBestAsk book.bestAsk else book

def matchSellBody (incoming : Ptr) (book : OrderBook) : OrderBook :=
  let best := book.bestBid
  let book := book.touch best
  if (book.buyLevels best).empty then book.updateBestBid book.bestBid
  else
    let book := book.walkLevel incoming (book.buyLevels best).head
    if (book.buyLevels best).empty then book.updateBestBid book.bestBid else book

/-- Both outer loops pass over each tick at most once. -/
def «match» (book : OrderBook) (incoming : Ptr) : OrderBook :=
  if (book.order incoming).side = Side.buy then
    whileLoop (fun book => book.bestAsk ≠ kInvalidPrice ∧ book.bestAsk ≤ (book.order incoming).price ∧
      book.hasRemaining incoming) (matchBuyBody incoming) markEndless (kMaxPriceTicks + 1) book
  else
    whileLoop (fun book => book.bestBid ≠ kInvalidPrice ∧ book.bestBid ≥ (book.order incoming).price ∧
      book.hasRemaining incoming) (matchSellBody incoming) markEndless (kMaxPriceTicks + 1) book

def addOrder (book : OrderBook) (msg : OrderMessage) : Option Ptr × OrderBook :=
  match book.orderPool.construct {} with
  | (none, _) => (none, book)
  | (some slot, pool) =>
    let book := { book with orderPool := pool }
    let book := book.setData slot
      { id := msg.orderId
        side := msg.side
        status := .active
        price := msg.price
        quantity := msg.quantity
        filledQuantity := 0
        timestamp := msg.arrivalCycles
        entryNanos := book.rdtsc }
    let book := { book with toBookCore := book.tick.setSlot msg.orderId (some slot) }
    let book := book.match slot
    (some slot, if (book.order slot).status ≠ .filled then book.restOrder slot else book)

/-- Both lookups refuse another identifier and an order that is no longer live. -/
def findLive (book : OrderBook) (id : OrderId) : Option Ptr :=
  match book.orderMap (mapSlot id) with
  | none => none
  | some slot =>
    if (book.order slot).id ≠ id then none
    else if (book.order slot).status ≠ .active ∧ (book.order slot).status ≠ .partiallyFilled then none
    else some slot

/-- The rescan after a cancel tests the two sides one by one, so another byte skips it. -/
def rescanAfterCancel (book : OrderBook) (slot : Ptr) : OrderBook :=
  let side := (book.order slot).side
  let price := (book.order slot).price
  if (book.level side.wing price).empty then
    if side = Side.buy ∧ price = book.bestBid then book.updateBestBid book.bestBid
    else if side = Side.sell ∧ price = book.bestAsk then book.updateBestAsk book.bestAsk
    else book
  else book

def cancelOrder (book : OrderBook) (id : OrderId) : Bool × OrderBook :=
  match book.findLive id with
  | none => (false, book)
  | some slot =>
    let book := book.setStatus slot .cancelled
    let book := { book with toBookCore := book.setSlot id none }
    let book := book.removeFromLevel slot
    let book := book.rescanAfterCancel slot
    (true, book.destroy slot)

/-- A larger quantity cancels the order and adds it again, so it loses its place. -/
def modifyOrder (book : OrderBook) (id : OrderId) (newQty : Quantity) : Option Ptr × OrderBook :=
  match book.findLive id with
  | none => (none, book)
  | some slot =>
    if newQty ≤ book.remaining slot then
      let book := book.deductTotal slot (book.remaining slot - newQty)
      (some slot, book.setData slot { (book.order slot).toOrderData with
        quantity := (book.order slot).filledQuantity + newQty })
    else
      let book := (book.cancelOrder id).2
      let msg : OrderMessage :=
        { action := .add
          side := (book.order slot).side
          orderId := id
          price := (book.order slot).price
          quantity := newQty
          arrivalCycles := book.rdtsc }
      { book with toBookCore := book.tick }.addOrder msg

end OrderBook

end OrderEngine
