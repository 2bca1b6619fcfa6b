import OrderEngine.Construction.Calls

namespace OrderEngine

open Library

/-- These are the unsigned operations on the quantities of an order. -/
inductive Arithmetic where
  | difference (minuend subtrahend : Quantity)
  | sum (first second : Quantity)
  deriving DecidableEq, Repr

/-- The result of an exact operation does not wrap. -/
def Arithmetic.Exact : Arithmetic → Prop
  | .difference minuend subtrahend => subtrahend ≤ minuend
  | .sum first second => first.toNat + second.toNat < 2 ^ 64

/-- The audit runs the operations of a book. It notes the operations on the quantities of orders and the books that
it passes. -/
structure Audit where
  book : OrderBook
  noted : List Arithmetic := []
  passed : List OrderBook := []

namespace Audit

def note (audit : Audit) (operation : Arithmetic) : Audit :=
  { audit with noted := audit.noted ++ [operation] }

/-- Each statement that changes the book passes one more book. -/
def update (audit : Audit) (effect : OrderBook → OrderBook) : Audit :=
  { audit with book := effect audit.book, passed := audit.passed ++ [effect audit.book] }

/-- A statement computes what remains of an order. -/
def noteRemaining (audit : Audit) (slot : Ptr) : Audit :=
  audit.note (.difference (audit.book.order slot).quantity (audit.book.order slot).filledQuantity)

/-- A level that loses an order computes what remains of it. -/
def removeFromLevel (audit : Audit) (slot : Ptr) : Audit :=
  (audit.noteRemaining slot).update fun book => book.removeFromLevel slot

def addFilled (audit : Audit) (slot : Ptr) (qty : Quantity) : Audit :=
  (audit.note (.sum (audit.book.order slot).filledQuantity qty)).update fun book => book.addFilled slot qty

def settleResting (audit : Audit) (slot : Ptr) : Audit :=
  if (audit.book.order slot).filledQuantity ≥ (audit.book.order slot).quantity then
    let audit := audit.update fun book => book.setStatus slot .filled
    let audit := audit.removeFromLevel slot
    let audit := audit.update fun book => { book with toBookCore := book.setSlot (book.order slot).id none }
    audit.update fun book => book.destroy slot
  else
    audit.update fun book => book.setStatus slot .partiallyFilled

def fill (audit : Audit) (resting aggressor : Ptr) (qty : Quantity) : Audit :=
  let audit := audit.addFilled resting qty
  let audit := audit.addFilled aggressor qty
  let audit := audit.update fun book => book.deductTotal resting qty
  let audit := audit.settleResting resting
  let audit := audit.update fun book => book.settleAggressor aggressor
  audit.update fun book => book.recordTrade resting aggressor qty

def fillNext (incoming : Ptr) : Audit × Option Ptr → Audit × Option Ptr
  | (audit, none) => (audit, none)
  | (audit, some resting) =>
    let fillQty := min (audit.book.remaining resting) (audit.book.remaining incoming)
    let next := (audit.book.order resting).next
    (((audit.noteRemaining resting).noteRemaining incoming).fill resting incoming fillQty, next)

def walkLevel (audit : Audit) (incoming : Ptr) (resting : Option Ptr) : Audit :=
  (whileLoop (fun state => state.2.isSome && state.1.book.hasRemaining incoming) (fillNext incoming)
    (fun state => (state.1.update OrderBook.markEndless, state.2)) (kMaxOrders + 1) (audit, resting)).1

def matchBuyBody (incoming : Ptr) (audit : Audit) : Audit :=
  let best := audit.book.bestAsk
  let audit := audit.update fun book => book.touch best
  if (audit.book.sellLevels best).empty then audit.update fun book => book.updateBestAsk book.bestAsk
  else
    let audit := audit.walkLevel incoming (audit.book.sellLevels best).head
    if (audit.book.sellLevels best).empty then audit.update fun book => book.updateBestAsk book.bestAsk
    else audit

def matchSellBody (incoming : Ptr) (audit : Audit) : Audit :=
  let best := audit.book.bestBid
  let audit := audit.update fun book => book.touch best
  if (audit.book.buyLevels best).empty then audit.update fun book => book.updateBestBid book.bestBid
  else
    let audit := audit.walkLevel incoming (audit.book.buyLevels best).head
    if (audit.book.buyLevels best).empty then audit.update fun book => book.updateBestBid book.bestBid
    else audit

def «match» (audit : Audit) (incoming : Ptr) : Audit :=
  if (audit.book.order incoming).side = Side.buy then
    whileLoop (fun audit => audit.book.bestAsk ≠ kInvalidPrice ∧
        audit.book.bestAsk ≤ (audit.book.order incoming).price ∧ audit.book.hasRemaining incoming)
      (matchBuyBody incoming) (fun audit => audit.update OrderBook.markEndless) (kMaxPriceTicks + 1) audit
  else
    whileLoop (fun audit => audit.book.bestBid ≠ kInvalidPrice ∧
        audit.book.bestBid ≥ (audit.book.order incoming).price ∧ audit.book.hasRemaining incoming)
      (matchSellBody incoming) (fun audit => audit.update OrderBook.markEndless) (kMaxPriceTicks + 1) audit

def addOrder (audit : Audit) (msg : OrderMessage) : Option Ptr × Audit :=
  match audit.book.orderPool.construct {} with
  | (none, _) => (none, audit)
  | (some slot, pool) =>
    let audit := audit.update fun book => { book with orderPool := pool }
    let audit := audit.update fun book => book.setData slot
      { id := msg.orderId
        side := msg.side
        status := .active
        price := msg.price
        quantity := msg.quantity
        filledQuantity := 0
        timestamp := msg.arrivalCycles
        entryNanos := book.rdtsc }
    let audit := audit.update fun book => { book with toBookCore := book.tick.setSlot msg.orderId (some slot) }
    let audit := audit.match slot
    (some slot,
      if (audit.book.order slot).status ≠ .filled then audit.update fun book => book.restOrder slot else audit)

def cancelOrder (audit : Audit) (id : OrderId) : Bool × Audit :=
  match audit.book.findLive id with
  | none => (false, audit)
  | some slot =>
    let audit := audit.update fun book => book.setStatus slot .cancelled
    let audit := audit.update fun book => { book with toBookCore := book.setSlot id none }
    let audit := audit.removeFromLevel slot
    let audit := audit.update fun book => book.rescanAfterCancel slot
    (true, audit.update fun book => book.destroy slot)

/-- A smaller quantity takes the lost part from the level's total and is added to what is filled. -/
def modifyOrder (audit : Audit) (id : OrderId) (newQty : Quantity) : Option Ptr × Audit :=
  match audit.book.findLive id with
  | none => (none, audit)
  | some slot =>
    let audit := audit.noteRemaining slot
    if newQty ≤ audit.book.remaining slot then
      let audit := audit.note (.difference (audit.book.remaining slot) newQty)
      let audit := audit.update fun book => book.deductTotal slot (book.remaining slot - newQty)
      let audit := audit.note (.sum (audit.book.order slot).filledQuantity newQty)
      (some slot, audit.update fun book => book.setData slot { (book.order slot).toOrderData with
        quantity := (book.order slot).filledQuantity + newQty })
    else
      let audit := (audit.cancelOrder id).2
      let msg : OrderMessage :=
        { action := .add
          side := (audit.book.order slot).side
          orderId := id
          price := (audit.book.order slot).price
          quantity := newQty
          arrivalCycles := audit.book.rdtsc }
      (audit.update fun book => { book with toBookCore := book.tick }).addOrder msg

def call (audit : Audit) : Call → Audit
  | .add msg => (audit.addOrder msg).2
  | .cancel id => (audit.cancelOrder id).2
  | .modify id newQty => (audit.modifyOrder id newQty).2

def run (audit : Audit) (calls : List Call) : Audit := calls.foldl call audit

theorem run_append (audit : Audit) (past : List Call) (call : Call) :
    audit.run (past ++ [call]) = (audit.run past).call call := by
  simp [run]

end Audit

end OrderEngine
