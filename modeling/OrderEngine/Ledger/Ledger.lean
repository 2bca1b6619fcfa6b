import OrderEngine.Construction.OrderBook
import OrderEngine.Library.Grid

namespace OrderEngine

open Library

/-- The better price of a wing has the smaller rank. -/
def Wing.rank : Wing → Int → Int
  | .bid, price => -price
  | .ask, price => price

/-- One step away from the best price changes the tick by the stride. -/
def Wing.stride : Wing → Int
  | .bid => -1
  | .ask => 1

/-- This number of ticks lies at or behind a price. -/
def Wing.reach : Wing → Int → Nat
  | .bid, price => (price + 1).toNat
  | .ask, price => (kMaxPriceTicks - price).toNat

/-- This is the first occupied tick at or behind a price. -/
def nextBest (wing : Wing) (occupied : Int → Bool) (fromPrice : Int) : Int :=
  (scan occupied wing.stride (wing.reach fromPrice) fromPrice).getD kInvalidPrice

def BookCore.best (core : BookCore) : Wing → Int
  | .bid => core.bestBid
  | .ask => core.bestAsk

def BookCore.setBest (core : BookCore) (wing : Wing) (price : Int) : BookCore :=
  match wing with
  | .bid => { core with bestBid := price }
  | .ask => { core with bestAsk := price }

def OrderData.live (data : OrderData) : Prop :=
  data.status = .active ∨ data.status = .partiallyFilled

instance (data : OrderData) : Decidable data.live := inferInstanceAs (Decidable (_ ∨ _))

def OrderData.remaining (data : OrderData) : Quantity := data.quantity - data.filledQuantity

def OrderData.completedBy (data : OrderData) (qty : Quantity) : Prop :=
  data.filledQuantity + qty ≥ data.quantity

instance (data : OrderData) (qty : Quantity) : Decidable (data.completedBy qty) :=
  inferInstanceAs (Decidable (_ ≥ _))

/-- A fill raises the filled quantity and sets the status it leads to. -/
def OrderData.filledBy (data : OrderData) (qty : Quantity) : OrderData :=
  { data with
    filledQuantity := data.filledQuantity + qty
    status := if data.completedBy qty then .filled else .partiallyFilled }

/-- The ledger keeps each level as the list of its slots, oldest first, and has no links. -/
structure Ledger extends BookCore where
  queue : Wing → Int → List Ptr
  total : Wing → Int → Quantity
  data : Ptr → OrderData
  free : List Ptr

namespace Ledger

def withData (ledger : Ledger) (data : Ptr → OrderData) : Ledger := { ledger with data := data }

def setData (ledger : Ledger) (slot : Ptr) (data : OrderData) : Ledger :=
  ledger.withData (Function.update ledger.data slot data)

def setStatus (ledger : Ledger) (slot : Ptr) (status : OrderStatus) : Ledger :=
  ledger.setData slot { ledger.data slot with status := status }

section WithData

variable (ledger : Ledger) (data : Ptr → OrderData)

@[simp] theorem withData_data : (ledger.withData data).data = data := rfl

@[simp] theorem withData_queue : (ledger.withData data).queue = ledger.queue := rfl

@[simp] theorem withData_total : (ledger.withData data).total = ledger.total := rfl

@[simp] theorem withData_free : (ledger.withData data).free = ledger.free := rfl

@[simp] theorem withData_core : (ledger.withData data).toBookCore = ledger.toBookCore := rfl

@[simp] theorem withData_withData (first : Ptr → OrderData) :
    (ledger.withData first).withData data = ledger.withData data := rfl

end WithData

/-- One level gets a new queue and a new total. -/
def setLevel (ledger : Ledger) (wing : Wing) (price : Int) (queue : List Ptr) (total : Quantity) :
    Ledger :=
  { ledger with
    queue := setCell ledger.queue wing price queue
    total := setCell ledger.total wing price total }

section SetLevel

variable (ledger : Ledger) (wing : Wing) (price : Int) (queue : List Ptr) (total : Quantity)

@[simp] theorem setLevel_core :
    (ledger.setLevel wing price queue total).toBookCore = ledger.toBookCore := rfl

@[simp] theorem setLevel_data : (ledger.setLevel wing price queue total).data = ledger.data := rfl

@[simp] theorem setLevel_free : (ledger.setLevel wing price queue total).free = ledger.free := rfl

@[simp] theorem setLevel_queue : (ledger.setLevel wing price queue total).queue =
    setCell ledger.queue wing price queue := rfl

@[simp] theorem setLevel_total : (ledger.setLevel wing price queue total).total =
    setCell ledger.total wing price total := rfl

end SetLevel

def wing (ledger : Ledger) (slot : Ptr) : Wing := (ledger.data slot).side.wing

def price (ledger : Ledger) (slot : Ptr) : Int := (ledger.data slot).price

def removeFromLevel (ledger : Ledger) (slot : Ptr) : Ledger :=
  let wing := ledger.wing slot
  let price := ledger.price slot
  ledger.setLevel wing price ((ledger.queue wing price).erase slot)
    (ledger.total wing price - (ledger.data slot).remaining)

def release (ledger : Ledger) (slot : Ptr) : Ledger :=
  { ledger with
    free := slot :: ledger.free
    released := ledger.released ++ [(slot, ledger.free)] }

def deductTotal (ledger : Ledger) (slot : Ptr) (qty : Quantity) : Ledger :=
  let wing := ledger.wing slot
  let price := ledger.price slot
  ledger.setLevel wing price (ledger.queue wing price) (ledger.total wing price - qty)

/-- A completed order leaves its queue, the order map and the used slots. -/
def retire (ledger : Ledger) (slot : Ptr) : Ledger :=
  let wing := ledger.wing slot
  let price := ledger.price slot
  let ledger := ledger.setLevel wing price ((ledger.queue wing price).erase slot)
    (ledger.total wing price)
  let ledger := { ledger with toBookCore := ledger.setSlot (ledger.data slot).id none }
  ledger.release slot

def recordTrade (ledger : Ledger) (resting aggressor : Ptr) (qty : Quantity) : Ledger :=
  { ledger with
    toBookCore := (ledger.toBookCore.count resting aggressor qty).report (ledger.data resting)
      (ledger.data aggressor) qty }

def fill (ledger : Ledger) (resting aggressor : Ptr) (qty : Quantity) : Ledger :=
  let data := Function.update (Function.update ledger.data resting
    ((ledger.data resting).filledBy qty)) aggressor ((ledger.data aggressor).filledBy qty)
  let ledger :=
    if (ledger.data resting).completedBy qty then (ledger.deductTotal resting qty).retire resting
    else ledger.deductTotal resting qty
  (ledger.withData data).recordTrade resting aggressor qty

/-- The best price moves to the next occupied tick. -/
def rescan (ledger : Ledger) (wing : Wing) : Ledger :=
  { ledger with
    toBookCore := ledger.setBest wing
      (nextBest wing (fun price => !(ledger.queue wing price).isEmpty) (ledger.best wing)) }

/-- An order takes the next free slot and the map entry of its identifier. -/
def enroll (ledger : Ledger) (slot : Ptr) (rest : List Ptr) (msg : OrderMessage) : Ledger :=
  { ledger with
    data := Function.update ledger.data slot
      { id := msg.orderId
        side := msg.side
        status := .active
        price := msg.price
        quantity := msg.quantity
        filledQuantity := 0
        timestamp := msg.arrivalCycles
        entryNanos := ledger.rdtsc }
    free := rest
    toBookCore := ledger.tick.setSlot msg.orderId (some slot) }

/-- An order joins the end of its level and may become the best price. -/
def rest (ledger : Ledger) (slot : Ptr) : Ledger :=
  let wing := ledger.wing slot
  let price := ledger.price slot
  let best := ledger.best wing
  let ledger := ledger.setLevel wing price (ledger.queue wing price ++ [slot])
    (ledger.total wing price + (ledger.data slot).quantity)
  if best = kInvalidPrice ∨ wing.rank price < wing.rank best then
    { ledger with toBookCore := ledger.setBest wing price }
  else ledger

/-- A cancel scans again only for the two named sides. -/
def rescanAfterCancel (ledger : Ledger) (slot : Ptr) : Ledger :=
  let side := (ledger.data slot).side
  if ledger.queue side.wing (ledger.price slot) = [] ∧ (side = Side.buy ∨ side = Side.sell) ∧
      ledger.price slot = ledger.best side.wing then
    ledger.rescan side.wing
  else ledger

def withdraw (ledger : Ledger) (slot : Ptr) : Ledger :=
  let ledger := ledger.setStatus slot .cancelled
  let ledger := { ledger with toBookCore := ledger.setSlot (ledger.data slot).id none }
  let ledger := ledger.removeFromLevel slot
  let ledger := ledger.rescanAfterCancel slot
  ledger.release slot

/-- A smaller quantity keeps the order's place. -/
def shrink (ledger : Ledger) (slot : Ptr) (newQty : Quantity) : Ledger :=
  let ledger := ledger.deductTotal slot ((ledger.data slot).remaining - newQty)
  ledger.setData slot { ledger.data slot with
    quantity := (ledger.data slot).filledQuantity + newQty }

def findLive (ledger : Ledger) (id : OrderId) : Option Ptr :=
  match ledger.orderMap (mapSlot id) with
  | none => none
  | some slot => if (ledger.data slot).id = id ∧ (ledger.data slot).live then some slot else none

end Ledger

end OrderEngine
