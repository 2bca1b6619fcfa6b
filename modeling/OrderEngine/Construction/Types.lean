import Mathlib.Logic.Function.Basic
import Mathlib.Tactic

namespace OrderEngine

/-- An address is a byte offset from the start of the order pool's storage. -/
abbrev Ptr := Int

abbrev Quantity := UInt64

abbrev OrderId := UInt64

abbrev Nanos := UInt64

/-- A price is an integer tick, and no operation on a price leaves the 64-bit range. -/
def kInvalidPrice : Int := -1

def kInvalidOrderId : OrderId := 0

/-- The book has this number of price ticks on each side. -/
def kMaxPriceTicks : Nat := 65536

/-- The pool has this number of order slots. -/
def kMaxOrders : Nat := 1 <<< 20

/-- A side holds any byte, because the decoder casts the wire byte without a check. -/
structure Side where
  byte : UInt8
  deriving DecidableEq, Repr

def Side.buy : Side := ⟨0⟩

def Side.sell : Side := ⟨1⟩

/-- An action holds any byte for the same reason. -/
structure OrderAction where
  byte : UInt8
  deriving DecidableEq, Repr

def OrderAction.add : OrderAction := ⟨0⟩

def OrderAction.cancel : OrderAction := ⟨1⟩

def OrderAction.modify : OrderAction := ⟨2⟩

def OrderAction.execute : OrderAction := ⟨3⟩

inductive OrderStatus where
  | active
  | partiallyFilled
  | filled
  | cancelled
  deriving DecidableEq, Repr

/-- The links of an intrusive list use `none` for the null pointer. -/
structure IntrusiveListNode where
  next : Option Ptr := none
  prev : Option Ptr := none
  deriving DecidableEq, Repr

/-- These are the members that an order adds to its list node. -/
structure OrderData where
  id : OrderId := kInvalidOrderId
  side : Side := Side.buy
  status : OrderStatus := OrderStatus.active
  price : Int := kInvalidPrice
  quantity : Quantity := 0
  filledQuantity : Quantity := 0
  timestamp : Nanos := 0
  entryNanos : Nanos := 0
  deriving DecidableEq, Repr

structure Order extends IntrusiveListNode, OrderData
  deriving DecidableEq, Repr

/-- The heap maps each slot address to the order stored there. -/
abbrev Slots := Ptr → Order

structure LimitLevel where
  price : Int := kInvalidPrice
  totalQuantity : Quantity := 0
  orderCount : UInt32 := 0
  head : Option Ptr := none
  tail : Option Ptr := none
  deriving DecidableEq, Repr

def LimitLevel.empty (level : LimitLevel) : Bool := level.head.isNone

/-- A null predecessor makes the level's head the link that is written. -/
def LimitLevel.linkNext (level : LimitLevel) (slots : Slots) (before next : Option Ptr) :
    LimitLevel × Slots :=
  match before with
  | some node => (level, Function.update slots node { slots node with next := next })
  | none => ({ level with head := next }, slots)

/-- A null successor makes the level's tail the link that is written. -/
def LimitLevel.linkPrev (level : LimitLevel) (slots : Slots) (after prev : Option Ptr) :
    LimitLevel × Slots :=
  match after with
  | some node => (level, Function.update slots node { slots node with prev := prev })
  | none => ({ level with tail := prev }, slots)

/-- The level adds the whole quantity of the order, not its remaining quantity. -/
def LimitLevel.pushBack (level : LimitLevel) (slots : Slots) (order : Ptr) : LimitLevel × Slots :=
  let slots := Function.update slots order { slots order with next := none, prev := level.tail }
  let (level, slots) := level.linkNext slots level.tail (some order)
  ({ level with
      tail := some order
      totalQuantity := level.totalQuantity + (slots order).quantity
      orderCount := level.orderCount + 1 }, slots)

def LimitLevel.remove (level : LimitLevel) (slots : Slots) (order : Ptr) : LimitLevel × Slots :=
  let (level, slots) := level.linkNext slots (slots order).prev (slots order).next
  let (level, slots) := level.linkPrev slots (slots order).next (slots order).prev
  let slots := Function.update slots order { slots order with next := none, prev := none }
  ({ level with
      totalQuantity :=
        level.totalQuantity - ((slots order).quantity - (slots order).filledQuantity)
      orderCount := level.orderCount - 1 }, slots)

structure TradeReport where
  buyOrderId : OrderId := kInvalidOrderId
  sellOrderId : OrderId := kInvalidOrderId
  price : Int := kInvalidPrice
  quantity : Quantity := 0
  matchNanos : Nanos := 0
  latencyCycles : Nanos := 0
  deriving DecidableEq, Repr

structure OrderMessage where
  action : OrderAction := OrderAction.add
  side : Side := Side.buy
  orderId : OrderId := kInvalidOrderId
  originalOrderId : OrderId := kInvalidOrderId
  price : Int := kInvalidPrice
  quantity : Quantity := 0
  arrivalCycles : Nanos := 0
  deriving DecidableEq, Repr

end OrderEngine
