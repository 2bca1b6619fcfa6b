import OrderEngine.Construction.Calls

namespace OrderEngine

/-- The chain from a link follows `next` until it is null. -/
def chain (slots : Slots) : Nat → Option Ptr → List Ptr
  | _, none => []
  | 0, some _ => []
  | fuel + 1, some slot => slot :: chain slots fuel (slots slot).next

/-- These are the orders that a walk from a level's head reaches, the oldest first. -/
def OrderBook.queue (book : OrderBook) (wing : Wing) (price : Int) : List Ptr :=
  chain book.orderPool.slots kMaxOrders (book.level wing price).head

def Wing.side : Wing → Side
  | .bid => Side.buy
  | .ask => Side.sell

/-- An order is linked when a walk of some level reaches it. -/
def OrderBook.Linked (book : OrderBook) (slot : Ptr) : Prop :=
  ∃ wing price, slot ∈ book.queue wing price

end OrderEngine
