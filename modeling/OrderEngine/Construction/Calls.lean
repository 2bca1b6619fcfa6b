import OrderEngine.Construction.OrderBook

namespace OrderEngine

/-- A client of the book makes one of these calls at a time. -/
inductive Call where
  | add (msg : OrderMessage)
  | cancel (id : OrderId)
  | modify (id : OrderId) (newQty : Quantity)
  deriving DecidableEq, Repr

def OrderMessage.buy (id : OrderId) (price : Int) (quantity : Quantity) : OrderMessage :=
  { side := Side.buy, orderId := id, price := price, quantity := quantity }

def OrderMessage.sell (id : OrderId) (price : Int) (quantity : Quantity) : OrderMessage :=
  { side := Side.sell, orderId := id, price := price, quantity := quantity }

/-- These are the preconditions that `add_order` asserts. -/
def Call.Sound : Call → Prop
  | .add msg => InTicks msg.price ∧ 0 < msg.quantity
  | _ => True

/-- An admissible call also names one of the two sides. -/
def Call.Admissible : Call → Prop
  | .add msg => (msg.side = Side.buy ∨ msg.side = Side.sell) ∧ InTicks msg.price ∧ 0 < msg.quantity
  | _ => True

instance : DecidablePred Call.Sound
  | .add _ => inferInstanceAs (Decidable (_ ∧ _))
  | .cancel _ => isTrue trivial
  | .modify _ _ => isTrue trivial

instance : DecidablePred Call.Admissible
  | .add _ => inferInstanceAs (Decidable (_ ∧ _ ∧ _))
  | .cancel _ => isTrue trivial
  | .modify _ _ => isTrue trivial

theorem Call.Admissible.sound {call : Call} (admissible : call.Admissible) : call.Sound := by
  cases call with
  | add msg => exact admissible.2
  | cancel id => trivial
  | modify id newQty => trivial

/-- `add_order` and `modify_order` return an order or null, and `cancel_order` returns a truth value. -/
inductive Result where
  | order (slot : Option Ptr)
  | cancelled (answer : Bool)
  deriving DecidableEq, Repr

namespace OrderBook

def result (book : OrderBook) : Call → Result
  | .add msg => .order (book.addOrder msg).1
  | .cancel id => .cancelled (book.cancelOrder id).1
  | .modify id newQty => .order (book.modifyOrder id newQty).1

/-- A call returns whether it succeeded. -/
def call (book : OrderBook) : Call → Bool × OrderBook
  | .add msg => ((book.addOrder msg).1.isSome, (book.addOrder msg).2)
  | .cancel id => book.cancelOrder id
  | .modify id newQty => ((book.modifyOrder id newQty).1.isSome, (book.modifyOrder id newQty).2)

def run (book : OrderBook) (calls : List Call) : OrderBook :=
  calls.foldl (fun book call => (book.call call).2) book

/-- These are the answers that the calls of a run return. -/
def answers (book : OrderBook) : List Call → List Bool
  | [] => []
  | call :: calls => (book.call call).1 :: (book.call call).2.answers calls

theorem run_append (book : OrderBook) (past : List Call) (call : Call) :
    book.run (past ++ [call]) = ((book.run past).call call).2 := by
  simp [run]

end OrderBook

end OrderEngine
