import OrderEngine.Construction.Calls
import OrderEngine.Ledger.Crossing
import OrderEngine.Library.PriceTime

namespace OrderEngine

open Library

/-- A trade names its buyer, its seller, the resting price and the quantity. -/
structure Trade where
  buyOrderId : OrderId
  sellOrderId : OrderId
  price : Int
  quantity : Nat
  deriving DecidableEq, Repr

def TradeReport.trade (report : TradeReport) : Trade where
  buyOrderId := report.buyOrderId
  sellOrderId := report.sellOrderId
  price := report.price
  quantity := report.quantity.toNat

/-- The reference book keeps the orders of each wing and price by identifier and remaining quantity,
the oldest first, and the trades it has made. -/
structure Reference where
  queue : Wing → Int → Queue OrderId
  trades : List Trade

namespace Reference

def empty : Reference where
  queue := fun _ _ => []
  trades := []

/-- An incoming order trades with an order that rests on a wing. -/
def tradeWith (incoming : OrderId) (resting : Wing) (entry : Int × OrderId × Nat) : Trade :=
  match resting with
  | .bid => ⟨entry.2.1, incoming, entry.1, entry.2.2⟩
  | .ask => ⟨incoming, entry.2.1, entry.1, entry.2.2⟩

def setQueue (book : Reference) (wing : Wing) (price : Int) (queue : Queue OrderId) : Reference :=
  { book with queue := setCell book.queue wing price queue }

/-- An order joins the end of its queue. -/
def append (book : Reference) (wing : Wing) (price : Int) (id : OrderId) (remaining : Nat) : Reference :=
  book.setQueue wing price (book.queue wing price ++ [(id, remaining)])

def delete (book : Reference) (wing : Wing) (price : Int) (id : OrderId) : Reference :=
  book.setQueue wing price ((book.queue wing price).filter fun entry => entry.1 ≠ id)

/-- An order keeps its place and changes what remains of it. -/
def resize (book : Reference) (wing : Wing) (price : Int) (id : OrderId) (remaining : Nat) : Reference :=
  book.setQueue wing price
    ((book.queue wing price).map fun entry => if entry.1 = id then (id, remaining) else entry)

/-- These are all the levels of a book. They are too many for the elaborator to unfold. -/
@[irreducible] def places : List (Wing × Int) :=
  [Wing.bid, Wing.ask].flatMap fun wing => (List.range kMaxPriceTicks).map fun tick : Nat => (wing, tick)

theorem mem_places {wing : Wing} {price : Int} (inside : InTicks price) : (wing, price) ∈ places := by
  obtain ⟨low, high⟩ := inside
  unfold places
  rw [List.mem_flatMap]
  refine ⟨wing, by cases wing <;> simp, List.mem_map.mpr ⟨price.toNat, List.mem_range.mpr (by omega), ?_⟩⟩
  rw [Int.toNat_of_nonneg low]

/-- An identifier is located at the first level that holds it. -/
def locate (book : Reference) (id : OrderId) : Option (Wing × Int) :=
  places.find? fun place => (book.queue place.1 place.2).any fun entry => entry.1 = id

def remaining (book : Reference) (wing : Wing) (price : Int) (id : OrderId) : Nat :=
  (((book.queue wing price).find? fun entry => entry.1 = id).map Prod.snd).getD 0

/-- An add takes what crosses it, the best price first and the oldest order first within a price, and
appends what is left. -/
def add (book : Reference) (msg : OrderMessage) : Reference :=
  let facing := msg.side.wing.opposite
  let swept := sweep (book.queue facing) (facing.ticks msg.price) msg.quantity.toNat
  let book : Reference :=
    { queue := Function.update book.queue facing swept.queues
      trades := book.trades ++ swept.taken.map (tradeWith msg.orderId facing) }
  if swept.wanted = 0 then book else book.append msg.side.wing msg.price msg.orderId swept.wanted

/-- A cancel deletes, a smaller quantity shrinks in place, and a larger one moves to the end. -/
def call (book : Reference) : Call → Bool × Reference
  | .add msg => (true, book.add msg)
  | .cancel id =>
    match book.locate id with
    | none => (false, book)
    | some (wing, price) => (true, book.delete wing price id)
  | .modify id newQty =>
    match book.locate id with
    | none => (false, book)
    | some (wing, price) =>
      if newQty.toNat ≤ book.remaining wing price id then
        (true, book.resize wing price id newQty.toNat)
      else (true, (book.delete wing price id).append wing price id newQty.toNat)

def run (book : Reference) (calls : List Call) : Reference :=
  calls.foldl (fun book call => (book.call call).2) book

def answers (book : Reference) : List Call → List Bool
  | [] => []
  | call :: calls => (book.call call).1 :: (book.call call).2.answers calls

/-- An add that nothing crosses only appends. -/
theorem add_of_uncrossed {book : Reference} {msg : OrderMessage} (positive : 0 < msg.quantity)
    (uncrossed : ∀ price ∈ msg.side.wing.opposite.ticks msg.price,
      book.queue msg.side.wing.opposite price = []) :
    book.add msg = book.append msg.side.wing msg.price msg.orderId msg.quantity.toNat := by
  have quantity : msg.quantity.toNat ≠ 0 := Nat.ne_of_gt (UInt64.lt_iff_toNat_lt.mp positive)
  rw [add, sweep_empty uncrossed]
  simp only [quantity, if_false, Function.update_eq_self, List.map_nil, List.append_nil]

theorem run_append (book : Reference) (past : List Call) (call : Call) :
    book.run (past ++ [call]) = ((book.run past).call call).2 := by
  simp [run]

end Reference

end OrderEngine
