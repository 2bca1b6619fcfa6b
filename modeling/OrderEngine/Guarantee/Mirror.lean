import OrderEngine.Ledger.SymmetricRuns
import OrderEngine.Reference.Book
import OrderEngine.Refinement.Runs

namespace OrderEngine

open Library

def Side.mirror (side : Side) : Side := if side = Side.buy then Side.sell else Side.buy

def OrderMessage.mirror (msg : OrderMessage) : OrderMessage :=
  { msg with side := msg.side.mirror, price := reflect msg.price }

/-- The mirrored call has the other side and the reflected price. -/
def Call.mirror : Call → Call
  | .add msg => .add msg.mirror
  | .cancel id => .cancel id
  | .modify id newQty => .modify id newQty

/-- The mirrored trade exchanges the buyer and the seller. -/
def Trade.mirror (trade : Trade) : Trade where
  buyOrderId := trade.sellOrderId
  sellOrderId := trade.buyOrderId
  price := reflect trade.price
  quantity := trade.quantity

/-- An invalid price has no reflection. -/
def mirrorQuote (price : Int) : Int := if price = kInvalidPrice then kInvalidPrice else reflect price

/-- One book is the mirror image of another. -/
structure OrderBook.Mirrors (book image : OrderBook) : Prop where
  trades : image.reports.map TradeReport.trade = (book.reports.map TradeReport.trade).map Trade.mirror
  queue : ∀ wing price, image.queue wing.opposite (reflect price) = book.queue wing price
  total : ∀ wing price, (image.level wing.opposite (reflect price)).totalQuantity =
    (book.level wing price).totalQuantity
  count : ∀ wing price, (image.level wing.opposite (reflect price)).orderCount =
    (book.level wing price).orderCount
  side : ∀ slot, book.Linked slot → (image.order slot).side = (book.order slot).side.mirror
  price : ∀ slot, book.Linked slot → (image.order slot).price = reflect (book.order slot).price
  id : ∀ slot, (image.order slot).id = (book.order slot).id
  status : ∀ slot, (image.order slot).status = (book.order slot).status
  quantity : ∀ slot, (image.order slot).quantity = (book.order slot).quantity
  filledQuantity : ∀ slot, (image.order slot).filledQuantity = (book.order slot).filledQuantity
  bestBid : image.bestBid = mirrorQuote book.bestAsk
  bestAsk : image.bestAsk = mirrorQuote book.bestBid
  matchCount : image.matchCount = book.matchCount
  tradeVolume : image.tradeVolume = book.tradeVolume

namespace Symmetry

/-- The mirror image forgets the readings of the clock. -/
def mirror : Symmetry where
  mirrors := true
  side := Side.mirror
  time := fun _ => 0
  side_wing := fun value => by
    unfold Side.mirror Side.wing
    by_cases buy : value = Side.buy
    · simp [buy]
      decide
    · simp [buy]
      decide
  side_named := fun value _ => by
    unfold Side.mirror
    split
    · exact .inr rfl
    · exact .inl rfl
  time_latency := fun _ _ => rfl

def timeless : Symmetry where
  mirrors := false
  side := id
  time := fun _ => 0
  side_wing := fun _ => rfl
  side_named := fun _ named => named
  time_latency := fun _ _ => rfl

variable {ledger other : Ledger}

theorem empty_mirror (tradeCb : Bool) (clock otherClock : Nat → Nanos) :
    mirror.ledger (.empty tradeCb clock) = timeless.ledger (.empty tradeCb otherClock) := rfl

theorem timeless_quote (price : Int) : timeless.quote price = price := by
  unfold quote
  split
  · next missing => exact missing.symm
  · rfl

theorem mirror_call (call : Call) : mirror.call call = timeless.call call.mirror := by
  cases call <;> rfl

end Symmetry

theorem Call.mirror_admissible {call : Call} (admissible : call.Admissible) : call.mirror.Admissible := by
  cases call with
  | add msg =>
      have side := Symmetry.mirror.side_named msg.side admissible.1
      exact ⟨side, reflect_inTicks.mpr admissible.2.1, admissible.2.2⟩
  | cancel id => trivial
  | modify id newQty => trivial

section Runs

variable {tradeCb : Bool} {clock otherClock : Nat → Nanos}

/-- The runs of the calls and of the mirrored calls keep ledgers with one image. -/
theorem mirrored_run {calls : List Call} (admissible : ∀ call ∈ calls, call.Admissible) :
    ∃ ledger other, Represents ((OrderBook.empty tradeCb clock).run calls) ledger ∧
      Represents ((OrderBook.empty tradeCb otherClock).run (calls.map Call.mirror)) other ∧
      ledger.Settled ∧ other.Settled ∧ Symmetry.mirror.ledger ledger = Symmetry.timeless.ledger other := by
  induction calls using List.reverseRecOn with
  | nil =>
      exact ⟨_, _, .empty tradeCb clock, .empty tradeCb otherClock, Ledger.empty_settled, Ledger.empty_settled,
        Symmetry.empty_mirror tradeCb clock otherClock⟩
  | append_singleton past call ih =>
      obtain ⟨ledger, other, same, otherSame, settled, otherSettled, alike⟩ :=
        ih fun earlier member => admissible earlier (by simp [member])
      have last := admissible call (by simp)
      have mirrored := Call.mirror_admissible last
      obtain ⟨after, run, represents, -⟩ := same.call settled.toInv last.sound
      obtain ⟨otherAfter, otherRun, otherRepresents, -⟩ := otherSame.call otherSettled.toInv mirrored.sound
      rw [List.map_append, List.map_singleton, OrderBook.run_append, OrderBook.run_append]
      exact ⟨after, otherAfter, represents, otherRepresents, settled.call last run,
        otherSettled.call mirrored otherRun, Symmetry.mirror.images_agree Symmetry.timeless settled otherSettled
          alike last.sound mirrored.sound (Symmetry.mirror_call call) run otherRun⟩

end Runs

section Image

variable {ledger other : Ledger} (alike : Symmetry.mirror.ledger ledger = Symmetry.timeless.ledger other)

include alike

/-- Ledgers with one image return the same results. -/
theorem ledger_result_mirror (call : Call) : other.result call.mirror = ledger.result call := by
  cases call with
  | add msg =>
      have free := congrArg Ledger.free alike
      rw [Symmetry.ledger_free, Symmetry.ledger_free] at free
      exact congrArg (fun slots => Result.order slots.head?) free.symm
  | cancel id =>
      have found := congrArg (fun book : Ledger => book.findLive id) alike
      exact congrArg (fun slot => Result.cancelled slot.isSome) found.symm
  | modify id newQty =>
      have found := congrArg (fun book : Ledger => book.findLive id) alike
      exact congrArg Result.order found.symm

theorem alike_queue (wing : Wing) (price : Int) :
    other.queue wing.opposite (reflect price) = ledger.queue wing price := by
  have image := congrArg (fun book : Ledger => book.queue wing.opposite (reflect price)) alike
  exact image.symm.trans (Symmetry.mirror.ledger_queue ledger wing price)

theorem alike_total (wing : Wing) (price : Int) :
    other.total wing.opposite (reflect price) = ledger.total wing price := by
  have image := congrArg (fun book : Ledger => book.total wing.opposite (reflect price)) alike
  exact image.symm.trans (Symmetry.mirror.ledger_total ledger wing price)

theorem alike_best (wing : Wing) : other.best wing = mirrorQuote (ledger.best wing.opposite) := by
  have image := congrArg (fun book : Ledger => book.best wing) alike
  simp only [Symmetry.ledger_core, Symmetry.core_best] at image
  rw [Symmetry.timeless_quote] at image
  exact image.symm

/-- The trades say the same apart from the clock. -/
theorem alike_trades : (other.reports.map TradeReport.trade) =
    ledger.reports.map (TradeReport.trade ∘ Symmetry.mirror.report) := by
  have reports : ledger.reports.map Symmetry.mirror.report = other.reports.map Symmetry.timeless.report :=
    congrArg (fun book : Ledger => book.reports) alike
  have trades := congrArg (List.map TradeReport.trade) reports
  rw [List.map_map, List.map_map] at trades
  exact trades.symm

/-- A field that does not tell the time is that of the mirrored order. -/
theorem alike_order {Field : Type} (field : OrderData → Field)
    (timeless : ∀ data, field (Symmetry.timeless.order data) = field data) (slot : Ptr) :
    field (other.data slot) = field (Symmetry.mirror.order (ledger.data slot)) := by
  have data : Symmetry.mirror.order (ledger.data slot) = Symmetry.timeless.order (other.data slot) :=
    congrFun (congrArg Ledger.data alike) slot
  rw [data, timeless]

variable {book image : OrderBook}

/-- Books whose ledgers have one image mirror each other. -/
theorem Represents.mirrors (same : Represents book ledger) (otherSame : Represents image other)
    (settled : ledger.Settled) (otherSettled : other.Settled) : book.Mirrors image := by
  have orders {Field : Type} (field : OrderData → Field)
      (timeless : ∀ data, field (Symmetry.timeless.order data) = field data) (slot : Ptr) :
      field (image.order slot).toOrderData = field (Symmetry.mirror.order (ledger.data slot)) := by
    rw [otherSame.data, alike_order alike field timeless]
  have valid {slot : Ptr} (linked : book.Linked slot) : (ledger.data slot).price ≠ kInvalidPrice :=
    Symmetry.valid_of_inTicks (settled.inTicks ((same.linked_iff settled.toInv slot).mp linked))
  have bookCore := same.core
  have imageCore := otherSame.core
  constructor
  · rw [bookCore, imageCore, List.map_map]
    exact alike_trades alike
  · intro wing price
    rw [otherSame.queue_eq otherSettled.toInv, same.queue_eq settled.toInv, alike_queue alike]
  · intro wing price
    rw [otherSame.total, same.total, alike_total alike]
  · intro wing price
    rw [otherSame.count, same.count, alike_queue alike]
  · intro slot linked
    have image := orders OrderData.side (fun data => ite_self data.side) slot
    rw [Symmetry.mirror.order_side _ (valid linked)] at image
    rw [show (book.order slot).side = _ from same.side_eq slot]
    exact image
  · intro slot linked
    have image := orders OrderData.price (fun data => Symmetry.timeless_quote data.price) slot
    rw [Symmetry.mirror.order_price _ (valid linked)] at image
    rw [show (book.order slot).price = _ from same.price_eq slot]
    exact image
  · intro slot
    rw [same.id_eq]
    exact orders OrderData.id (fun _ => rfl) slot
  · intro slot
    rw [same.status_eq]
    exact orders OrderData.status (fun _ => rfl) slot
  · intro slot
    rw [show (book.order slot).quantity = _ from congrArg OrderData.quantity (same.data slot)]
    exact orders OrderData.quantity (fun _ => rfl) slot
  · intro slot
    rw [show (book.order slot).filledQuantity = _ from congrArg OrderData.filledQuantity (same.data slot)]
    exact orders OrderData.filledQuantity (fun _ => rfl) slot
  · rw [bookCore, imageCore]
    exact alike_best alike .bid
  · rw [bookCore, imageCore]
    exact alike_best alike .ask
  · rw [bookCore, imageCore]
    exact (congrArg (fun book : Ledger => book.matchCount) alike).symm
  · rw [bookCore, imageCore]
    exact (congrArg (fun book : Ledger => book.tradeVolume) alike).symm

end Image

/-- A run of the mirrored calls returns the same results and leads to the mirrored book, whatever the
clocks of the two runs show. -/
theorem mirror_run (tradeCb : Bool) (clock otherClock : Nat → Nanos) (calls : List Call)
    (admissible : ∀ call ∈ calls, call.Admissible) :
    ((OrderBook.empty tradeCb clock).run calls).Mirrors
        ((OrderBook.empty tradeCb otherClock).run (calls.map Call.mirror)) ∧
      ∀ past call, past ++ [call] <+: calls →
        ((OrderBook.empty tradeCb otherClock).run (past.map Call.mirror)).result call.mirror =
          ((OrderBook.empty tradeCb clock).run past).result call := by
  constructor
  · obtain ⟨ledger, other, same, otherSame, settled, otherSettled, alike⟩ :=
      @mirrored_run tradeCb clock otherClock calls admissible
    exact same.mirrors alike otherSame settled otherSettled
  · intro past call inside
    have last := admissible call (mem_of_past inside)
    obtain ⟨ledger, other, same, otherSame, settled, otherSettled, alike⟩ :=
      @mirrored_run tradeCb clock otherClock past fun earlier member =>
        admissible earlier (inside.subset (List.mem_append_left _ member))
    rw [same.result_eq settled.toInv last.sound,
      otherSame.result_eq otherSettled.toInv (Call.mirror_admissible last).sound]
    exact ledger_result_mirror alike call

/-- A buy takes part of a sell, and a second sell at the lowest tick but one is cancelled. -/
theorem mirror_run_partial_fill :
    let calls := [Call.add (.sell 1 65535 5), .add (.sell 2 65534 4), .add (.buy 3 65535 6), .cancel 1]
    ((OrderBook.empty true fun _ => 1).run calls).Mirrors
      ((OrderBook.empty true fun _ => 2).run (calls.map Call.mirror)) :=
  (mirror_run true (fun _ => 1) (fun _ => 2) _ (by decide)).1

end OrderEngine
