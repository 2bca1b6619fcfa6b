import OrderEngine.Guarantee.Twins
import OrderEngine.Library.Portions

namespace OrderEngine

open Library

theorem Wing.eq_or_opposite (wing other : Wing) : wing = other ∨ wing = other.opposite := by
  cases wing <;> cases other <;> simp [opposite]

/-- This much is traded at a price. -/
def tradedAt (trades : List Trade) (price : Int) : Nat :=
  ((trades.filter fun trade => trade.price = price).map Trade.quantity).sum

theorem tradedAt_append (first second : List Trade) (price : Int) :
    tradedAt (first ++ second) price = tradedAt first price + tradedAt second price := by
  unfold tradedAt
  rw [List.filter_append, List.map_append, List.sum_append]

namespace Reference

variable {start book : Reference} {wing : Wing} {price : Int} {total : Nat} {msg : OrderMessage}

/-- The trades of an incoming order have the prices and quantities that a sweep takes. -/
theorem tradedAt_tradeWith (incoming : OrderId) (resting : Wing) (taken : List (Int × OrderId × Nat)) :
    tradedAt (taken.map (tradeWith incoming resting)) price =
      ((taken.filter fun trade => trade.1 = price).map fun trade => trade.2.2).sum := by
  have level (trade : Int × OrderId × Nat) : (tradeWith incoming resting trade).price = trade.1 := by
    cases resting <;> rfl
  have lots (trade : Int × OrderId × Nat) : (tradeWith incoming resting trade).quantity = trade.2.2 := by
    cases resting <;> rfl
  unfold tradedAt
  rw [List.filter_map, List.map_map]
  simp only [Function.comp_def, level, lots]

section Add

variable (book : Reference) (msg : OrderMessage)

/-- This is what an add takes from the other wing. -/
def taking (book : Reference) (msg : OrderMessage) : Swept Int OrderId :=
  sweep (book.queue msg.side.wing.opposite) (msg.side.wing.opposite.ticks msg.price) msg.quantity.toNat

/-- The other wing and the trades after an add. -/
def drained (book : Reference) (msg : OrderMessage) : Reference where
  queue := Function.update book.queue msg.side.wing.opposite (book.taking msg).queues
  trades := book.trades ++ (book.taking msg).taken.map (tradeWith msg.orderId msg.side.wing.opposite)

theorem add_eq : book.add msg = if (book.taking msg).wanted = 0 then book.drained msg
    else (book.drained msg).append msg.side.wing msg.price msg.orderId (book.taking msg).wanted := rfl

theorem append_queue (wing : Wing) (price : Int) (id : OrderId) (remaining : Nat) :
    (book.append wing price id remaining).queue =
      setCell book.queue wing price (book.queue wing price ++ [(id, remaining)]) := rfl

theorem drained_own : (book.drained msg).queue msg.side.wing = book.queue msg.side.wing :=
  Function.update_of_ne (Wing.opposite_ne _).symm ..

theorem add_facing : (book.add msg).queue msg.side.wing.opposite = (book.taking msg).queues := by
  have drained : (book.drained msg).queue msg.side.wing.opposite = (book.taking msg).queues :=
    Function.update_self ..
  rw [add_eq]
  split
  · exact drained
  · funext price
    rw [append_queue, setCell_of_ne _ _ fun both => Wing.opposite_ne _ both.1, drained]

theorem add_own (price : Int) : (book.add msg).queue msg.side.wing price = book.queue msg.side.wing price ++
    if price = msg.price ∧ (book.taking msg).wanted ≠ 0 then [(msg.orderId, (book.taking msg).wanted)] else [] := by
  rw [add_eq]
  by_cases met : (book.taking msg).wanted = 0
  · rw [if_pos met, if_neg fun both => both.2 met, drained_own, List.append_nil]
  · rw [if_neg met, append_queue]
    by_cases here : price = msg.price
    · subst here
      rw [if_pos ⟨rfl, met⟩, setCell_self, drained_own]
    · rw [if_neg fun both => here both.1, setCell_of_ne _ _ fun both => here both.2, drained_own, List.append_nil]

theorem add_trades : (book.add msg).trades =
    book.trades ++ (book.taking msg).taken.map (tradeWith msg.orderId msg.side.wing.opposite) := by
  rw [add_eq]
  split <;> rfl

end Add

/-- Orders of one wing and price have come in with this total. They swept the other wing like one order of the
total, and what is left of them stands at the end of their own level. -/
structure Portions (start : Reference) (wing : Wing) (price : Int) (total : Nat) (book : Reference) : Prop where
  facing : book.queue wing.opposite =
    (sweep (start.queue wing.opposite) (wing.opposite.ticks price) total).queues
  elsewhere : ∀ other, other ≠ price → book.queue wing other = start.queue wing other
  own : ∃ rests, book.queue wing price = start.queue wing price ++ rests ∧ (∀ entry ∈ rests, entry.2 ≠ 0) ∧
    standing rests = (sweep (start.queue wing.opposite) (wing.opposite.ticks price) total).wanted
  made : ∃ trades, book.trades = start.trades ++ trades ∧ ∀ level,
    tradedAt trades level + standing (book.queue wing.opposite level) = standing (start.queue wing.opposite level)

namespace Portions

theorem none_ (start : Reference) (wing : Wing) (price : Int) : start.Portions wing price 0 start where
  facing := by rw [sweep_zero]
  elsewhere := fun _ _ => rfl
  own := by
    rw [sweep_zero]
    exact ⟨[], (List.append_nil _).symm, fun _ member => absurd member List.not_mem_nil, rfl⟩
  made := ⟨[], (List.append_nil _).symm, fun _ => Nat.zero_add _⟩

/-- The next order sweeps on where the ones before it stopped. -/
theorem add (portions : start.Portions wing price total book) (side : msg.side.wing = wing)
    (level : msg.price = price) :
    start.Portions wing price (total + msg.quantity.toNat) (book.add msg) := by
  subst side level
  obtain ⟨facing, elsewhere, ⟨rests, own, open_, left⟩, trades, made, balance⟩ := portions
  obtain ⟨queues, wanted⟩ := sweep_add (start.queue msg.side.wing.opposite)
    (msg.side.wing.opposite.ticks msg.price) total msg.quantity.toNat
  rw [← facing] at queues wanted
  change _ = (book.taking msg).queues at queues
  change _ = _ + (book.taking msg).wanted at wanted
  constructor
  · rw [add_facing, queues]
  · intro other different
    rw [add_own, if_neg fun both => different both.1, List.append_nil]
    exact elsewhere other different
  · refine ⟨rests ++ if (book.taking msg).wanted ≠ 0 then [(msg.orderId, (book.taking msg).wanted)] else [],
      ?_, ?_, ?_⟩
    · rw [add_own, own, List.append_assoc]
      simp only [true_and]
    · intro entry member
      rcases List.mem_append.mp member with old | new
      · exact open_ entry old
      · split at new
        · next unmet =>
            rw [List.mem_singleton.mp new]
            exact unmet
        · exact absurd new List.not_mem_nil
    · rw [standing_append, left, wanted]
      split
      · simp
      · next met =>
          rw [not_not.mp met]
          rfl
  · refine ⟨trades ++ (book.taking msg).taken.map (tradeWith msg.orderId msg.side.wing.opposite), ?_, fun level => ?_⟩
    · rw [add_trades, made, List.append_assoc]
    · have taken := sweep_standing (book.queue msg.side.wing.opposite) (msg.side.wing.opposite.ticks msg.price)
        msg.quantity.toNat level
      rw [← balance level, ← taken, tradedAt_append, tradedAt_tradeWith, add_facing]
      exact Nat.add_assoc ..

/-- The total decides the other wing, what is traded at each price and how much rests. -/
theorem alike {other : Reference} (first : start.Portions wing price total book)
    (second : start.Portions wing price total other) :
    book.queue wing.opposite = other.queue wing.opposite ∧
      (∀ level, level ≠ price → book.queue wing level = other.queue wing level) ∧
      standing (book.queue wing price) = standing (other.queue wing price) ∧
      (∀ level, book.queue wing level = [] ↔ other.queue wing level = []) ∧
      ∃ trades others, book.trades = start.trades ++ trades ∧ other.trades = start.trades ++ others ∧
        ∀ level, tradedAt trades level = tradedAt others level := by
  obtain ⟨rests, own, open_, left⟩ := first.own
  obtain ⟨otherRests, otherOwn, otherOpen, otherLeft⟩ := second.own
  obtain ⟨trades, made, balance⟩ := first.made
  obtain ⟨others, otherMade, otherBalance⟩ := second.made
  have facing := first.facing.trans second.facing.symm
  have elsewhere (level : Int) (different : level ≠ price) : book.queue wing level = other.queue wing level :=
    (first.elsewhere level different).trans (second.elsewhere level different).symm
  have nothing {entries : Queue OrderId} (real : ∀ entry ∈ entries, entry.2 ≠ 0) :
      entries = [] ↔ standing entries = 0 := by
    cases entries with
    | nil => exact iff_of_true rfl rfl
    | cons entry entries =>
        have some_ := real entry List.mem_cons_self
        rw [standing_cons]
        exact iff_of_false (List.cons_ne_nil _ _) (by omega)
  refine ⟨facing, elsewhere, ?_, fun level => ?_, trades, others, made, otherMade, fun level => ?_⟩
  · rw [own, otherOwn, standing_append, standing_append, left, otherLeft]
  · by_cases here : level = price
    · subst here
      rw [own, otherOwn, List.append_eq_nil_iff, List.append_eq_nil_iff, nothing open_, nothing otherOpen, left,
        otherLeft]
    · rw [elsewhere level here]
  · have whole := balance level
    have parts := otherBalance level
    rw [facing] at whole
    omega

end Portions

end Reference

theorem Ledger.AddRun.served {ledger after : Ledger} {msg : OrderMessage} {placed : Option Ptr}
    (run : ledger.AddRun msg placed after) (some_ : placed.isSome = true) : ledger.free ≠ [] := by
  cases run with
  | full free => exact absurd some_ Bool.false_ne_true
  | filled free run stopped tight done => exact free ▸ List.cons_ne_nil _ _
  | rested free run stopped tight left => exact free ▸ List.cons_ne_nil _ _

/-- Accepted orders of one wing and price act on the book as their total does on the reference. -/
theorem portions_run {book : OrderBook} {ledger : Ledger} {wing : Wing} {price : Int} (same : Represents book ledger)
    (settled : ledger.Settled) (callback : ledger.tradeCb = true) (pieces : List OrderMessage)
    (alike : ∀ piece ∈ pieces, (Call.add piece).Admissible ∧ piece.side.wing = wing ∧ piece.price = price)
    (accepted : ∀ answer ∈ book.answers (pieces.map .add), answer = true) :
    ∃ after reference, Represents (book.run (pieces.map .add)) after ∧ after.Settled ∧ Tracks true after reference ∧
      (Reference.mk ledger.view (ledger.reports.map TradeReport.trade)).Portions wing price
        (pieces.map fun piece => piece.quantity.toNat).sum reference := by
  induction pieces using List.reverseRecOn with
  | nil => exact ⟨ledger, _, same, settled, ledger.tracks_self callback, .none_ _ wing price⟩
  | append_singleton past piece ih =>
      rw [List.map_append, List.map_singleton, OrderBook.answers_append] at accepted
      obtain ⟨before, reference, represents, settledBefore, tracks, portions⟩ := ih
        (fun other member => alike other (by simp [member]))
        (fun answer member => accepted answer (List.mem_append_left _ member))
      obtain ⟨⟨side, inside, positive⟩, own, level⟩ := alike piece (by simp)
      obtain ⟨after, run, sameAfter, -⟩ := represents.add settledBefore.toInv inside positive
      have served := run.served (accepted _ (List.mem_append_right _ (List.mem_singleton_self _)))
      refine ⟨after, reference.add piece, ?_, settledBefore.add side inside positive run,
        tracks.add settledBefore inside positive served run, ?_⟩
      · rw [List.map_append, List.map_singleton, OrderBook.run_append]
        exact sameAfter
      · rw [List.map_append, List.map_singleton, List.sum_append, List.sum_singleton]
        exact portions.add own level

/-- It does not matter whether an order comes in whole or in portions of its side and price. The portions take the same
quantity at every price, leave the other wing as the whole order does, order by order, and the two best prices, and
as much of them rests at the end of their level, behind the orders that stood there. -/
theorem portions_trade_alike (clock : Nat → Nanos) (calls : List Call)
    (admissible : ∀ call ∈ calls, call.Admissible) (whole : OrderMessage) (sound : (Call.add whole).Admissible)
    (pieces : List OrderMessage) (alike : ∀ piece ∈ pieces, 0 < piece.quantity ∧ piece.side = whole.side ∧
      piece.price = whole.price)
    (total : (pieces.map fun piece => piece.quantity.toNat).sum = whole.quantity.toNat) :
    let book := (OrderBook.empty true clock).run calls
    let alone := (book.addOrder whole).2
    let parts := book.run (pieces.map .add)
    (book.addOrder whole).1.isSome = true → (∀ answer ∈ book.answers (pieces.map .add), answer = true) →
      parts.view whole.side.wing.opposite = alone.view whole.side.wing.opposite ∧
        (∀ price, price ≠ whole.price → parts.view whole.side.wing price = alone.view whole.side.wing price) ∧
        standing (parts.view whole.side.wing whole.price) = standing (alone.view whole.side.wing whole.price) ∧
        book.view whole.side.wing whole.price <+: parts.view whole.side.wing whole.price ∧
        parts.bestBid = alone.bestBid ∧ parts.bestAsk = alone.bestAsk ∧
        ∀ price, tradedAt ((parts.reports.drop book.reports.length).map TradeReport.trade) price =
          tradedAt ((alone.reports.drop book.reports.length).map TradeReport.trade) price := by
  intro book alone parts served accepted
  obtain ⟨ledger, same, settled, callback, -⟩ := @balanced_run true clock calls admissible
  obtain ⟨after, reference, represents, settledAfter, tracks, portions⟩ := portions_run same settled callback pieces
    (fun piece member => by
      obtain ⟨positive, side, price⟩ := alike piece member
      refine ⟨?_, congrArg Side.wing side, price⟩
      rw [Call.Admissible, side, price]
      exact ⟨sound.1, sound.2.1, positive⟩) accepted
  obtain ⟨single, other, sameSingle, settledSingle, tracksSingle, once⟩ := portions_run same settled callback [whole]
    (fun piece member => by
      obtain rfl := List.mem_singleton.mp member
      exact ⟨sound, rfl, rfl⟩)
    (fun answer member => (List.mem_singleton.mp member).trans served)
  rw [List.map_singleton, List.sum_singleton] at once
  rw [total] at portions
  have view : parts.view = reference.queue := (represents.view_eq settledAfter.toInv).trans tracks.view
  have viewAlone : alone.view = other.queue := (sameSingle.view_eq settledSingle.toInv).trans tracksSingle.view
  have reports : parts.reports.map TradeReport.trade = reference.trades := by
    rw [represents.core]
    exact tracks.trades
  have reportsAlone : alone.reports.map TradeReport.trade = other.trades := by
    rw [show alone.reports = single.reports from congrArg BookCore.reports sameSingle.core]
    exact tracksSingle.trades
  have reportsBefore : (ledger.reports.map TradeReport.trade).length = book.reports.length := by
    rw [show book.reports = ledger.reports from congrArg BookCore.reports same.core, List.length_map]
  obtain ⟨facing, elsewhere, own, empty, trades, others, made, madeAlone, alike⟩ := portions.alike once
  have best (wing : Wing) : after.best wing = single.best wing := by
    apply settledSingle.best_of_view settledAfter
    intro price
    rw [tracks.view, tracksSingle.view]
    rcases Wing.eq_or_opposite wing whole.side.wing with rfl | rfl
    · exact empty price
    · rw [facing]
  refine ⟨?_, ?_, ?_, ?_, ?_, ?_, fun price => ?_⟩
  · rw [view, viewAlone, facing]
  · rw [view, viewAlone]
    exact elsewhere
  · rw [view, viewAlone, own]
  · obtain ⟨rests, kept, -⟩ := portions.own
    rw [view, kept, same.view_eq settled.toInv]
    exact List.prefix_append _ _
  · exact ((represents.best_eq .bid).trans (best .bid)).trans (sameSingle.best_eq .bid).symm
  · exact ((represents.best_eq .ask).trans (best .ask)).trans (sameSingle.best_eq .ask).symm
  · rw [List.map_drop, List.map_drop, reports, reportsAlone, made, madeAlone, ← reportsBefore, List.drop_left,
      List.drop_left]
    exact alike price

def twoSells : List Call := [.add (.sell 1 65534 5), .add (.sell 2 65535 6)]

def twoBuys : List OrderMessage := [.buy 3 65535 4, .buy 4 65535 3]

/-- A buy for seven lots meets two sells, and so do a buy for four lots and one for three. -/
theorem portions_trade_alike_of_two :
    let book := (OrderBook.empty true fun _ => 1).run twoSells
    let alone := (book.addOrder (.buy 5 65535 7)).2
    let parts := book.run (twoBuys.map .add)
    parts.reports.map TradeReport.trade = [⟨3, 1, 65534, 4⟩, ⟨4, 1, 65534, 1⟩, ⟨4, 2, 65535, 2⟩] ∧
      ∀ price, tradedAt ((parts.reports.drop book.reports.length).map TradeReport.trade) price =
        tradedAt ((alone.reports.drop book.reports.length).map TradeReport.trade) price := by
  have alike := portions_trade_alike (fun _ => 1) twoSells (by decide) (.buy 5 65535 7) (by decide) twoBuys
    (by decide) (by decide) (by decide +kernel) (by decide +kernel)
  obtain ⟨-, -, -, -, -, -, traded⟩ := alike
  exact ⟨by decide +kernel, traded⟩

end OrderEngine
