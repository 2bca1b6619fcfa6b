import OrderEngine.Guarantee.Genuine
import OrderEngine.Guarantee.Twins
import OrderEngine.Reference.Rebuild

namespace OrderEngine

open Library

namespace OrderBook

/-- An order goes in again with what is left of it. -/
def resubmit (book : OrderBook) (slot : Ptr) : OrderMessage where
  side := (book.order slot).side
  orderId := (book.order slot).id
  price := (book.order slot).price
  quantity := book.remaining slot

/-- A listing names the resting orders, and those of one level in the order of its queue. -/
def Listing (book : OrderBook) : List Ptr → Prop :=
  Lists (fun slot => ((book.order slot).side.wing, (book.order slot).price)) fun level => book.queue level.1 level.2

/-- The snapshot lists one level after the other. -/
def snapshot (book : OrderBook) : List Ptr :=
  Reference.places.flatMap fun place => book.queue place.1 place.2

/-- Something is left of every resting order, and its identifier finds it. -/
structure Recoverable (book : OrderBook) : Prop where
  alive : ∀ slot, book.Linked slot → 0 < book.remaining slot
  mapped : ∀ slot, book.Linked slot → book.orderMap (mapSlot (book.order slot).id) = some slot

end OrderBook

theorem Reference.places_nodup : Reference.places.Nodup := by
  have ticks (wing : Wing) : ((List.range kMaxPriceTicks).map fun tick : Nat => (wing, (tick : Int))).Nodup := by
    apply List.nodup_range.map
    intro first second same
    exact Int.ofNat.inj (congrArg Prod.snd same)
  unfold places
  rw [List.flatMap_cons, List.flatMap_cons, List.flatMap_nil, List.append_nil]
  refine (ticks .bid).append (ticks .ask) ?_
  intro level bid ask
  obtain ⟨_, -, rfl⟩ := List.mem_map.mp bid
  obtain ⟨_, -, same⟩ := List.mem_map.mp ask
  exact absurd (congrArg Prod.fst same) (by simp)

namespace Represents

variable {book : OrderBook} {ledger : Ledger}

theorem resubmit_eq (same : Represents book ledger) (slot : Ptr) : book.resubmit slot = ledger.resubmit slot := by
  unfold OrderBook.resubmit Ledger.resubmit
  rw [same.side_eq, same.id_eq, same.price_eq, same.remaining_eq]

theorem listing_iff (same : Represents book ledger) (inv : ledger.Inv none) (slots : List Ptr) :
    book.Listing slots ↔ ledger.Listing slots := by
  unfold OrderBook.Listing Ledger.Listing
  simp only [same.wing_eq, same.price_eq, same.queue_eq inv]
  exact Iff.rfl

theorem listing_snapshot (same : Represents book ledger) (inv : ledger.Inv none) : book.Listing book.snapshot := by
  have cells : book.snapshot = Reference.places.flatMap fun level => ledger.queue level.1 level.2 := by
    unfold OrderBook.snapshot
    simp only [same.queue_eq inv]
  rw [same.listing_iff inv, cells]
  refine lists_flatMap Reference.places_nodup ?_ ?_
  · rintro ⟨wing, price⟩ slot member
    exact Prod.ext (inv.placed member).1 (inv.placed member).2
  · rintro ⟨wing, price⟩ occupied
    obtain ⟨slot, member⟩ := List.exists_mem_of_ne_nil _ occupied
    exact Reference.mem_places (inv.inTicks member)

/-- The book can be recovered exactly when its orders are registered and not empty. -/
theorem recoverable_iff (same : Represents book ledger) (inv : ledger.Inv none) : book.Recoverable ↔
    (∀ slot, ledger.Linked slot → 0 < (ledger.data slot).remaining) ∧ ledger.Registered := by
  have core := same.core
  constructor
  · intro recoverable
    constructor
    · intro slot linked
      rw [← same.remaining_eq]
      exact recoverable.alive slot ((same.linked_iff inv slot).mpr linked)
    · intro slot linked
      rw [← same.id_eq, ← core]
      exact recoverable.mapped slot ((same.linked_iff inv slot).mpr linked)
  · rintro ⟨alive, registered⟩
    constructor
    · intro slot linked
      rw [same.remaining_eq]
      exact alive slot ((same.linked_iff inv slot).mp linked)
    · intro slot linked
      rw [same.id_eq, core]
      exact registered slot ((same.linked_iff inv slot).mp linked)

end Represents

/-- Without a modify to zero every order of a run stays genuine. -/
theorem genuine_run (tradeCb : Bool) (clock : Nat → Nanos) (calls : List Call)
    (admissible : ∀ call ∈ calls, call.Admissible) (some_ : ∀ id, Call.modify id 0 ∉ calls) :
    ((OrderBook.empty tradeCb clock).run calls).Genuine := by
  induction calls using List.reverseRecOn with
  | nil =>
      apply ((Represents.empty tradeCb clock).genuine_iff Ledger.empty_settled.toInv).mpr
      exact {
        orders := fun _ linked => absurd linked List.not_mem_nil
        arrived := fun _ never => absurd never.symm (Option.some_ne_none _)
        trades := ⟨fun _ member => absurd member List.not_mem_nil,
          fun _ member => absurd member List.not_mem_nil, rfl, fun _ => rfl⟩ }
  | append_singleton past call ih =>
      have genuine := ih (fun other member => admissible other (by simp [member]))
        (fun id member => some_ id (by simp [member]))
      obtain ⟨ledger, same, settled⟩ := settled_run tradeCb clock
        (fun other member => admissible other (List.mem_append_left _ member) : ∀ other ∈ past, other.Admissible)
      have last := admissible call (by simp)
      obtain ⟨after, run, represents, invAfter⟩ := same.call settled.toInv last.sound
      rw [OrderBook.run_append, represents.genuine_iff invAfter,
        run.genuine_iff settled last ((same.genuine_iff settled.toInv).mp genuine)]
      cases call with
      | add msg => trivial
      | cancel id => trivial
      | modify id newQty =>
          rintro rfl
          exact absurd (List.mem_append_right past (List.mem_singleton_self _)) (some_ id)

/-- A run from a new book leaves a recoverable book when no add collides with a resting order and no modify asks
for nothing. -/
theorem recoverable_run (tradeCb : Bool) (clock : Nat → Nanos) (calls : List Call)
    (admissible : ∀ call ∈ calls, call.Admissible)
    (fresh : ∀ past call, past ++ [call] <+: calls → ((OrderBook.empty tradeCb clock).run past).Fresh call)
    (some_ : ∀ id, Call.modify id 0 ∉ calls) : ((OrderBook.empty tradeCb clock).run calls).Recoverable := by
  have simulated : Simulated tradeCb clock calls := by
    refine always_of_step (simulated_nil tradeCb clock) ?_ (List.prefix_refl calls)
    intro past call inside earlier
    exact earlier.step (admissible call (mem_of_past inside)) (fresh past call inside)
  obtain ⟨ledger, same, settled, registered, -⟩ := simulated
  rw [same.recoverable_iff settled.toInv]
  refine ⟨fun slot linked => ?_, registered⟩
  have genuine := (same.genuine_iff settled.toInv).mp (genuine_run tradeCb clock calls admissible some_)
  exact OrderData.remaining_pos (genuine.orders slot linked).1

/-- The orders of a listing, sent again to a new book, rebuild the ledger order by order. -/
theorem rebuilt_run (clock : Nat → Nanos) {ledger : Ledger} (settled : ledger.Settled) (registered : ledger.Registered)
    (alive : ∀ slot, ledger.Linked slot → 0 < (ledger.data slot).remaining) {slots : List Ptr}
    (listing : ledger.Listing slots) (past : List Ptr) (inside : past <+: slots) :
    ∃ twin, Represents ((OrderBook.empty true clock).run (past.map fun slot => .add (ledger.resubmit slot))) twin ∧
      ledger.Rebuilt past twin := by
  induction past using List.reverseRecOn with
  | nil =>
      refine ⟨_, .empty true clock, Ledger.empty_settled, fun _ linked => absurd linked List.not_mem_nil, rfl, rfl,
        ?_, fun _ _ => rfl⟩
      rw [Ledger.empty_free, stack_length]
      rfl
  | append_singleton past slot ih =>
      obtain ⟨twin, same, rebuilt⟩ := ih ((List.prefix_append past [slot]).trans inside)
      have linked (other : Ptr) (member : other ∈ past ++ [slot]) := listing.linked (inside.subset member)
      have own := linked slot (by simp)
      have new : slot ∉ past := by
        have apart := inside.sublist.nodup (listing.nodup settled.toInv)
        intro member
        exact List.disjoint_of_nodup_append apart member (List.mem_singleton_self slot)
      have room : past.length < kMaxOrders := by
        have short := inside.length_le
        have fits := listing.fits settled.toInv
        rw [List.length_append, List.length_singleton] at short
        omega
      obtain ⟨after, run, represents, -⟩ := @Represents.add _ _ same rebuilt.settled.toInv (ledger.resubmit slot)
        (settled.inTicks own) (alive slot own)
      refine ⟨after, ?_, rebuilt.step settled (fun other member => linked other (by simp [member])) registered own new
        room (alive slot own) run⟩
      rw [List.map_append, List.map_singleton, OrderBook.run_append]
      exact represents

/-- A book is recovered from its resting orders alone. Sent again to a new book, with what is left of them and in any
order that keeps the queues, they make no trade and fill the same queues, and the new book cannot be told apart from
the old one any more: it answers all later calls and makes all later trades as the old one does. -/
theorem snapshot_rebuilds_book (clock otherClock : Nat → Nanos) (calls later : List Call)
    (admissible : ∀ call ∈ calls ++ later, call.Admissible) (slots : List Ptr) :
    let book := (OrderBook.empty true clock).run calls
    let other := (OrderBook.empty true otherClock).run (slots.map fun slot => .add (book.resubmit slot))
    book.Recoverable → book.Listing slots →
      other.reports = [] ∧ other.view = book.view ∧ other.bestBid = book.bestBid ∧ other.bestAsk = book.bestAsk ∧
        other.orderCount = slots.length ∧
        ((∀ past call, past ++ [call] <+: later → (book.run past).Fresh call) →
          other.answers later = book.answers later ∧
            (other.run later).reports.map TradeReport.trade =
              ((book.run later).reports.drop book.reports.length).map TradeReport.trade ∧
            (other.run later).view = (book.run later).view ∧
            (other.run later).bestBid = (book.run later).bestBid ∧
            (other.run later).bestAsk = (book.run later).bestAsk) := by
  intro book other recoverable listing
  obtain ⟨ledger, same, settled, callback, -⟩ := @balanced_run true clock calls
    fun call member => admissible call (List.mem_append_left later member)
  rw [same.recoverable_iff settled.toInv] at recoverable
  rw [same.listing_iff settled.toInv] at listing
  obtain ⟨alive, registered⟩ := recoverable
  obtain ⟨twin, sameTwin, rebuilt⟩ := rebuilt_run otherClock settled registered alive listing slots List.prefix_rfl
  have sent : (slots.map fun slot => Call.add (ledger.resubmit slot)) =
      slots.map fun slot => .add (book.resubmit slot) := by
    simp only [book, same.resubmit_eq]
  rw [sent] at sameTwin
  have nothing : other.reports = [] := (congrArg BookCore.reports sameTwin.core).trans rebuilt.reports
  have fits := listing.fits settled.toInv
  have twins : book.Twins other := by
    refine ⟨ledger, twin, same, sameTwin, ?_⟩
    exact {
      settled := settled
      twinSettled := rebuilt.settled
      registered := registered
      twinRegistered := rebuilt.registered
      callback := callback
      twinCallback := rebuilt.callback
      view := by
        funext wing price
        rw [rebuilt.view]
        exact congrArg (List.map ledger.entry) (listing (wing, price))
      room := by
        have free := rebuilt.free
        omega }
  have count : other.orderCount = slots.length := by
    have free := rebuilt.free
    rw [OrderBook.orderCount, show other.orderPool.available = twin.free.length from sameTwin.available_eq]
    omega
  obtain ⟨view, bid, ask, -⟩ := twins.shows
  refine ⟨nothing, view, bid, ask, count, fun fresh => ?_⟩
  obtain ⟨answers, after, made, trades, otherTrades⟩ := twins.run later
    (fun call member => admissible call (List.mem_append_right calls member)) fresh
  obtain ⟨viewAfter, bidAfter, askAfter, -⟩ := after.shows
  refine ⟨answers, ?_, viewAfter, bidAfter, askAfter⟩
  rw [List.map_drop, trades, otherTrades, nothing, ← List.length_map TradeReport.trade, List.drop_left]
  rfl

/-- The buy of identifier three takes part of the sell, and one more lot of it is sold after the recovery. -/
def partlySold : List Call := [.add (.buy 1 65530 5), .add (.sell 2 65535 6), .add (.buy 3 65535 2)]

theorem snapshot_rebuilds_partly_sold :
    let book := (OrderBook.empty true fun _ => 1).run partlySold
    let other := (OrderBook.empty true fun _ => 7).run (book.snapshot.map fun slot => .add (book.resubmit slot))
    other.reports = [] ∧ other.view = book.view ∧
      (other.run [.add (.buy 4 65535 1)]).reports.map TradeReport.trade = [⟨4, 2, 65535, 1⟩] := by
  intro book
  have start : Simulated true (fun _ => 1) [] := simulated_nil true fun _ => 1
  have first : ((OrderBook.empty true fun _ => 1).run []).Fresh (.add (.buy 1 65530 5)) :=
    start.fresh (by decide +kernel) (by decide +kernel)
  have one := start.step (by decide) first
  have second : ((OrderBook.empty true fun _ => 1).run [.add (.buy 1 65530 5)]).Fresh (.add (.sell 2 65535 6)) :=
    one.fresh (by decide +kernel) (by decide +kernel)
  have two := one.step (by decide) second
  have third : ((OrderBook.empty true fun _ => 1).run [.add (.buy 1 65530 5), .add (.sell 2 65535 6)]).Fresh
      (.add (.buy 3 65535 2)) :=
    two.fresh (by decide +kernel) (by decide +kernel)
  have three : Simulated true (fun _ => 1) partlySold := two.step (by decide) third
  have fourth : (book.run []).Fresh (.add (.buy 4 65535 1)) := by
    rw [show book.run [] = book from List.foldl_nil]
    exact three.fresh (by decide +kernel) (by decide +kernel)
  have recoverable : book.Recoverable := by
    refine recoverable_run true (fun _ => 1) partlySold (by decide) ?_ (fun id => by simp [partlySold])
    refine forall_past_cons first ?_
    refine forall_past_cons second ?_
    exact forall_past_cons third forall_past_nil
  obtain ⟨ledger, same, settled, -⟩ := three
  have listing : book.Listing book.snapshot := same.listing_snapshot settled.toInv
  -- The snapshot visits every level, so it is never evaluated.
  generalize book.snapshot = slots at listing ⊢
  obtain ⟨nothing, view, -, -, -, goes⟩ := snapshot_rebuilds_book (fun _ => 1) (fun _ => 7) partlySold
    [.add (.buy 4 65535 1)] (by decide) slots recoverable listing
  obtain ⟨-, trades, -⟩ := goes (forall_past_cons fourth forall_past_nil)
  refine ⟨nothing, view, trades.trans ?_⟩
  decide +kernel

end OrderEngine
