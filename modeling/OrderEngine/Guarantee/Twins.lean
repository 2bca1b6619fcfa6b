import OrderEngine.Guarantee.Priority
import OrderEngine.Guarantee.Turnover

namespace OrderEngine

open Library

/-- What a call answers, trades and leaves depends on the queues, not on the trades before it. -/
theorem Reference.call_prior (queue : Wing → Int → Queue OrderId) (prior : List Trade) (call : Call) :
    let alone := (Reference.mk queue []).call call
    (Reference.mk queue prior).call call = (alone.1, ⟨alone.2.queue, prior ++ alone.2.trades⟩) := by
  intro alone
  have located (id : OrderId) : (Reference.mk queue prior).locate id = (Reference.mk queue []).locate id := rfl
  cases call with
  | add msg =>
      simp only [alone, Reference.call, add, List.nil_append]
      split
      · rfl
      · rfl
  | cancel id =>
      simp only [alone, Reference.call, located]
      cases (Reference.mk queue []).locate id with
      | none => simp
      | some place => simp [delete, setQueue]
  | modify id newQty =>
      simp only [alone, Reference.call, located]
      cases (Reference.mk queue []).locate id with
      | none => simp
      | some place =>
          have remaining : (Reference.mk queue prior).remaining place.1 place.2 id =
              (Reference.mk queue []).remaining place.1 place.2 id := rfl
          simp only [remaining]
          split
          · simp [resize, setQueue]
          · simp [delete, append, setQueue]

namespace Ledger

variable {ledger twin after twinAfter : Ledger} {slot : Ptr} {msg : OrderMessage}

/-- Two ledgers show the same queues, and the second one has at least as many free slots. -/
structure Twins (ledger twin : Ledger) : Prop where
  settled : ledger.Settled
  twinSettled : twin.Settled
  registered : ledger.Registered
  twinRegistered : twin.Registered
  callback : ledger.tradeCb = true
  twinCallback : twin.tradeCb = true
  view : twin.view = ledger.view
  room : ledger.free.length ≤ twin.free.length

theorem tracks_self (callback : ledger.tradeCb = true) :
    Tracks true ledger ⟨ledger.view, ledger.reports.map TradeReport.trade⟩ where
  view := rfl
  callback := callback
  trades := rfl

theorem linkedCount_of_view (same : twin.view = ledger.view) : twin.linkedCount = ledger.linkedCount := by
  have long (wing : Wing) (price : Int) :
      (twin.queue wing price).length = (ledger.queue wing price).length := by
    have entries := congrArg List.length (congrFun (congrFun same wing) price)
    rw [view, view, List.length_map, List.length_map] at entries
    exact entries
  unfold linkedCount
  simp only [long]

/-- The best price of a wing shows in its queues. -/
theorem Settled.best_of_view (settled : ledger.Settled) (twinSettled : twin.Settled) {wing : Wing}
    (same : ∀ price, twin.view wing price = [] ↔ ledger.view wing price = []) : twin.best wing = ledger.best wing := by
  apply twinSettled.best_unique settled
  intro price
  have entries := same price
  rw [view, view, List.map_eq_nil_iff, List.map_eq_nil_iff] at entries
  exact entries

/-- Whether an add leaks its slot shows in the reference: it does when nothing is left of the demand. -/
theorem AddRun.leaked_eq {reference : Reference} {placed : Option Ptr} (run : ledger.AddRun msg placed after)
    (tracks : Tracks true ledger reference) (settled : ledger.Settled) (inside : InTicks msg.price)
    (positive : 0 < msg.quantity) (served : ledger.free ≠ []) :
    after.leaked placed =
      if (sweep (reference.queue msg.side.wing.opposite) (msg.side.wing.opposite.ticks msg.price)
        msg.quantity.toNat).wanted = 0 then 1 else 0 := by
  cases run with
  | full free => exact absurd free served
  | @filled slot rest after free run stopped tight done =>
      have arrived := (run.inv (settled.toInv.enroll free inside positive)).arrived rfl
      obtain ⟨-, wanted, -⟩ := tracks.matched settled free inside positive run stopped
      rw [leaked, if_pos done]
      rw [arrived.filled_iff, unfilled_iff arrived.filledLe, wanted] at done
      rw [if_pos (by omega)]
  | @rested slot rest after free run stopped tight left =>
      have arrived := (run.inv (settled.toInv.enroll free inside positive)).arrived rfl
      obtain ⟨-, wanted, -⟩ := tracks.matched settled free inside positive run stopped
      rw [leaked, rest_data, if_neg left]
      rw [Ne, arrived.filled_iff, unfilled_iff arrived.filledLe, wanted, not_not] at left
      rw [if_neg (Nat.ne_of_gt left)]

namespace Twins

/-- The twin links an order of the same identifier. -/
theorem linked_of_linked (twins : ledger.Twins twin) (linked : twin.Linked slot) :
    ∃ other, ledger.Linked other ∧ (ledger.data other).id = (twin.data slot).id := by
  have here : twin.entry slot ∈ twin.view (twin.wing slot) (twin.price slot) := List.mem_map_of_mem linked
  rw [twins.view] at here
  obtain ⟨other, member, same⟩ := List.mem_map.mp here
  exact ⟨other, twins.settled.toInv.linked member, congrArg Prod.fst same⟩

/-- A call that is fresh for a ledger is fresh for its twin. -/
theorem fresh {call : Call} (twins : ledger.Twins twin)
    (fresh : ∀ msg, call = .add msg → ledger.free ≠ [] ∧
      ∀ other, ledger.Linked other → mapSlot (ledger.data other).id ≠ mapSlot msg.orderId) :
    ∀ msg, call = .add msg → twin.free ≠ [] ∧
      ∀ other, twin.Linked other → mapSlot (twin.data other).id ≠ mapSlot msg.orderId := by
  intro msg added
  obtain ⟨served, apart⟩ := fresh msg added
  constructor
  · have some_ := List.length_pos_of_ne_nil served
    exact List.ne_nil_of_length_pos (Nat.lt_of_lt_of_le some_ twins.room)
  · intro other linked
    obtain ⟨own, ownLinked, named⟩ := twins.linked_of_linked linked
    rw [← named]
    exact apart own ownLinked

/-- Twins stay twins under each call: they give the same answer and make the same trades. -/
theorem call {call : Call} {answer twinAnswer : Bool} (twins : ledger.Twins twin) (admissible : call.Admissible)
    (fresh : ∀ msg, call = .add msg → ledger.free ≠ [] ∧
      ∀ other, ledger.Linked other → mapSlot (ledger.data other).id ≠ mapSlot msg.orderId)
    (run : ledger.CallRun call answer after) (twinRun : twin.CallRun call twinAnswer twinAfter) :
    twinAnswer = answer ∧ after.Twins twinAfter ∧ ∃ made,
      after.reports.map TradeReport.trade = ledger.reports.map TradeReport.trade ++ made ∧
        twinAfter.reports.map TradeReport.trade = twin.reports.map TradeReport.trade ++ made := by
  have twinFresh := twins.fresh fresh
  have tracks := tracks_self twins.callback
  have twinTracks : Tracks true twin ⟨ledger.view, twin.reports.map TradeReport.trade⟩ :=
    twins.view ▸ tracks_self twins.twinCallback
  obtain ⟨answered, tracked, registered⟩ := tracks.call twins.settled twins.registered admissible run fresh
  obtain ⟨twinAnswered, twinTracked, twinRegistered⟩ :=
    twinTracks.call twins.twinSettled twins.twinRegistered admissible twinRun twinFresh
  rw [Reference.call_prior] at answered tracked twinAnswered twinTracked
  have view : twinAfter.view = after.view := twinTracked.view.trans tracked.view.symm
  have before := linkedCount_of_view twins.view
  have later := linkedCount_of_view view
  have room := twins.room
  refine ⟨twinAnswered.symm.trans answered, ?_, _, tracked.trades, twinTracked.trades⟩
  exact {
    settled := twins.settled.call admissible run
    twinSettled := twins.twinSettled.call admissible twinRun
    registered := registered
    twinRegistered := twinRegistered
    callback := tracked.callback
    twinCallback := twinTracked.callback
    view := view
    room := by
      cases call with
      | add msg =>
          obtain ⟨-, inside, positive⟩ := admissible
          cases run with
          | add run =>
              cases twinRun with
              | add twinRun =>
                  have leaked := run.leaked_eq tracks twins.settled inside positive (fresh msg rfl).1
                  have twinLeaked := twinRun.leaked_eq twinTracks twins.twinSettled inside positive
                    (twinFresh msg rfl).1
                  have balance := run.occupancy twins.settled.toInv inside positive
                  have twinBalance := twinRun.occupancy twins.twinSettled.toInv inside positive
                  have together := twinLeaked.trans leaked.symm
                  omega
      | cancel id =>
          have balance := run.occupancy twins.settled (by simp)
          have twinBalance := twinRun.occupancy twins.twinSettled (by simp)
          omega
      | modify id newQty =>
          have balance := run.occupancy twins.settled (by simp)
          have twinBalance := twinRun.occupancy twins.twinSettled (by simp)
          omega }

end Twins

end Ledger

/-- The two books stand for twins. -/
def OrderBook.Twins (book other : OrderBook) : Prop :=
  ∃ ledger twin, Represents book ledger ∧ Represents other twin ∧ ledger.Twins twin

namespace OrderBook.Twins

variable {book other : OrderBook}

theorem call {call : Call} (twins : book.Twins other) (admissible : call.Admissible) (fresh : book.Fresh call) :
    (other.call call).1 = (book.call call).1 ∧ (book.call call).2.Twins (other.call call).2 ∧ ∃ made,
      (book.call call).2.reports.map TradeReport.trade = book.reports.map TradeReport.trade ++ made ∧
        (other.call call).2.reports.map TradeReport.trade = other.reports.map TradeReport.trade ++ made := by
  obtain ⟨ledger, twin, same, sameTwin, pair⟩ := twins
  obtain ⟨after, run, represents, -⟩ := same.call pair.settled.toInv admissible.sound
  obtain ⟨twinAfter, twinRun, twinRepresents, -⟩ := sameTwin.call pair.twinSettled.toInv admissible.sound
  obtain ⟨answer, kept, made, trades, twinTrades⟩ := pair.call admissible
    (same.fresh pair.settled.toInv admissible.sound fresh) run twinRun
  refine ⟨answer, ⟨after, twinAfter, represents, twinRepresents, kept⟩, made, ?_, ?_⟩
  · rw [represents.core, same.core]
    exact trades
  · rw [twinRepresents.core, sameTwin.core]
    exact twinTrades

/-- Twins cannot be told apart by any fresh calls: they answer, trade and stay twins. -/
theorem run (twins : book.Twins other) (calls : List Call) (admissible : ∀ call ∈ calls, call.Admissible)
    (fresh : ∀ past call, past ++ [call] <+: calls → (book.run past).Fresh call) :
    other.answers calls = book.answers calls ∧ (book.run calls).Twins (other.run calls) ∧ ∃ made,
      (book.run calls).reports.map TradeReport.trade = book.reports.map TradeReport.trade ++ made ∧
        (other.run calls).reports.map TradeReport.trade = other.reports.map TradeReport.trade ++ made := by
  induction calls using List.reverseRecOn with
  | nil => exact ⟨rfl, twins, [], (List.append_nil _).symm, (List.append_nil _).symm⟩
  | append_singleton past call ih =>
      obtain ⟨answers, kept, made, trades, twinTrades⟩ := ih
        (fun other member => admissible other (by simp [member]))
        (fun front next inside => fresh front next (inside.trans (List.prefix_append past [call])))
      obtain ⟨answer, after, more, moreTrades, moreTwinTrades⟩ := kept.call (admissible call (by simp))
        (fresh past call List.prefix_rfl)
      rw [OrderBook.run_append, OrderBook.run_append, answers_append, answers_append, answers, answer]
      refine ⟨rfl, after, made ++ more, ?_, ?_⟩
      · rw [moreTrades, trades, List.append_assoc]
      · rw [moreTwinTrades, twinTrades, List.append_assoc]

/-- Twins show the same queues and the same best prices. -/
theorem shows (twins : book.Twins other) :
    other.view = book.view ∧ other.bestBid = book.bestBid ∧ other.bestAsk = book.bestAsk ∧
      book.orderPool.available ≤ other.orderPool.available := by
  obtain ⟨ledger, twin, same, sameTwin, pair⟩ := twins
  have best (wing : Wing) : twin.best wing = ledger.best wing := by
    apply pair.settled.best_of_view pair.twinSettled
    intro price
    rw [pair.view]
  refine ⟨?_, ?_, ?_, ?_⟩
  · rw [same.view_eq pair.settled.toInv, sameTwin.view_eq pair.twinSettled.toInv]
    exact pair.view
  · exact ((sameTwin.best_eq .bid).trans (best .bid)).trans (same.best_eq .bid).symm
  · exact ((sameTwin.best_eq .ask).trans (best .ask)).trans (same.best_eq .ask).symm
  · rw [same.available_eq, sameTwin.available_eq]
    exact pair.room

end OrderBook.Twins

end OrderEngine
