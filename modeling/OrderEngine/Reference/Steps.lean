import OrderEngine.Reference.Tracks

namespace OrderEngine

open Library

/-- The reference shows the queues of the ledger, and it made the trades that the callback received. -/
structure Tracks (tradeCb : Bool) (ledger : Ledger) (reference : Reference) : Prop where
  view : ledger.view = reference.queue
  callback : ledger.tradeCb = tradeCb
  trades : ledger.reports.map TradeReport.trade = if tradeCb then reference.trades else []

namespace Tracks

variable {tradeCb : Bool} {ledger after : Ledger} {reference : Reference} {slot : Ptr} {id : OrderId}
  {msg : OrderMessage}

section Locate

variable (tracks : Tracks tradeCb ledger reference) (inv : ledger.Inv none)

include tracks

theorem any_iff (wing : Wing) (price : Int) :
    ((reference.queue wing price).any fun entry => entry.1 = id) = true ↔
      ∃ slot ∈ ledger.queue wing price, (ledger.data slot).id = id := by
  rw [← tracks.view, Ledger.view, List.any_map, List.any_eq_true]
  exact exists_congr fun slot => and_congr_right fun _ => decide_eq_true_iff

include inv

/-- The reference locates the order that a lookup finds. -/
theorem locate_of_found (registered : ledger.Registered) (found : ledger.findLive id = some slot) :
    reference.locate id = some (ledger.wing slot, ledger.price slot) := by
  obtain ⟨linked, named⟩ := inv.found_linked found
  have here := (tracks.any_iff (ledger.wing slot) (ledger.price slot)).mpr ⟨slot, linked, named⟩
  cases located : reference.locate id with
  | none =>
      rw [Reference.locate, List.find?_eq_none] at located
      have nowhere := located (ledger.wing slot, ledger.price slot)
        (Reference.mem_places (inv.inTicks linked))
      exact absurd here nowhere
  | some place =>
      rw [Reference.locate] at located
      have held := List.find?_some located
      obtain ⟨other, member, same⟩ := (tracks.any_iff place.1 place.2).mp held
      obtain rfl := registered.eq_of_id_eq (inv.linked member) linked (same.trans named.symm)
      rw [(inv.placed member).1, (inv.placed member).2]

theorem locate_of_missing (registered : ledger.Registered) (missing : ledger.findLive id = none) :
    reference.locate id = none := by
  apply List.find?_eq_none.mpr
  intro place _ held
  obtain ⟨slot, member, named⟩ := (tracks.any_iff place.1 place.2).mp held
  rw [(registered.findLive_iff inv).mpr ⟨inv.linked member, named⟩] at missing
  exact absurd missing (Option.some_ne_none _)

theorem remaining_eq (registered : ledger.Registered) (linked : ledger.Linked slot) :
    reference.remaining (ledger.wing slot) (ledger.price slot) (ledger.data slot).id = ledger.left slot := by
  rw [Reference.remaining, ← tracks.view, Ledger.view, List.find?_map]
  cases found : (ledger.queue (ledger.wing slot) (ledger.price slot)).find?
      ((fun entry : OrderId × Nat => decide (entry.1 = (ledger.data slot).id)) ∘ ledger.entry) with
  | none =>
      have nobody := List.find?_eq_none.mp found slot linked
      exact absurd (decide_eq_true rfl) nobody
  | some other =>
      have held := List.find?_some found
      have named : (ledger.data other).id = (ledger.data slot).id := of_decide_eq_true held
      have member := List.mem_of_find?_eq_some found
      rw [registered.eq_of_id_eq (inv.linked member) linked named]
      rfl

end Locate

theorem withdraw (tracks : Tracks tradeCb ledger reference) (inv : ledger.Inv none)
    (registered : ledger.Registered) (linked : ledger.Linked slot) :
    Tracks tradeCb (ledger.withdraw slot)
      (reference.delete (ledger.wing slot) (ledger.price slot) (ledger.data slot).id) where
  view := by
    rw [Ledger.withdraw_view inv registered linked, tracks.view]
    rfl
  callback := by
    rw [Ledger.withdraw_tradeCb]
    exact tracks.callback
  trades := by
    rw [Ledger.withdraw_reports]
    exact tracks.trades

theorem ticked (tracks : Tracks tradeCb ledger reference) : Tracks tradeCb ledger.ticked reference :=
  ⟨tracks.view, tracks.callback, tracks.trades⟩

theorem shrink (tracks : Tracks tradeCb ledger reference) (inv : ledger.Inv none)
    (registered : ledger.Registered) (linked : ledger.Linked slot) {newQty : Quantity}
    (fits : newQty ≤ (ledger.data slot).remaining) :
    Tracks tradeCb (ledger.shrink slot newQty)
      (reference.resize (ledger.wing slot) (ledger.price slot) (ledger.data slot).id newQty.toNat) where
  view := by
    rw [Ledger.shrink_view inv registered linked fits, tracks.view]
    rfl
  callback := tracks.callback
  trades := tracks.trades

section Add

variable {rest : List Ptr} (tracks : Tracks tradeCb ledger reference) (settled : ledger.Settled)
  (free : ledger.free = slot :: rest) (inside : InTicks msg.price) (positive : 0 < msg.quantity)
  (run : Ledger.MatchRun slot (ledger.enroll slot rest msg) after) (stopped : ¬ after.Crosses slot)

include tracks settled free inside positive run stopped

/-- A match that has stopped made the trades of the reference and left its queues. -/
theorem matched :
    let facing := msg.side.wing.opposite
    let swept := sweep (reference.queue facing) (facing.ticks msg.price) msg.quantity.toNat
    after.view = Function.update reference.queue facing swept.queues ∧
      after.left slot = swept.wanted ∧ after.tradeCb = tradeCb ∧
      after.reports.map TradeReport.trade = (if tradeCb then
        reference.trades ++ swept.taken.map (Reference.tradeWith msg.orderId facing) else []) := by
  intro facing swept
  have inv := settled.toInv.enroll free inside positive
  obtain ⟨trades, takes⟩ := run.takes inv
  have data := ledger.enroll_data_self slot rest msg
  have own : (ledger.enroll slot rest msg).wing slot = msg.side.wing := by
    rw [Ledger.wing, data]
  have face : (ledger.enroll slot rest msg).facing slot = facing := by rw [Ledger.facing, own]
  have price : (ledger.enroll slot rest msg).price slot = msg.price := by rw [Ledger.price, data]
  have view := (Ledger.enroll_view settled.toInv free msg).trans tracks.view
  have begun : (ledger.enroll slot rest msg).swept slot = swept := by
    rw [Ledger.swept, face, price, view, Ledger.enroll_left_self]
  have ended := (run.inv inv).swept_stopped stopped
  rw [run.facing_eq, face] at ended
  have taken := takes.taken
  have queues := takes.queues
  have wanted := takes.wanted
  have reports := takes.reports
  rw [begun, ended] at taken queues wanted
  rw [List.append_nil] at taken
  have callback : after.tradeCb = tradeCb := takes.tradeCb.trans tracks.callback
  refine ⟨?_, wanted.symm, callback, ?_⟩
  · funext wing
    by_cases here : wing = facing
    · rw [here, Function.update_self, queues]
    · have same : wing = msg.side.wing := by
        revert here
        cases wing <;> cases side : msg.side.wing <;> simp [facing, side, Wing.opposite]
      have kept := takes.own
      rw [own, view] at kept
      rw [Function.update_of_ne here, same, kept]
  · have before : (ledger.enroll slot rest msg).reports.map TradeReport.trade = _ := tracks.trades
    have installed : (ledger.enroll slot rest msg).tradeCb = tradeCb := tracks.callback
    rw [before, face, data, installed, ← taken] at reports
    rw [reports]
    split
    · rfl
    · rfl

end Add

/-- An added order that the pool serves is matched and rested as the reference does. -/
theorem add {placed : Option Ptr} (tracks : Tracks tradeCb ledger reference) (settled : ledger.Settled)
    (inside : InTicks msg.price) (positive : 0 < msg.quantity) (served : ledger.free ≠ [])
    (run : ledger.AddRun msg placed after) : Tracks tradeCb after (reference.add msg) := by
  cases run with
  | full free => exact absurd free served
  | @filled slot rest after free run stopped tight done =>
      have arrived := (run.inv (settled.toInv.enroll free inside positive)).arrived rfl
      obtain ⟨view, wanted, callback, reports⟩ := tracks.matched settled free inside positive run stopped
      rw [arrived.filled_iff, Ledger.unfilled_iff arrived.filledLe, wanted] at done
      rw [Reference.add, if_pos (by omega)]
      exact ⟨view, callback, reports⟩
  | @rested slot rest after free run stopped tight left =>
      have arrived := (run.inv (settled.toInv.enroll free inside positive)).arrived rfl
      obtain ⟨view, wanted, callback, reports⟩ := tracks.matched settled free inside positive run stopped
      rw [Ne, arrived.filled_iff, Ledger.unfilled_iff arrived.filledLe, wanted, not_not] at left
      have same := run.same_order slot
      rw [Ledger.enroll_data_self] at same
      have id : (after.data slot).id = msg.orderId := same.1
      have wing : after.wing slot = msg.side.wing := congrArg Side.wing same.2.1
      have price : after.price slot = msg.price := by
        rw [same.2.2.1, Ledger.price, Ledger.enroll_data_self]
      rw [Reference.add, if_neg (Nat.ne_of_gt left)]
      exact {
        view := by
          rw [Ledger.rest_view, Ledger.entry, id, wanted, wing, price, view]
          rfl
        callback := by rw [Ledger.rest_tradeCb, callback]
        trades := by
          rw [Ledger.rest_reports, reports]
          rfl }

/-- The replacement of an order goes to the end of its queue. -/
theorem replace {placed : Option Ptr} {newQty : Quantity} (tracks : Tracks tradeCb ledger reference)
    (settled : ledger.Settled) (registered : ledger.Registered) (linked : ledger.Linked slot)
    (larger : ¬ newQty ≤ (ledger.data slot).remaining)
    (run : (ledger.withdraw slot).ticked.AddRun
      ((ledger.withdraw slot).replacement slot (ledger.data slot).id newQty) placed after) :
    Tracks tradeCb after
      ((reference.delete (ledger.wing slot) (ledger.price slot) (ledger.data slot).id).append
        (ledger.wing slot) (ledger.price slot) (ledger.data slot).id newQty.toNat) := by
  have admissible : (Call.add ((ledger.withdraw slot).replacement slot (ledger.data slot).id
    newQty)).Admissible := settled.replacement_admissible linked larger
  obtain ⟨-, inside, positive⟩ := admissible
  have ticked := (tracks.withdraw settled.toInv registered linked).ticked
  have served : (ledger.withdraw slot).ticked.free ≠ [] := by
    rw [Ledger.ticked_free, Ledger.withdraw_free]
    exact List.cons_ne_nil _ _
  have added := ticked.add (settled.withdraw linked).ticked inside positive served run
  have nothing := @Ledger.Settled.replacement_crossing _ _ settled linked (ledger.data slot).id newQty
  rw [Ledger.crossing, List.flatMap_eq_nil_iff] at nothing
  rw [Reference.add_of_uncrossed positive] at added
  · rw [Ledger.replacement_wing, Ledger.replacement_price] at added
    exact added
  · intro price member
    rw [← ticked.view, Ledger.view, nothing price member, List.map_nil]

/-- A call that the pool serves and that collides with no order has the effect and the answer of the
reference. -/
theorem call {call : Call} {answer : Bool} (tracks : Tracks tradeCb ledger reference) (settled : ledger.Settled)
    (registered : ledger.Registered) (admissible : call.Admissible)
    (run : ledger.CallRun call answer after)
    (fresh : ∀ msg, call = .add msg → ledger.free ≠ [] ∧
      ∀ other, ledger.Linked other → mapSlot (ledger.data other).id ≠ mapSlot msg.orderId) :
    (reference.call call).1 = answer ∧ Tracks tradeCb after (reference.call call).2 ∧ after.Registered := by
  have inv := settled.toInv
  cases run with
  | @add msg placed after run =>
      obtain ⟨served, apart⟩ := fresh msg rfl
      obtain ⟨-, inside, positive⟩ := admissible
      exact ⟨(run.placed_isSome served).symm, tracks.add settled inside positive served run,
        registered.add settled inside positive run apart⟩
  | cancelMissing missing =>
      rw [Reference.call, tracks.locate_of_missing inv registered missing]
      exact ⟨rfl, tracks, registered⟩
  | cancel found =>
      obtain ⟨linked, rfl⟩ := inv.found_linked found
      rw [Reference.call, tracks.locate_of_found inv registered found]
      exact ⟨rfl, tracks.withdraw inv registered linked, registered.withdraw inv linked⟩
  | modifyMissing missing =>
      rw [Reference.call, tracks.locate_of_missing inv registered missing]
      exact ⟨rfl, tracks, registered⟩
  | @shrink id newQty slot found fits =>
      obtain ⟨linked, rfl⟩ := inv.found_linked found
      rw [Reference.call, tracks.locate_of_found inv registered found]
      simp only [tracks.remaining_eq inv registered linked]
      have smaller : newQty.toNat ≤ ledger.left slot := UInt64.le_iff_toNat_le.mp fits
      rw [if_pos smaller]
      exact ⟨rfl, tracks.shrink inv registered linked fits, registered.shrink newQty⟩
  | @replace id newQty slot placed after found larger run =>
      obtain ⟨linked, rfl⟩ := inv.found_linked found
      obtain ⟨-, inside, positive⟩ := settled.replacement_admissible linked larger
      have beyond : ¬ newQty.toNat ≤ ledger.left slot :=
        fun fits => larger (UInt64.le_iff_toNat_le.mpr fits)
      have apart : ∀ other, (ledger.withdraw slot).ticked.Linked other →
          mapSlot ((ledger.withdraw slot).ticked.data other).id ≠ mapSlot (ledger.data slot).id := by
        intro other here
        obtain ⟨was, different⟩ := (Ledger.withdraw_linked inv linked).mp (Ledger.ticked_linked.mp here)
        rw [Ledger.ticked_data, Ledger.withdraw_id]
        exact fun same => different (registered.eq_of_mapSlot_eq was linked same)
      rw [Reference.call, tracks.locate_of_found inv registered found]
      simp only [tracks.remaining_eq inv registered linked]
      rw [if_neg beyond]
      have withdrawn := (registered.withdraw inv linked).ticked
      have served : placed.isSome = true := by
        apply run.placed_isSome
        rw [Ledger.ticked_free, Ledger.withdraw_free]
        exact List.cons_ne_nil _ _
      exact ⟨served.symm, tracks.replace settled registered linked larger run,
        withdrawn.add (settled.withdraw linked).ticked inside positive run apart⟩

end Tracks

end OrderEngine
