import OrderEngine.Ledger.Outcome
import OrderEngine.Reference.Book

namespace OrderEngine

open Library

namespace Ledger

/-- The reference sees an order by its identifier and by what remains of it. -/
def entry (ledger : Ledger) (slot : Ptr) : OrderId × Nat := ((ledger.data slot).id, ledger.left slot)

def view (ledger : Ledger) (wing : Wing) (price : Int) : Queue OrderId :=
  (ledger.queue wing price).map ledger.entry

/-- The reference takes this for what the incoming order still wants. -/
def swept (ledger : Ledger) (incoming : Ptr) : Swept Int OrderId :=
  sweep (ledger.view (ledger.facing incoming))
    ((ledger.facing incoming).ticks (ledger.price incoming)) (ledger.left incoming)

variable {ledger next after : Ledger} {incoming resting : Ptr} {rest : List Ptr} {wing : Wing} {price : Int}

theorem view_eq {queue : List Ptr} (same : next.queue wing price = queue)
    (entries : ∀ slot ∈ queue, next.entry slot = ledger.entry slot) :
    next.view wing price = queue.map ledger.entry := by
  rw [view, same]
  exact List.map_congr_left entries

section Trade

variable (inv : ledger.Inv (some incoming)) (crosses : ledger.Crosses incoming)
  (head : ledger.queue (ledger.facing incoming) (ledger.best (ledger.facing incoming)) = resting :: rest)

include inv

theorem trade_entry_other {slot : Ptr} (linked : ledger.Linked slot) (different : slot ≠ resting) :
    (ledger.trade resting incoming).entry slot = ledger.entry slot := by
  have second : slot ≠ incoming := (inv.arrived rfl).ne linked
  rw [entry, entry, trade_left_other different second, trade, fill_id]

include head

/-- A trade changes the front of one queue as the reference does. -/
theorem trade_view : (ledger.trade resting incoming).view =
    Function.update ledger.view (ledger.facing incoming)
      (Function.update (ledger.view (ledger.facing incoming)) (ledger.best (ledger.facing incoming))
        (tradeHead (ledger.left incoming) (ledger.data resting).id (ledger.left resting)
          (rest.map ledger.entry))) := by
  obtain ⟨linked, place⟩ := head_linked inv.toShelved head
  have distinct := inv.distinct (ledger.facing incoming) (ledger.best (ledger.facing incoming))
  rw [head, List.nodup_cons] at distinct
  have others : ∀ slot ∈ rest, (ledger.trade resting incoming).entry slot = ledger.entry slot := by
    intro slot member
    apply trade_entry_other inv
    · exact inv.linked (by rw [head]; exact List.mem_cons_of_mem _ member)
    · intro equal
      subst equal
      exact distinct.1 member
  have elsewhere {wing : Wing} {price : Int}
      (apart : ¬(wing = ledger.facing incoming ∧ price = ledger.best (ledger.facing incoming))) :
      (ledger.trade resting incoming).view wing price = ledger.view wing price := by
    apply view_eq
    · rw [trade, fill_queue, place.1, place.2]
      split
      · exact setCell_of_ne _ _ apart
      · rfl
    · intro slot member
      apply trade_entry_other inv (inv.linked member)
      intro equal
      subst equal
      exact apart ⟨(inv.placed member).1.symm.trans place.1, (inv.placed member).2.symm.trans place.2⟩
  ext wing price : 2
  by_cases here : wing = ledger.facing incoming
  · subst here
    rw [Function.update_self]
    by_cases best : price = ledger.best (ledger.facing incoming)
    · subst best
      rw [Function.update_self, tradeHead]
      by_cases full : ledger.left resting ≤ ledger.left incoming
      · rw [if_pos full]
        apply view_eq _ others
        rw [trade, fill_queue, if_pos ((trade_completes inv head).mpr full), place.1, place.2,
          setCell_self, head, List.erase_cons_head]
      · rw [if_neg full, view, trade, fill_queue,
          if_neg (fun completed => full ((trade_completes inv head).mp completed)), head, List.map_cons]
        congr 1
        · have left := trade_left_resting inv head
          rw [← trade, entry, left, trade, fill_id]
        · exact List.map_congr_left others
    · rw [Function.update_of_ne best]
      exact elsewhere fun both => best both.2
  · rw [Function.update_of_ne here]
    exact elsewhere fun both => here both.1

end Trade

/-- Part of a match makes some trades, and the reference makes the same ones first. -/
structure Takes (incoming : Ptr) (ledger next : Ledger) (trades : List (Int × OrderId × Nat)) : Prop where
  taken : (ledger.swept incoming).taken = trades ++ (next.swept incoming).taken
  queues : (ledger.swept incoming).queues = (next.swept incoming).queues
  wanted : (ledger.swept incoming).wanted = (next.swept incoming).wanted
  own : next.view (ledger.wing incoming) = ledger.view (ledger.wing incoming)
  reports : next.reports.map TradeReport.trade = ledger.reports.map TradeReport.trade ++
    if ledger.tradeCb then
      trades.map (Reference.tradeWith (ledger.data incoming).id (ledger.facing incoming))
    else []
  tradeCb : next.tradeCb = ledger.tradeCb

theorem Takes.refl : Takes incoming ledger ledger [] where
  taken := rfl
  queues := rfl
  wanted := rfl
  own := rfl
  reports := by simp
  tradeCb := rfl

/-- A report names the same trade as the reference does. -/
theorem tradeReport_trade (core : BookCore) (resting aggressor : OrderData) (qty : Quantity) :
    (core.tradeReport resting aggressor qty).trade =
      Reference.tradeWith aggressor.id resting.side.wing (resting.price, resting.id, qty.toNat) := by
  unfold BookCore.tradeReport TradeReport.trade Side.wing
  by_cases buy : resting.side = Side.buy
  · simp [buy, Reference.tradeWith]
  · simp [buy, Reference.tradeWith]

theorem MatchStep.takes (step : MatchStep incoming ledger next) (inv : ledger.Inv (some incoming)) :
    ∃ trades, Takes incoming ledger next trades := by
  cases step with
  | @trade resting rest crosses head =>
      obtain ⟨valid, near, unfilled⟩ := crosses
      obtain ⟨linked, place⟩ := head_linked inv.toShelved head
      obtain ⟨before, after, ticks, empty, -⟩ := inv.ticks_split valid near
      have open_ := (unfilled_iff (inv.arrived rfl).filledLe).mp unfilled
      have different : ledger.wing incoming ≠ ledger.facing incoming :=
        (Wing.opposite_ne (ledger.wing incoming)).symm
      have queue : ledger.view (ledger.facing incoming) (ledger.best (ledger.facing incoming)) =
          ((ledger.data resting).id, ledger.left resting) :: rest.map ledger.entry := by
        rw [view, head, List.map_cons, entry]
      have emptyViews : ∀ price ∈ before, ledger.view (ledger.facing incoming) price = [] := by
        intro price member
        rw [view, (empty price member).2, List.map_nil]
      have whole : sweep (ledger.view (ledger.facing incoming))
          (before ++ ledger.best (ledger.facing incoming) :: after) (ledger.left incoming) = _ :=
        sweep_head (Nat.ne_of_gt open_) emptyViews (fun member => (empty _ member).1 rfl) queue
      have price : (ledger.trade resting incoming).price incoming = ledger.price incoming := fill_price ..
      have later : (ledger.trade resting incoming).swept incoming =
          sweep (Function.update (ledger.view (ledger.facing incoming))
              (ledger.best (ledger.facing incoming))
              (tradeHead (ledger.left incoming) (ledger.data resting).id (ledger.left resting)
                (rest.map ledger.entry)))
            (before ++ ledger.best (ledger.facing incoming) :: after)
            (ledger.left incoming - ledger.left resting) := by
        rw [Ledger.swept, trade_facing, price, trade_view inv head, Function.update_self,
          trade_left_incoming inv, ticks]
      rw [← later, ← ticks] at whole
      change ledger.swept incoming = _ at whole
      refine ⟨[(ledger.best (ledger.facing incoming), (ledger.data resting).id,
        min (ledger.left resting) (ledger.left incoming))], ?_⟩
      exact {
        taken := by rw [whole]; rfl
        queues := by rw [whole]
        wanted := by rw [whole]
        own := by rw [trade_view inv head, Function.update_of_ne different]
        reports := by
          rw [Ledger.trade, fill_reports]
          split
          · rw [List.map_append, List.map_singleton, tradeReport_trade, word_min_toNat]
            have side : (ledger.data resting).side.wing = ledger.facing incoming := place.1
            have tick : (ledger.data resting).price = ledger.best (ledger.facing incoming) := place.2
            rw [side, tick]
            rfl
          · exact (List.append_nil _).symm
        tradeCb := fill_tradeCb .. }
  | rescan valid empty =>
      refine ⟨[], ?_⟩
      exact {
        taken := rfl
        queues := rfl
        wanted := rfl
        own := rfl
        reports := by simp
        tradeCb := rescan_tradeCb .. }

/-- A whole match makes the first trades of the reference. -/
theorem MatchRun.takes (run : MatchRun incoming ledger after) (inv : ledger.Inv (some incoming)) :
    ∃ trades, Takes incoming ledger after trades := by
  induction run with
  | refl => exact ⟨[], .refl⟩
  | @tail middle next earlier step ih =>
      obtain ⟨first, begun⟩ := ih
      obtain ⟨second, ended⟩ := step.takes (MatchRun.inv earlier inv)
      have wing := MatchRun.wing_eq earlier incoming
      have own := ended.own
      have reports := ended.reports
      rw [wing] at own
      rw [begun.reports, begun.tradeCb, (MatchRun.same_order earlier incoming).1,
        MatchRun.facing_eq earlier] at reports
      refine ⟨first ++ second, ?_⟩
      exact {
        taken := by rw [begun.taken, ended.taken, List.append_assoc]
        queues := begun.queues.trans ended.queues
        wanted := begun.wanted.trans ended.wanted
        own := own.trans begun.own
        reports := by
          rw [reports, List.append_assoc]
          split
          · rw [List.map_append]
          · rfl
        tradeCb := ended.tradeCb.trans begun.tradeCb }

/-- A match that has stopped leaves the reference nothing to take. -/
theorem Inv.swept_stopped (inv : ledger.Inv (some incoming)) (stopped : ¬ ledger.Crosses incoming) :
    ledger.swept incoming = ⟨[], ledger.view (ledger.facing incoming), ledger.left incoming⟩ := by
  unfold swept
  rcases inv.stopped stopped with done | nothing
  · rw [done, sweep_zero]
  · rw [sweep_empty]
    intro price member
    rw [matchable, crossing, List.flatMap_eq_nil_iff] at nothing
    rw [view, nothing price member, List.map_nil]

end Ledger

end OrderEngine
