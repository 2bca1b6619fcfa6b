import OrderEngine.Ledger.Outcome
import OrderEngine.Library.Greedy

namespace OrderEngine

open Library

/-- A report quotes a price and a quantity. -/
def TradeReport.quote (report : TradeReport) : Int × Nat := (report.price, report.quantity.toNat)

namespace Ledger

variable {ledger next after : Ledger} {incoming resting slot : Ptr} {rest : List Ptr}

/-- A demand takes these quantities from the orders that cross a price, at the prices of the orders. -/
def offers (ledger : Ledger) (wing : Wing) (limit : Int) (wanted : Nat) : List (Int × Nat) :=
  (spend ledger.left wanted (ledger.crossing wing limit)).map fun part => (ledger.price part.1, part.2)

/-- The incoming order is going to trade at these quotes. -/
def quotes (ledger : Ledger) (incoming : Ptr) : List (Int × Nat) :=
  ledger.offers (ledger.facing incoming) (ledger.price incoming) (ledger.left incoming)

/-- A trade makes the first of the quotes, and the others stay. -/
theorem trade_quotes (inv : ledger.Inv (some incoming)) (crosses : ledger.Crosses incoming)
    (head : ledger.queue (ledger.facing incoming) (ledger.best (ledger.facing incoming)) = resting :: rest) :
    ledger.quotes incoming = (ledger.price resting, min (ledger.left resting) (ledger.left incoming)) ::
      (ledger.trade resting incoming).quotes incoming := by
  obtain ⟨others, before, later⟩ := trade_matchable inv crosses head
  have positive := (unfilled_iff (inv.arrived rfl).filledLe).mp crosses.2.2
  have prices : (ledger.trade resting incoming).price = ledger.price := by
    funext slot
    exact fill_price ..
  unfold matchable at before later
  unfold quotes offers
  rw [before, later, spend_cons positive, prices, trade_left_incoming inv, List.map_cons]
  by_cases full : ledger.left resting ≤ ledger.left incoming
  · rw [if_pos full, spend_congr (trade_left_others inv before)]
  · rw [show ledger.left incoming - ledger.left resting = 0 by omega, spend_zero, spend_zero]

/-- The quotes made and those to be made stay the same through the match. -/
theorem MatchStep.quotes_eq (step : MatchStep incoming ledger next) (inv : ledger.Inv (some incoming))
    (callback : ledger.tradeCb = true) : next.reports.map TradeReport.quote ++ next.quotes incoming =
      ledger.reports.map TradeReport.quote ++ ledger.quotes incoming := by
  cases step with
  | @trade resting rest crosses head =>
      rw [trade_quotes inv crosses head, Ledger.trade, fill_reports, if_pos callback, List.map_append,
        List.append_assoc]
      have quantity : (min (ledger.data resting).remaining (ledger.data incoming).remaining).toNat =
          min (ledger.left resting) (ledger.left incoming) := word_min_toNat ..
      rw [← quantity]
      rfl
  | rescan valid empty =>
      rw [rescan_reports]
      rfl

theorem MatchRun.quotes_eq (run : MatchRun incoming ledger after) (inv : ledger.Inv (some incoming))
    (stopped : ¬ after.Crosses incoming) (callback : ledger.tradeCb = true) :
    after.reports.map TradeReport.quote = ledger.reports.map TradeReport.quote ++ ledger.quotes incoming := by
  have kept : after.reports.map TradeReport.quote ++ after.quotes incoming =
      ledger.reports.map TradeReport.quote ++ ledger.quotes incoming := by
    clear stopped
    induction run with
    | refl => rfl
    | tail earlier step ih =>
        exact (step.quotes_eq (MatchRun.inv earlier inv) ((MatchRun.tradeCb earlier).trans callback)).trans ih
  have nothing : after.quotes incoming = [] := by
    unfold quotes offers
    rcases (run.inv inv).stopped stopped with done | none_
    · rw [done, spend_zero]
      rfl
    · unfold matchable at none_
      rw [none_]
      rfl
  rw [nothing, List.append_nil] at kept
  exact kept

end Ledger

end OrderEngine
