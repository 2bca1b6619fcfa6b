import OrderEngine.Guarantee.Amendment
import OrderEngine.Guarantee.Conservation
import OrderEngine.Guarantee.Occupancy
import OrderEngine.Library.Potential

namespace OrderEngine

open Library

namespace OrderBook

/-- A successful add brings one order. -/
def enters (book : OrderBook) : Call → Int
  | .add msg => if (book.addOrder msg).1.isSome then 1 else 0
  | _ => 0

/-- A successful cancel takes one order away. -/
def leaves (book : OrderBook) : Call → Int
  | .cancel id => if (book.cancelOrder id).1 then 1 else 0
  | _ => 0

/-- An add whose order is filled on arrival keeps its slot for good. -/
def leaks (book : OrderBook) : Call → Int
  | .add msg =>
    match (book.addOrder msg).1 with
    | some slot => if ((book.addOrder msg).2.order slot).status = .filled then 1 else 0
    | none => 0
  | _ => 0

end OrderBook

namespace Ledger

variable {ledger next after : Ledger} {incoming slot : Ptr} {msg : OrderMessage} {placed : Option Ptr}

/-- The order in this slot was filled on arrival. -/
def leaked (ledger : Ledger) : Option Ptr → Nat
  | some slot => if (ledger.data slot).status = .filled then 1 else 0
  | none => 0

/-- A fill raises the first number, and it lowers one of the others. -/
def turnover (ledger : Ledger) (incoming : Ptr) : Nat :=
  ledger.fills.length + ledger.linkedCount + min 1 (ledger.left incoming)

/-- Each fill completes the resting order or the incoming one. -/
theorem MatchStep.turnover_le (step : MatchStep incoming ledger next) (inv : ledger.Inv (some incoming)) :
    next.turnover incoming ≤ ledger.turnover incoming := by
  cases step with
  | @trade resting rest crosses head =>
      have linked := (head_linked inv.toShelved head).1
      have filled := trade_completes inv head
      have open_ := (unfilled_iff (inv.arrived rfl).filledLe).mp crosses.2.2
      have fills : (ledger.trade resting incoming).fills.length = ledger.fills.length + 1 := by
        rw [Ledger.trade, fill_fills, List.length_append, List.length_singleton]
      unfold turnover
      rw [fills, trade_left_incoming inv]
      by_cases full : ledger.left resting ≤ ledger.left incoming
      · have counted := linkedCount_erase (inv.inTicks linked) linked
          (by rw [Ledger.trade, fill_queue, if_pos (filled.mpr full)] :
            (ledger.trade resting incoming).queue = _)
        omega
      · have kept : (ledger.trade resting incoming).queue = ledger.queue := by
          rw [Ledger.trade, fill_queue, if_neg (fun both => full (filled.mp both))]
        rw [linkedCount_congr kept]
        omega
  | rescan valid empty =>
      unfold turnover
      rw [rescan_fills, linkedCount_congr (rescan_queue ..)]
      exact Nat.le_refl _

theorem MatchRun.turnover_le (run : MatchRun incoming ledger after) (inv : ledger.Inv (some incoming)) :
    after.turnover incoming ≤ ledger.turnover incoming := by
  induction run with
  | refl => exact Nat.le_refl _
  | tail earlier step ih => exact (step.turnover_le (MatchRun.inv earlier inv)).trans ih

section Add

variable (run : ledger.AddRun msg placed after) (inv : ledger.Inv none) (inside : InTicks msg.price)
  (positive : 0 < msg.quantity)

include run inv inside positive

/-- An add pays for its fills with the orders that it completes and with its own. -/
theorem AddRun.turnover_le : after.fills.length + after.linkedCount ≤
    ledger.fills.length + ledger.linkedCount + if placed.isSome then 1 else 0 := by
  cases run with
  | full free => simp
  | @filled slot rest after free run stopped tight done =>
      have spent := run.turnover_le (inv.enroll free inside positive)
      unfold turnover at spent
      rw [enroll_fills, linkedCount_congr (enroll_queue ..)] at spent
      simp only [Option.isSome_some, if_true]
      omega
  | @rested slot rest matched free run stopped tight left =>
      have before := inv.enroll free inside positive
      have arrived := (run.inv before).arrived rfl
      have spent := run.turnover_le before
      have open_ := (unfilled_iff arrived.filledLe).mp (arrived.unfilled_of_open left)
      have counted := linkedCount_setCell arrived.inTicks (rest_queue matched slot)
      rw [List.length_append, List.length_singleton] at counted
      unfold turnover at spent
      rw [enroll_fills, linkedCount_congr (enroll_queue ..)] at spent
      simp only [Option.isSome_some, if_true, rest_fills]
      omega

/-- The slot of an order that is filled on arrival is neither free nor linked any more. -/
theorem AddRun.occupancy : after.free.length + after.linkedCount + after.leaked placed =
    ledger.free.length + ledger.linkedCount := by
  cases run with
  | full free => exact Nat.add_zero _
  | @filled slot rest after free run stopped tight done =>
      have kept : after.free.length + after.linkedCount = rest.length + ledger.linkedCount :=
        run.occupancy (inv.enroll free inside positive)
      simp only [leaked, done, if_true, free, List.length_cons]
      omega
  | @rested slot rest matched free run stopped tight left =>
      have before := inv.enroll free inside positive
      have kept : matched.free.length + matched.linkedCount = rest.length + ledger.linkedCount :=
        run.occupancy before
      have counted := linkedCount_setCell ((run.inv before).arrived rfl).inTicks (rest_queue matched slot)
      rw [List.length_append, List.length_singleton] at counted
      simp only [leaked, rest_data, left, if_false, rest_free, free, List.length_cons]
      omega

end Add

theorem Inv.withdraw_linkedCount (inv : ledger.Inv none) (linked : ledger.Linked slot) :
    (ledger.withdraw slot).linkedCount + 1 = ledger.linkedCount :=
  linkedCount_erase (inv.inTicks linked) linked (withdraw_queue ledger slot)

/-- Only an add can leak a slot. -/
theorem CallRun.occupancy {call : Call} {answer : Bool} (run : ledger.CallRun call answer after)
    (settled : ledger.Settled) (other : ∀ msg, call ≠ .add msg) :
    after.free.length + after.linkedCount = ledger.free.length + ledger.linkedCount := by
  have inv := settled.toInv
  cases run with
  | add run => exact absurd rfl (other _)
  | cancelMissing missing => rfl
  | @cancel _ slot found =>
      have gone := inv.withdraw_linkedCount (inv.found_linked found).1
      rw [withdraw_free, List.length_cons]
      omega
  | modifyMissing missing => rfl
  | @shrink _ newQty slot found fits =>
      have kept : (ledger.shrink slot newQty).linkedCount = ledger.linkedCount := linkedCount_congr shrink_queue
      rw [kept]
      rfl
  | @replace _ _ slot placed after found larger run =>
      have linked := (inv.found_linked found).1
      obtain ⟨-, inside, positive⟩ := settled.replacement_admissible linked larger
      have balance := run.occupancy (settled.withdraw linked).ticked.toInv inside positive
      have gone := inv.withdraw_linkedCount linked
      have ticked : (ledger.withdraw slot).ticked.linkedCount = (ledger.withdraw slot).linkedCount :=
        linkedCount_congr (ticked_queue _)
      obtain ⟨rfl, placedAs⟩ := settled.replace_eq linked run
      have active : (after.data slot).status = .active := by
        rw [placedAs, rest_data, enroll_data_self]
      have open_ : OrderStatus.active ≠ .filled := by decide
      simp only [leaked, active, if_neg open_] at balance
      rw [ticked_free, withdraw_free, List.length_cons] at balance
      omega

end Ledger

namespace Represents

variable {book : OrderBook} {ledger : Ledger} {pending : Option Ptr}

theorem linkedCount_eq (same : Represents book ledger) (inv : ledger.Inv pending) :
    book.linkedCount = ledger.linkedCount := by
  unfold OrderBook.linkedCount Ledger.linkedCount
  simp only [same.queue_eq inv]

theorem fills_eq (same : Represents book ledger) : book.fills = ledger.fills := congrArg BookCore.fills same.core

end Represents

/-- The book stands for a settled ledger. -/
def Sane (book : OrderBook) : Prop := ∃ ledger, Represents book ledger ∧ ledger.Settled

theorem Sane.empty (tradeCb : Bool) (clock : Nat → Nanos) : Sane (OrderBook.empty tradeCb clock) :=
  ⟨_, .empty tradeCb clock, Ledger.empty_settled⟩

theorem Sane.call {book : OrderBook} (sane : Sane book) {call : Call} (admissible : call.Admissible) :
    Sane (book.call call).2 := by
  obtain ⟨ledger, same, settled⟩ := sane
  obtain ⟨after, run, represents, -⟩ := same.call settled.toInv admissible.sound
  exact ⟨after, represents, settled.call admissible run⟩

/-- The trades, the resting orders and the cancelled ones of a call are paid for by the orders added. -/
theorem Sane.pays {book : OrderBook} (sane : Sane book) {call : Call} (admissible : call.Admissible) :
    book.leaves call + (((book.call call).2.fills.length + (book.call call).2.linkedCount : Nat) : Int) ≤
      ((book.fills.length + book.linkedCount : Nat) : Int) + book.enters call := by
  obtain ⟨ledger, same, settled⟩ := sane
  have inv := settled.toInv
  obtain ⟨after, run, represents, invAfter⟩ := same.call inv admissible.sound
  rw [represents.fills_eq, represents.linkedCount_eq invAfter, same.fills_eq, same.linkedCount_eq inv]
  generalize answered : (book.call call).1 = answer at run
  cases run with
  | @add msg placed after run =>
      have paid := run.turnover_le inv admissible.2.1 admissible.2.2
      have entered : book.enters (.add msg) = if placed.isSome then 1 else 0 := by
        rw [← answered]
        rfl
      have stays : book.leaves (.add msg) = 0 := rfl
      rw [entered, stays]
      split at paid
      · next served =>
          rw [if_pos served]
          omega
      · next refused =>
          rw [if_neg refused]
          omega
  | @cancelMissing id missing =>
      have stays : book.leaves (.cancel id) = 0 := if_neg (ne_true_of_eq_false answered)
      have enters : book.enters (.cancel id) = 0 := rfl
      omega
  | @cancel id slot found =>
      have gone := inv.withdraw_linkedCount (inv.found_linked found).1
      have leaves : book.leaves (.cancel id) = 1 := if_pos answered
      have enters : book.enters (.cancel id) = 0 := rfl
      rw [Ledger.withdraw_fills]
      omega
  | @modifyMissing id newQty missing =>
      have stays : book.leaves (.modify id newQty) = 0 := rfl
      have enters : book.enters (.modify id newQty) = 0 := rfl
      omega
  | @shrink id newQty slot found fits =>
      have kept : (ledger.shrink slot newQty).linkedCount = ledger.linkedCount :=
        Ledger.linkedCount_congr Ledger.shrink_queue
      have fills : (ledger.shrink slot newQty).fills = ledger.fills := rfl
      have stays : book.leaves (.modify id newQty) = 0 := rfl
      have enters : book.enters (.modify id newQty) = 0 := rfl
      rw [kept, fills]
      omega
  | @replace id newQty slot placed after found larger run =>
      have linked := (inv.found_linked found).1
      obtain ⟨-, inside, positive⟩ := settled.replacement_admissible linked larger
      have paid := run.turnover_le (settled.withdraw linked).ticked.toInv inside positive
      have gone := inv.withdraw_linkedCount linked
      have ticked : (ledger.withdraw slot).ticked.linkedCount = (ledger.withdraw slot).linkedCount :=
        Ledger.linkedCount_congr (Ledger.ticked_queue _)
      have stays : book.leaves (.modify id newQty) = 0 := rfl
      have enters : book.enters (.modify id newQty) = 0 := rfl
      rw [Ledger.ticked_fills, Ledger.withdraw_fills] at paid
      split at paid
      · omega
      · omega

/-- Each call keeps the free slots and the linked orders together, up to what it leaks. -/
theorem Sane.balances {book : OrderBook} (sane : Sane book) {call : Call} (admissible : call.Admissible) :
    book.leaks call + (((book.call call).2.orderPool.available + (book.call call).2.linkedCount : Nat) : Int) =
      ((book.orderPool.available + book.linkedCount : Nat) : Int) := by
  obtain ⟨ledger, same, settled⟩ := sane
  have inv := settled.toInv
  cases call with
  | add msg =>
      obtain ⟨after, run, represents, invAfter⟩ := same.add inv admissible.2.1 admissible.2.2
      have balance := run.occupancy inv admissible.2.1 admissible.2.2
      have leaked : book.leaks (.add msg) = (after.leaked (book.addOrder msg).1 : Int) := by
        simp only [OrderBook.leaks, Ledger.leaked]
        cases (book.addOrder msg).1 with
        | none => rfl
        | some slot =>
            simp only [represents.status_eq]
            split <;> rfl
      rw [leaked, same.available_eq, same.linkedCount_eq inv]
      show _ + (((book.addOrder msg).2.orderPool.available + (book.addOrder msg).2.linkedCount : Nat) : Int) = _
      rw [represents.available_eq, represents.linkedCount_eq invAfter]
      omega
  | cancel id =>
      obtain ⟨after, run, represents, invAfter⟩ := same.call inv admissible.sound
      have leaked : book.leaks (.cancel id) = 0 := rfl
      rw [represents.available_eq, represents.linkedCount_eq invAfter, same.available_eq, same.linkedCount_eq inv,
        run.occupancy settled (by simp), leaked, zero_add]
  | modify id newQty =>
      obtain ⟨after, run, represents, invAfter⟩ := same.call inv admissible.sound
      have leaked : book.leaks (.modify id newQty) = 0 := rfl
      rw [represents.available_eq, represents.linkedCount_eq invAfter, same.available_eq, same.linkedCount_eq inv,
        run.occupancy settled (by simp), leaked, zero_add]

/-- Over a whole run the fills, the resting orders and the cancelled ones are paid for by the orders added. -/
theorem turnover_run (tradeCb : Bool) (clock : Nat → Nanos) {calls : List Call}
    (admissible : ∀ call ∈ calls, call.Admissible) :
    (((OrderBook.empty tradeCb clock).run calls).fills.length : Int) +
        ((OrderBook.empty tradeCb clock).run calls).linkedCount +
        tally (fun book call => (OrderBook.call book call).2) OrderBook.leaves (OrderBook.empty tradeCb clock) calls ≤
      tally (fun book call => (OrderBook.call book call).2) OrderBook.enters (OrderBook.empty tradeCb clock) calls := by
  have paid := @tally_le_of_pays OrderBook Call (fun book call => (book.call call).2) OrderBook.leaves
    OrderBook.enters (fun book => ((book.fills.length + book.linkedCount : Nat) : Int)) Sane
    (OrderBook.empty tradeCb clock) calls
    (Sane.empty tradeCb clock) (fun book call member sane => sane.call (admissible call member))
    (fun book call member sane => sane.pays (admissible call member))
  have nothing : (OrderBook.empty tradeCb clock).linkedCount = 0 := by
    rw [(Represents.empty tradeCb clock).linkedCount_eq Ledger.empty_settled.toInv]
    exact Finset.sum_eq_zero fun _ _ => rfl
  have none_ : (OrderBook.empty tradeCb clock).fills.length = 0 := rfl
  change _ + ((((OrderBook.empty tradeCb clock).run calls).fills.length +
    ((OrderBook.empty tradeCb clock).run calls).linkedCount : Nat) : Int) ≤ _ at paid
  simp only [nothing, none_] at paid
  omega

/-- With a callback there is one report for each fill. -/
theorem reports_length_run (clock : Nat → Nanos) {calls : List Call}
    (admissible : ∀ call ∈ calls, call.Admissible) :
    ((OrderBook.empty true clock).run calls).reports.length =
      ((OrderBook.empty true clock).run calls).fills.length := by
  obtain ⟨callback, counted⟩ := @reported_run clock calls admissible
  have reported := congrArg List.length (counted.reported callback)
  rw [List.length_map, List.length_map] at reported
  exact reported

theorem matchCount_run (clock : Nat → Nanos) {calls : List Call} (admissible : ∀ call ∈ calls, call.Admissible) :
    ((OrderBook.empty true clock).run calls).matchCount =
      UInt64.ofNat ((OrderBook.empty true clock).run calls).reports.length := by
  rw [reports_length_run clock admissible]
  exact (@reported_run clock calls admissible).2.matchCount

/-- Matching is paid for in advance: in every run the trades made, the orders that rest and the orders cancelled
are together no more than the orders added. -/
theorem trades_paid_by_adds (clock : Nat → Nanos) (calls : List Call)
    (admissible : ∀ call ∈ calls, call.Admissible) :
    let start := OrderBook.empty true clock
    let book := start.run calls
    (book.reports.length : Int) + book.linkedCount + tally (fun book call => (book.call call).2) OrderBook.leaves
        start calls ≤ tally (fun book call => (book.call call).2) OrderBook.enters start calls ∧
      book.matchCount = UInt64.ofNat book.reports.length := by
  intro start book
  have reported : book.reports.length = book.fills.length := reports_length_run clock admissible
  refine ⟨?_, matchCount_run clock admissible⟩
  rw [reported]
  exact turnover_run true clock admissible

/-- Two sells are taken by one buy, and a third order is cancelled. -/
def sweptByOne : List Call :=
  [.add (.sell 1 65535 1), .add (.sell 2 65535 1), .add (.buy 3 65535 2), .add (.buy 4 7 2), .cancel 4]

theorem trades_paid_by_four_adds :
    let start := OrderBook.empty true fun _ => 1
    let book := start.run sweptByOne
    book.reports.length = 2 ∧ (book.reports.length : Int) + book.linkedCount +
      tally (fun book call => (book.call call).2) OrderBook.leaves start sweptByOne ≤
        tally (fun book call => (book.call call).2) OrderBook.enters start sweptByOne :=
  ⟨by decide +kernel, (trades_paid_by_adds (fun _ => 1) sweptByOne (by decide)).1⟩

/-- The pool's books balance in every run: a slot is free, holds a linked order, or was leaked by an add whose order
was filled on arrival. A leaked slot never comes back, so no later state has more room than what is not leaked. -/
theorem capacity_accounted (tradeCb : Bool) (clock : Nat → Nanos) (past later : List Call)
    (admissible : ∀ call ∈ past ++ later, call.Admissible) :
    let start := OrderBook.empty tradeCb clock
    let leaked := tally (fun book call => (book.call call).2) OrderBook.leaks start
    let book := start.run (past ++ later)
    (book.orderCount : Int) = book.linkedCount + leaked (past ++ later) ∧
      (book.orderPool.available : Int) + book.linkedCount + leaked past ≤ kMaxOrders := by
  intro start leaked book
  have balance (calls : List Call) (admissible : ∀ call ∈ calls, call.Admissible) : leaked calls +
      (((start.run calls).orderPool.available + (start.run calls).linkedCount : Nat) : Int) = kMaxOrders := by
    have whole := @tally_eq_of_balances OrderBook Call (fun book call => (book.call call).2) OrderBook.leaks
      (fun book => ((book.orderPool.available + book.linkedCount : Nat) : Int)) Sane start calls
      (Sane.empty tradeCb clock) (fun book call member sane => sane.call (admissible call member))
      (fun book call member sane => sane.balances (admissible call member))
    have room := Ledger.empty_leakFree tradeCb clock
    unfold Ledger.LeakFree at room
    rw [← (Represents.empty tradeCb clock).available_eq,
      ← (Represents.empty tradeCb clock).linkedCount_eq Ledger.empty_settled.toInv] at room
    rw [show start.orderPool.available + start.linkedCount = kMaxOrders from room] at whole
    exact whole
  have gains (book : OrderBook) (call : Call) : 0 ≤ book.leaks call := by
    unfold OrderBook.leaks
    split
    · split
      · split <;> decide
      · decide
    · decide
  have grown : leaked past ≤ leaked (past ++ later) := tally_le_of_prefix gains (List.prefix_append past later)
  have positive : 0 ≤ leaked (past ++ later) := tally_nonneg gains
  have final := balance (past ++ later) admissible
  change leaked (past ++ later) + ((book.orderPool.available + book.linkedCount : Nat) : Int) = _ at final
  unfold OrderBook.orderCount
  omega

/-- The buy is filled on arrival, and its slot is missing from then on. -/
theorem capacity_accounted_after_leak :
    let start := OrderBook.empty true fun _ => 1
    let leaked := tally (fun book call => (book.call call).2) OrderBook.leaks start
    let past := [Call.add (.sell 1 65535 5), .add (.buy 2 65535 5)]
    let book := start.run (past ++ [.add (.sell 3 65535 5)])
    leaked past = 1 ∧ (book.orderPool.available : Int) + book.linkedCount + leaked past ≤ kMaxOrders := by
  intro start leaked past book
  exact ⟨by decide +kernel,
    (capacity_accounted true (fun _ => 1) past [.add (.sell 3 65535 5)] (by decide)).2⟩

end OrderEngine
