import OrderEngine.Ledger.Accounts
import OrderEngine.Refinement.Arrival

namespace OrderEngine

open Library

namespace OrderBook

/-- These orders still rest on the book. -/
def resting (book : OrderBook) : List Ptr :=
  (Wing.bid.ticks Wing.bid.back).flatMap (book.queue .bid) ++
    (Wing.ask.ticks Wing.ask.back).flatMap (book.queue .ask)

/-- A successful add brings its quantity, and a successful modify changes what is left of its order. -/
def credit (book : OrderBook) : Call → Int
  | .add msg => if (book.addOrder msg).1.isSome then msg.quantity.toNat else 0
  | .cancel _ => 0
  | .modify id newQty =>
    match book.findLive id, (book.modifyOrder id newQty).1 with
    | some slot, some placed =>
      ((book.modifyOrder id newQty).2.remaining placed).toNat - (book.remaining slot).toNat
    | _, _ => 0

/-- A successful cancel takes away what is left of its order. -/
def cancelled (book : OrderBook) : Call → Int
  | .cancel id =>
    match book.findLive id with
    | some slot => if (book.cancelOrder id).1 then (book.remaining slot).toNat else 0
    | none => 0
  | _ => 0

/-- An add makes a new order in this slot, and so does a modify that asks for more. -/
def placed (book : OrderBook) : Call → Option Ptr
  | .add msg => (book.addOrder msg).1
  | .cancel _ => none
  | .modify id newQty =>
    match book.findLive id with
    | some slot => if newQty ≤ book.remaining slot then none else (book.modifyOrder id newQty).1
    | none => none

/-- An order took part in these of the reports that the callback received after the first ones. -/
def shared (book : OrderBook) (since : Nat) (slot : Ptr) : List TradeReport :=
  (((book.reports.zip book.fills).drop since).filter fun entry => entry.2.involves slot).map Prod.fst

end OrderBook

/-- Each admissible call books what it adds, changes and cancels. -/
theorem Represents.booked {book : OrderBook} {ledger : Ledger} (same : Represents book ledger)
    (settled : ledger.Settled) {call : Call} (admissible : call.Admissible) :
    ∃ after, Represents (book.call call).2 after ∧ after.Settled ∧
      ledger.Booked (book.credit call) (book.cancelled call) (book.placed call) after := by
  have inv := settled.toInv
  cases call with
  | add msg =>
      obtain ⟨after, run, represents, -⟩ := same.add inv admissible.2.1 admissible.2.2
      exact ⟨after, represents, settled.add admissible.1 admissible.2.1 admissible.2.2 run,
        run.booked inv admissible.2.1 admissible.2.2⟩
  | cancel id =>
      have lookup := same.findLive_eq id
      cases found : ledger.findLive id with
      | none =>
          rw [found] at lookup
          have missed : book.cancelOrder id = (false, book) := by rw [OrderBook.cancelOrder, lookup]
          simp only [OrderBook.call, OrderBook.credit, OrderBook.cancelled, OrderBook.placed, lookup, missed]
          exact ⟨ledger, same, settled, .refl⟩
      | some slot =>
          obtain ⟨linked, named⟩ := inv.found_linked found
          obtain ⟨answer, represents⟩ := same.cancel inv found linked named
          rw [found] at lookup
          simp only [OrderBook.call, OrderBook.credit, OrderBook.cancelled, OrderBook.placed, lookup, answer,
            if_true, same.remaining_eq]
          exact ⟨_, represents, settled.withdraw linked, inv.withdraw_booked linked⟩
  | modify id newQty =>
      have lookup := same.findLive_eq id
      rcases same.modify inv id newQty with
        ⟨missing, unchanged⟩ | ⟨slot, found, ⟨fits, answer, represents⟩ | ⟨larger, after, run, represents, -⟩⟩
      · rw [missing] at lookup
        simp only [OrderBook.call, OrderBook.credit, OrderBook.cancelled, OrderBook.placed, lookup, unchanged]
        exact ⟨ledger, same, settled, .refl⟩
      · obtain ⟨linked, named⟩ := inv.found_linked found
        rw [found] at lookup
        have left := represents.remaining_eq slot
        rw [(settled.shrink_amended linked fits).remaining] at left
        simp only [OrderBook.call, OrderBook.credit, OrderBook.cancelled, OrderBook.placed, lookup, answer,
          same.remaining_eq, left, if_pos fits]
        exact ⟨_, represents, settled.shrink linked fits, inv.shrink_booked linked fits⟩
      · obtain ⟨linked, named⟩ := inv.found_linked found
        rw [found] at lookup
        have served := (settled.replace_eq linked run).1
        have left := represents.remaining_eq slot
        rw [(settled.replace_amended linked larger run named).remaining] at left
        simp only [OrderBook.call, OrderBook.credit, OrderBook.cancelled, OrderBook.placed, lookup, served,
          same.remaining_eq, left, if_neg larger]
        obtain ⟨side, inside, positive⟩ := settled.replacement_admissible linked larger
        refine ⟨after, represents, (settled.withdraw linked).ticked.add side inside positive run, ?_⟩
        rw [← served]
        exact settled.replace_booked linked larger run

section Reports

/-- The reports and the fills that they stand beside add up to the same quantity. -/
theorem zip_quantity {reports : List TradeReport} {fills : List Fill} (slot : Ptr)
    (same : reports.map TradeReport.quantity = fills.map Fill.quantity) :
    ((((reports.zip fills).filter fun entry => entry.2.involves slot).map Prod.fst).map
        fun report => report.quantity.toNat).sum =
      ((fills.filter fun fill => fill.involves slot).map fun fill => fill.quantity.toNat).sum := by
  induction reports generalizing fills with
  | nil =>
      obtain rfl : fills = [] := by simpa using same.symm
      rfl
  | cons report reports ih =>
      cases fills with
      | nil => exact absurd same (by simp)
      | cons fill fills =>
          rw [List.map_cons, List.map_cons] at same
          obtain ⟨quantity, others⟩ := List.cons_eq_cons.mp same
          rw [List.zip_cons_cons]
          cases taken : fill.involves slot with
          | false => simpa [taken] using ih others
          | true => simpa [taken, quantity] using ih others

variable {book : OrderBook}

theorem shared_quantity (counted : book.toBookCore.Counted) (installed : book.tradeCb = true) (since : Nat)
    (slot : Ptr) : ((book.shared since slot).map fun report => report.quantity.toNat).sum =
      (((book.fills.drop since).filter fun fill => fill.involves slot).map fun fill => fill.quantity.toNat).sum := by
  have same := counted.reported installed
  unfold OrderBook.shared
  rw [List.zip_eq_zipWith, List.drop_zipWith, ← List.zip_eq_zipWith, zip_quantity slot]
  rw [List.map_drop, List.map_drop, same]

end Reports

section Runs

variable {tradeCb : Bool} {clock : Nat → Nanos}

theorem Ledger.empty_restingVolume : (Ledger.empty tradeCb clock).restingVolume = 0 := by
  have none_ : (Ledger.empty tradeCb clock).resting = [] := by
    rw [List.eq_nil_iff_forall_not_mem]
    intro slot member
    have linked := Ledger.empty_settled.toInv.mem_resting.mp member
    exact absurd linked List.not_mem_nil
  rw [Ledger.restingVolume, none_]
  rfl

/-- Over a whole run the books balance. -/
theorem balanced_run {calls : List Call} (admissible : ∀ call ∈ calls, call.Admissible) :
    ∃ ledger, Represents ((OrderBook.empty tradeCb clock).run calls) ledger ∧ ledger.Settled ∧
      ledger.tradeCb = tradeCb ∧ ledger.Counted ∧
      tally (fun book call => (OrderBook.call book call).2) OrderBook.credit (OrderBook.empty tradeCb clock) calls =
        2 * ledger.traded + ledger.restingVolume +
          tally (fun book call => (OrderBook.call book call).2) OrderBook.cancelled
            (OrderBook.empty tradeCb clock) calls := by
  induction calls using List.reverseRecOn with
  | nil =>
      refine ⟨_, .empty tradeCb clock, Ledger.empty_settled, rfl, ⟨rfl, rfl, fun _ => rfl⟩, ?_⟩
      rw [Ledger.empty_restingVolume]
      rfl
  | append_singleton past call ih =>
      obtain ⟨ledger, same, settled, installed, counted, balance⟩ := ih fun other member =>
        admissible other (by simp [member])
      obtain ⟨after, represents, settledAfter, booked⟩ := same.booked settled (admissible call (by simp))
      rw [OrderBook.run_append]
      refine ⟨after, represents, settledAfter, booked.tradeCb.trans installed, booked.counted counted, ?_⟩
      have step := booked.balance
      rw [tally_append, tally_append, balance]
      change _ + OrderBook.credit ((OrderBook.empty tradeCb clock).run past) call =
        _ + (_ + OrderBook.cancelled ((OrderBook.empty tradeCb clock).run past) call)
      omega

/-- An order keeps its credit until its slot is placed again. -/
theorem credited_run {past later : List Call} {call : Call} {slot : Ptr}
    (admissible : ∀ other ∈ past ++ call :: later, other.Admissible)
    (placed : ((OrderBook.empty tradeCb clock).run past).placed call = some slot)
    (kept : ∀ middle other, middle ++ [other] <+: later →
      ((OrderBook.empty tradeCb clock).run (past ++ call :: middle)).placed other ≠ some slot) :
    ∃ ledger, Represents ((OrderBook.empty tradeCb clock).run (past ++ call :: later)) ledger ∧
      ledger.Settled ∧ ledger.Credited ((OrderBook.empty tradeCb clock).run past).fills.length slot := by
  obtain ⟨ledger, same, settled⟩ := settled_run tradeCb clock fun other member =>
    admissible other (List.mem_append_left _ member)
  have length := congrArg (fun core : BookCore => core.fills.length) same.core
  refine @always_of_step Call later (fun middle => ∃ ledger,
    Represents ((OrderBook.empty tradeCb clock).run (past ++ call :: middle)) ledger ∧ ledger.Settled ∧
      ledger.Credited ((OrderBook.empty tradeCb clock).run past).fills.length slot) ?_ ?_ later List.prefix_rfl
  · obtain ⟨after, represents, settledAfter, booked⟩ := same.booked settled (admissible call (by simp))
    rw [OrderBook.run_append]
    refine ⟨after, represents, settledAfter, ?_⟩
    rw [length]
    exact booked.born slot placed
  · rintro middle other inside ⟨before, sameBefore, settledBefore, credited⟩
    have member : other ∈ later := mem_of_past inside
    obtain ⟨after, represents, settledAfter, booked⟩ :=
      sameBefore.booked settledBefore (admissible other (by simp [member]))
    have grown : past ++ call :: (middle ++ [other]) = (past ++ call :: middle) ++ [other] := by simp
    rw [grown, OrderBook.run_append]
    exact ⟨after, represents, settledAfter, booked.kept _ slot (kept middle other inside) credited⟩

end Runs

theorem Represents.resting_eq {book : OrderBook} {ledger : Ledger} {pending : Option Ptr}
    (same : Represents book ledger) (inv : ledger.Inv pending) : book.resting = ledger.resting := by
  have queue (wing : Wing) : book.queue wing = ledger.queue wing := by
    funext price
    exact same.queue_eq inv wing price
  rw [OrderBook.resting, queue, queue]
  rfl

/-- With a callback every fill of a run is reported. -/
theorem reported_run {clock : Nat → Nanos} {calls : List Call} (admissible : ∀ call ∈ calls, call.Admissible) :
    ((OrderBook.empty true clock).run calls).tradeCb = true ∧
      ((OrderBook.empty true clock).run calls).Counted := by
  obtain ⟨ledger, same, -, installed, counted, -⟩ := @balanced_run true clock calls admissible
  rw [same.core]
  exact ⟨installed, counted⟩

/-- No quantity appears or disappears: what the adds and the modifies bring is traded twice, rests or is
cancelled, and the reports credit it to the orders that took part. -/
theorem quantity_conserved (clock : Nat → Nanos) (calls : List Call)
    (admissible : ∀ call ∈ calls, call.Admissible) :
    let start := OrderBook.empty true clock
    let book := start.run calls
    let sum : Nat := (book.reports.map fun report => report.quantity.toNat).sum
    tally (fun book call => (book.call call).2) OrderBook.credit start calls =
        2 * sum + book.volume book.resting +
          tally (fun book call => (book.call call).2) OrderBook.cancelled start calls ∧
      (∀ past call later slot, calls = past ++ call :: later → (start.run past).placed call = some slot →
        (∀ middle other, middle ++ [other] <+: later →
          (start.run (past ++ call :: middle)).placed other ≠ some slot) →
        ((book.shared (start.run past).reports.length slot).map fun report => report.quantity.toNat).sum =
            (book.order slot).filledQuantity.toNat ∧
          (book.order slot).filledQuantity ≤ (book.order slot).quantity) ∧
      book.reports.map TradeReport.quantity = book.fills.map Fill.quantity ∧
      book.tradeVolume.toNat = sum % 2 ^ 64 ∧ book.matchCount = UInt64.ofNat book.reports.length := by
  intro start book sum
  obtain ⟨ledger, same, settled, -, -, balance⟩ := @balanced_run true clock calls admissible
  obtain ⟨callback, counted⟩ := @reported_run clock calls admissible
  have reported : book.reports.map TradeReport.quantity = book.fills.map Fill.quantity :=
    counted.reported callback
  have traded : (book.fills.map fun fill => fill.quantity.toNat).sum = sum := by
    have quantities := congrArg (fun words => (words.map UInt64.toNat).sum) reported
    rw [List.map_map, List.map_map] at quantities
    exact quantities.symm
  refine ⟨?_, ?_, reported, ?_, ?_⟩
  · have fills : book.fills = ledger.fills := congrArg BookCore.fills same.core
    rw [same.volume_eq, same.resting_eq settled.toInv, ← traded, fills]
    exact balance
  · intro past call later slot parts placed kept
    subst parts
    obtain ⟨other, sameOther, -, credited⟩ := credited_run admissible placed kept
    obtain ⟨earlierCallback, earlier⟩ := @reported_run clock past fun other member =>
      admissible other (List.mem_append_left _ member)
    have since := congrArg List.length (earlier.reported earlierCallback)
    rw [List.length_map, List.length_map] at since
    have data := sameOther.data slot
    have filled : (book.order slot).filledQuantity = (other.data slot).filledQuantity :=
      congrArg OrderData.filledQuantity data
    have quantity : (book.order slot).quantity = (other.data slot).quantity :=
      congrArg OrderData.quantity data
    rw [shared_quantity counted callback, since, filled, quantity, credited.filled]
    constructor
    · have fills : book.fills = other.fills := congrArg BookCore.fills sameOther.core
      rw [fills]
    · exact credited.within
  · rw [← traded, counted.tradeVolume]
    exact UInt64.toNat_ofNat'
  · have length := congrArg List.length reported
    rw [List.length_map, List.length_map] at length
    rw [length]
    exact counted.matchCount

/-- A sell is filled in part, asks for more, and is cancelled with nine lots left. -/
theorem quantity_conserved_amended :
    let start := OrderBook.empty true fun _ => 1
    let calls := [Call.add (.sell 1 65535 5), .add (.buy 2 65535 3), .modify 1 9, .cancel 1]
    let book := start.run calls
    tally (fun book call => (book.call call).2) OrderBook.credit start calls =
      2 * (book.reports.map fun report => report.quantity.toNat).sum + book.volume book.resting +
        tally (fun book call => (book.call call).2) OrderBook.cancelled start calls :=
  (quantity_conserved (fun _ => 1) _ (by decide)).1

end OrderEngine
