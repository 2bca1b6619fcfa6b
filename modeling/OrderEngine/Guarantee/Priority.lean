import OrderEngine.Reference.Steps

namespace OrderEngine

open Library

namespace OrderBook

/-- The reference sees the orders of a level by identifier and by what remains of each. -/
def view (book : OrderBook) (wing : Wing) (price : Int) : Queue OrderId :=
  (book.queue wing price).map fun slot => ((book.order slot).id, (book.remaining slot).toNat)

/-- The pool serves an add, and no resting order has the residue of its identifier. -/
def Fresh (book : OrderBook) : Call → Prop
  | .add msg => (book.addOrder msg).1 ≠ none ∧
      ∀ slot, book.Linked slot → mapSlot (book.order slot).id ≠ mapSlot msg.orderId
  | _ => True

theorem answers_append (book : OrderBook) (past : List Call) (call : Call) :
    book.answers (past ++ [call]) = book.answers past ++ [((book.run past).call call).1] := by
  induction past generalizing book with
  | nil => rfl
  | cons first past ih => exact congrArg ((book.call first).1 :: ·) (ih (book.call first).2)

end OrderBook

theorem Reference.answers_append (book : Reference) (past : List Call) (call : Call) :
    book.answers (past ++ [call]) = book.answers past ++ [((book.run past).call call).1] := by
  induction past generalizing book with
  | nil => rfl
  | cons first past ih => exact congrArg ((book.call first).1 :: ·) (ih (book.call first).2)

theorem Represents.view_eq {book : OrderBook} {ledger : Ledger} {pending : Option Ptr}
    (same : Represents book ledger) (inv : ledger.Inv pending) : book.view = ledger.view := by
  have entries : (fun slot => ((book.order slot).id, (book.remaining slot).toNat)) = ledger.entry := by
    funext slot
    rw [same.id_eq, same.remaining_eq]
    rfl
  funext wing price
  rw [OrderBook.view, entries, same.queue_eq inv]
  rfl

/-- A fresh call finds the ledger fresh. -/
theorem Represents.fresh {book : OrderBook} {ledger : Ledger} (same : Represents book ledger)
    (inv : ledger.Inv none) {call : Call} (sound : call.Sound) (fresh : book.Fresh call) :
    ∀ msg, call = .add msg → ledger.free ≠ [] ∧
      ∀ other, ledger.Linked other → mapSlot (ledger.data other).id ≠ mapSlot msg.orderId := by
  rintro msg rfl
  obtain ⟨served, apart⟩ := fresh
  constructor
  · intro exhausted
    obtain ⟨after, run, -⟩ := same.add inv sound.1 sound.2
    cases placed : (book.addOrder msg).1 with
    | none => exact served placed
    | some slot =>
        rw [placed] at run
        cases run with
        | filled free run stopped tight done => exact absurd (exhausted.symm.trans free) (by simp)
        | rested free run stopped tight left => exact absurd (exhausted.symm.trans free) (by simp)
  · intro other linked
    rw [← same.id_eq]
    exact apart other ((same.linked_iff inv other).mpr linked)

/-- After some calls the book and the reference agree on the queues, the trades and the answers. -/
def Simulated (tradeCb : Bool) (clock : Nat → Nanos) (past : List Call) : Prop :=
  ∃ ledger, Represents ((OrderBook.empty tradeCb clock).run past) ledger ∧ ledger.Settled ∧
    ledger.Registered ∧ Tracks tradeCb ledger (Reference.empty.run past) ∧
    (OrderBook.empty tradeCb clock).answers past = Reference.empty.answers past

section Runs

variable (tradeCb : Bool) (clock : Nat → Nanos)

theorem simulated_nil : Simulated tradeCb clock [] := by
  refine ⟨_, Represents.empty tradeCb clock, Ledger.empty_settled, ?_, ?_, rfl⟩
  · exact fun _ linked => absurd linked List.not_mem_nil
  · exact {
      view := rfl
      callback := rfl
      trades := by
        split
        · rfl
        · rfl }

variable {tradeCb clock} in
theorem Simulated.step {past : List Call} {call : Call} (simulated : Simulated tradeCb clock past)
    (admissible : call.Admissible) (fresh : ((OrderBook.empty tradeCb clock).run past).Fresh call) :
    Simulated tradeCb clock (past ++ [call]) := by
  obtain ⟨ledger, same, settled, registered, tracks, answers⟩ := simulated
  obtain ⟨after, run, represents, -⟩ := same.call settled.toInv admissible.sound
  obtain ⟨answer, tracksAfter, registeredAfter⟩ := tracks.call settled registered admissible run
    (same.fresh settled.toInv admissible.sound fresh)
  refine ⟨after, ?_, settled.call admissible run, registeredAfter, ?_, ?_⟩
  · rw [OrderBook.run_append]
    exact represents
  · rw [Reference.run_append]
    exact tracksAfter
  · rw [OrderBook.answers_append, Reference.answers_append, answers, answer]

variable {tradeCb clock} in
/-- An add is fresh when its map entry is empty, because every resting order has its entry. -/
theorem Simulated.fresh {past : List Call} {msg : OrderMessage} (simulated : Simulated tradeCb clock past)
    (served : (((OrderBook.empty tradeCb clock).run past).addOrder msg).1 ≠ none)
    (unmapped : ((OrderBook.empty tradeCb clock).run past).orderMap (mapSlot msg.orderId) = none) :
    ((OrderBook.empty tradeCb clock).run past).Fresh (.add msg) := by
  obtain ⟨ledger, same, settled, registered, -⟩ := simulated
  constructor
  · exact served
  · intro slot linked collides
    have mapped := registered slot ((same.linked_iff settled.toInv slot).mp linked)
    rw [← same.id_eq, collides, ← same.core, unmapped] at mapped
    exact absurd mapped (by simp)

/-- The book makes the trades of the reference, gives its answers and keeps its queues. -/
theorem book_refines_reference (calls : List Call) (admissible : ∀ call ∈ calls, call.Admissible)
    (fresh : ∀ past call, past ++ [call] <+: calls →
      ((OrderBook.empty tradeCb clock).run past).Fresh call) :
    let book := (OrderBook.empty tradeCb clock).run calls
    let reference := Reference.empty.run calls
    book.reports.map TradeReport.trade = (if tradeCb then reference.trades else []) ∧
      (OrderBook.empty tradeCb clock).answers calls = Reference.empty.answers calls ∧
      book.view = reference.queue := by
  intro book reference
  have simulated : Simulated tradeCb clock calls := by
    refine always_of_step (simulated_nil tradeCb clock) ?_ (List.prefix_refl calls)
    intro past call inside earlier
    exact earlier.step (admissible call (mem_of_past inside)) (fresh past call inside)
  obtain ⟨ledger, same, settled, registered, tracks, answers⟩ := simulated
  have reports := tracks.trades
  rw [← same.core] at reports
  exact ⟨reports, answers, (same.view_eq settled.toInv).trans tracks.view⟩

end Runs

theorem book_refines_reference_of_sweep :
    let calls := [Call.add (.sell 1 65534 2), .add (.sell 2 65535 2), .add (.buy 3 65535 3), .modify 2 5]
    let book := (OrderBook.empty true fun _ => 1).run calls
    let reference := Reference.empty.run calls
    book.reports.map TradeReport.trade = (if true then reference.trades else []) ∧
      (OrderBook.empty true fun _ => 1).answers calls = Reference.empty.answers calls ∧
      book.view = reference.queue := by
  intro calls
  let book := OrderBook.empty true fun _ => 1
  have start : Simulated true (fun _ => 1) [] := simulated_nil true fun _ => 1
  have first : (book.run []).Fresh (.add (.sell 1 65534 2)) :=
    start.fresh (by decide +kernel) (by decide +kernel)
  have one := start.step (by decide) first
  have second : (book.run [.add (.sell 1 65534 2)]).Fresh (.add (.sell 2 65535 2)) :=
    one.fresh (by decide +kernel) (by decide +kernel)
  have two := one.step (by decide) second
  have third : (book.run [.add (.sell 1 65534 2), .add (.sell 2 65535 2)]).Fresh (.add (.buy 3 65535 3)) :=
    two.fresh (by decide +kernel) (by decide +kernel)
  refine book_refines_reference true (fun _ => 1) calls (by decide) ?_
  refine forall_past_cons first ?_
  refine forall_past_cons second ?_
  refine forall_past_cons third ?_
  exact forall_past_cons trivial forall_past_nil

end OrderEngine
