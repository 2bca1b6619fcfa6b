import Mathlib.Order.Bounds.Defs
import OrderEngine.Refinement.Runs

namespace OrderEngine

open Library

namespace Ledger.Settled

variable {ledger : Ledger} {wing : Wing}

/-- An invalid best price means that the whole wing is empty. -/
theorem best_eq_invalid (settled : ledger.Settled) : ledger.best wing = kInvalidPrice ↔
    ∀ price, InTicks price → ledger.queue wing price = [] := by
  constructor
  · intro invalid price _
    by_contra occupied
    exact (settled.bestBound occupied).1 invalid
  · intro empty
    by_contra valid
    exact (settled.tight wing).resolve_left valid (empty _ (settled.bestInTicks valid))

/-- A valid best price is an occupied tick, and no occupied tick is better. -/
theorem best_first (settled : ledger.Settled) (valid : ledger.best wing ≠ kInvalidPrice) :
    InTicks (ledger.best wing) ∧ ledger.queue wing (ledger.best wing) ≠ [] ∧
      ∀ price, ledger.queue wing price ≠ [] → wing.rank (ledger.best wing) ≤ wing.rank price :=
  ⟨settled.bestInTicks valid, (settled.tight wing).resolve_left valid,
    fun _ occupied => (settled.bestBound occupied).2⟩

end Ledger.Settled

/-- The top of the book is exact after every admissible run. -/
theorem quotes_exact (tradeCb : Bool) (clock : Nat → Nanos) (calls : List Call)
    (admissible : ∀ call ∈ calls, call.Admissible) :
    let book := (OrderBook.empty tradeCb clock).run calls
    (book.bestBid = kInvalidPrice ↔ ∀ price, InTicks price → (book.buyLevels price).empty = true) ∧
      (book.bestBid ≠ kInvalidPrice →
        IsGreatest {price | InTicks price ∧ (book.buyLevels price).empty = false} book.bestBid) ∧
      (book.bestAsk = kInvalidPrice ↔ ∀ price, InTicks price → (book.sellLevels price).empty = true) ∧
      (book.bestAsk ≠ kInvalidPrice →
        IsLeast {price | InTicks price ∧ (book.sellLevels price).empty = false} book.bestAsk) := by
  obtain ⟨ledger, same, settled⟩ := settled_run tradeCb clock admissible
  intro book
  have empty (wing : Wing) (price : Int) : (book.level wing price).empty = true ↔
      ledger.queue wing price = [] := by rw [same.empty_eq, List.isEmpty_iff]
  have occupied (wing : Wing) (price : Int) : (book.level wing price).empty = false ↔
      ledger.queue wing price ≠ [] := by rw [← Bool.not_eq_true, empty]
  have bid : book.bestBid = ledger.best .bid := same.best_eq .bid
  have ask : book.bestAsk = ledger.best .ask := same.best_eq .ask
  rw [bid, ask]
  refine ⟨?_, ?_, ?_, ?_⟩
  · rw [settled.best_eq_invalid]
    exact forall₂_congr fun price _ => (empty .bid price).symm
  · intro valid
    obtain ⟨inside, here, first⟩ := settled.best_first valid
    constructor
    · exact ⟨inside, (occupied .bid _).mpr here⟩
    · intro price other
      have behind := first price ((occupied .bid price).mp other.2)
      exact neg_le_neg_iff.mp behind
  · rw [settled.best_eq_invalid]
    exact forall₂_congr fun price _ => (empty .ask price).symm
  · intro valid
    obtain ⟨inside, here, first⟩ := settled.best_first valid
    exact ⟨⟨inside, (occupied .ask _).mpr here⟩,
      fun price other => first price ((occupied .ask price).mp other.2)⟩

theorem quotes_exact_after_cancel :
    let calls := [Call.add (.buy 1 10 5), .add (.buy 2 12 5), .cancel 2, .add (.sell 3 11 4)]
    let book := (OrderBook.empty true fun _ => 1).run calls
    (book.bestBid = kInvalidPrice ↔ ∀ price, InTicks price → (book.buyLevels price).empty = true) ∧
      (book.bestBid ≠ kInvalidPrice →
        IsGreatest {price | InTicks price ∧ (book.buyLevels price).empty = false} book.bestBid) ∧
      (book.bestAsk = kInvalidPrice ↔ ∀ price, InTicks price → (book.sellLevels price).empty = true) ∧
      (book.bestAsk ≠ kInvalidPrice →
        IsLeast {price | InTicks price ∧ (book.sellLevels price).empty = false} book.bestAsk) :=
  quotes_exact true (fun _ => 1) _ (by decide)

/-- The book is neither crossed nor locked after any admissible run. -/
theorem book_uncrossed (tradeCb : Bool) (clock : Nat → Nanos) (calls : List Call)
    (admissible : ∀ call ∈ calls, call.Admissible) :
    let book := (OrderBook.empty tradeCb clock).run calls
    ∀ buyer seller buy sell, buyer ∈ book.queue .bid buy → seller ∈ book.queue .ask sell →
      (book.order buyer).price < (book.order seller).price := by
  obtain ⟨ledger, same, settled⟩ := settled_run tradeCb clock admissible
  intro book buyer seller buy sell buyMember sellMember
  rw [same.queue_eq settled.toInv] at buyMember sellMember
  rw [same.price_eq, same.price_eq, (settled.placed buyMember).2, (settled.placed sellMember).2]
  exact settled.uncrossed buyMember sellMember

theorem book_uncrossed_after_trade :
    let book := (OrderBook.empty true fun _ => 1).run
      [.add (.buy 1 10 5), .add (.sell 2 12 5), .add (.sell 3 10 4), .modify 2 9]
    ∀ buyer seller buy sell, buyer ∈ book.queue .bid buy → seller ∈ book.queue .ask sell →
      (book.order buyer).price < (book.order seller).price :=
  book_uncrossed true (fun _ => 1) _ (by decide)

end OrderEngine
