import OrderEngine.Ledger.Calls
import OrderEngine.Refinement.Orders

namespace OrderEngine

open Library

namespace Ledger

/-- An add returns the next free slot, and the other calls return what they find. -/
def result (ledger : Ledger) : Call → Result
  | .add _ => .order ledger.free.head?
  | .cancel id => .cancelled (ledger.findLive id).isSome
  | .modify id _ => .order (ledger.findLive id)

end Ledger

namespace Represents

variable {book : OrderBook} {ledger : Ledger}

theorem ticked (same : Represents book ledger) :
    Represents { book with toBookCore := book.tick } ledger.ticked :=
  same.setCore (congrArg BookCore.tick same.core)

/-- The replacement copies its side, its price and its time from the cancelled order. -/
theorem replacement_eq (same : Represents book ledger) (slot : Ptr) (id : OrderId) (newQty : Quantity) :
    ({ action := .add
       side := (book.order slot).side
       orderId := id
       price := (book.order slot).price
       quantity := newQty
       arrivalCycles := book.rdtsc } : OrderMessage) = ledger.replacement slot id newQty := by
  rw [Ledger.replacement, same.side_eq, same.price_eq, same.core]

/-- A modify finds no live order, shrinks the order it finds, or cancels that order and adds it again. -/
theorem modify (same : Represents book ledger) (inv : ledger.Inv none) (id : OrderId) (newQty : Quantity) :
    (ledger.findLive id = none ∧ book.modifyOrder id newQty = (none, book)) ∨
      ∃ slot, ledger.findLive id = some slot ∧
        ((newQty ≤ (ledger.data slot).remaining ∧ (book.modifyOrder id newQty).1 = some slot ∧
            Represents (book.modifyOrder id newQty).2 (ledger.shrink slot newQty)) ∨
          (¬ newQty ≤ (ledger.data slot).remaining ∧ ∃ after,
            (ledger.withdraw slot).ticked.AddRun ((ledger.withdraw slot).replacement slot id newQty)
              (book.modifyOrder id newQty).1 after ∧
            Represents (book.modifyOrder id newQty).2 after ∧ after.Inv none)) := by
  cases found : ledger.findLive id with
  | none =>
      left
      rw [OrderBook.modifyOrder, same.findLive_eq, found]
      exact ⟨rfl, rfl⟩
  | some slot =>
      right
      obtain ⟨linked, named⟩ := inv.found_linked found
      refine ⟨slot, rfl, ?_⟩
      rw [OrderBook.modifyOrder, same.findLive_eq, found]
      simp only [same.remaining_eq]
      by_cases fits : newQty ≤ (ledger.data slot).remaining
      · left
        rw [if_pos fits]
        have shrunk := same.shrink (inv.inTicks linked) newQty
        rw [same.remaining_eq] at shrunk
        exact ⟨fits, rfl, shrunk⟩
      · right
        rw [if_neg fits]
        obtain ⟨-, cancelled⟩ := same.cancel inv found linked named
        have ticked := cancelled.ticked
        have inside : InTicks ((ledger.withdraw slot).replacement slot id newQty).price := by
          rw [Ledger.replacement, Ledger.withdraw_price]
          exact inv.inTicks linked
        have positive : 0 < ((ledger.withdraw slot).replacement slot id newQty).quantity :=
          UInt64.lt_of_le_of_lt UInt64.zero_le (UInt64.not_le.mp fits)
        have message := replacement_eq cancelled slot id newQty
        obtain ⟨after, run, represents, invAfter⟩ := ticked.add
          (inv.withdraw linked).ticked inside positive
        rw [← message] at run represents
        refine ⟨fits, after, ?_, represents, invAfter⟩
        rw [← message]
        exact run

/-- Each sound call of the book has one of the ledger's effects, and it returns the same answer. -/
theorem call (same : Represents book ledger) (inv : ledger.Inv none) {call : Call} (sound : call.Sound) :
    ∃ after, ledger.CallRun call (book.call call).1 after ∧ Represents (book.call call).2 after ∧
      after.Inv none := by
  cases call with
  | add msg =>
      obtain ⟨after, run, represents, invAfter⟩ := same.add inv sound.1 sound.2
      exact ⟨after, .add run, represents, invAfter⟩
  | cancel id =>
      cases found : ledger.findLive id with
      | none =>
          have missed : book.cancelOrder id = (false, book) := by
            rw [OrderBook.cancelOrder, same.findLive_eq, found]
          rw [OrderBook.call, missed]
          exact ⟨ledger, .cancelMissing found, same, inv⟩
      | some slot =>
          obtain ⟨linked, named⟩ := inv.found_linked found
          obtain ⟨answer, represents⟩ := same.cancel inv found linked named
          rw [OrderBook.call, answer]
          exact ⟨_, .cancel found, represents, inv.withdraw linked⟩
  | modify id newQty =>
      rw [OrderBook.call]
      rcases same.modify inv id newQty with
        ⟨missing, unchanged⟩ | ⟨slot, found, ⟨fits, answer, represents⟩ | ⟨larger, after, run, represents, invAfter⟩⟩
      · rw [unchanged]
        exact ⟨ledger, .modifyMissing missing, same, inv⟩
      · rw [answer]
        exact ⟨_, .shrink found fits, represents, inv.shrink (inv.found_linked found).1 fits⟩
      · exact ⟨after, .replace found larger run, represents, invAfter⟩

/-- The ledger tells what each call of the book returns. -/
theorem result_eq (same : Represents book ledger) (inv : ledger.Inv none) {call : Call} (sound : call.Sound) :
    book.result call = ledger.result call := by
  cases call with
  | add msg =>
      obtain ⟨after, run, -⟩ := same.add inv sound.1 sound.2
      exact congrArg Result.order run.placed_eq
  | cancel id =>
      apply congrArg Result.cancelled
      cases found : ledger.findLive id with
      | none => rw [OrderBook.cancelOrder, same.findLive_eq, found, Option.isSome_none]
      | some slot =>
          obtain ⟨linked, named⟩ := inv.found_linked found
          rw [(same.cancel inv found linked named).1, Option.isSome_some]
  | modify id newQty =>
      apply congrArg Result.order
      rcases same.modify inv id newQty with
        ⟨missing, unchanged⟩ | ⟨slot, found, ⟨-, answer, -⟩ | ⟨-, after, run, -⟩⟩
      · rw [unchanged, missing]
      · rw [answer, found]
      · rw [run.placed_eq, found, Ledger.ticked_free, Ledger.withdraw_free, List.head?_cons]

end Represents

end OrderEngine
