import Mathlib.Algebra.BigOperators.Group.Finset.Basic
import OrderEngine.Guarantee.Quotes
import OrderEngine.Refinement.Arrival

namespace OrderEngine

open Library

namespace OrderBook

/-- These are the orders that the buy levels and the sell levels hold together. -/
def linkedCount (book : OrderBook) : Nat :=
  ∑ price ∈ Finset.range kMaxPriceTicks,
    ((book.queue .bid price).length + (book.queue .ask price).length)

/-- Every used slot holds a linked order, so an add fails only in a book full of resting orders. -/
def LeakFree (book : OrderBook) : Prop :=
  book.orderCount = book.linkedCount ∧
    ∀ msg, (book.addOrder msg).1 = none → book.linkedCount = kMaxOrders

/-- An add leaks no slot unless its order is filled on arrival. -/
def LeakSafe (book : OrderBook) : Call → Prop
  | .add msg => book.orderPool.available = 0 ∨ book.volume (book.crossing msg) < msg.quantity.toNat
  | _ => True

/-- An add is refused only by an exhausted pool. -/
theorem available_of_refused {book : OrderBook} {msg : OrderMessage}
    (refused : (book.addOrder msg).1 = none) : book.orderPool.available = 0 := by
  by_contra available
  change ¬ book.orderPool.freeTop = 0 at available
  have served : book.orderPool.construct {} = (some (book.orderPool.freeStack (book.orderPool.freeTop - 1)),
      { book.orderPool with
        freeTop := book.orderPool.freeTop - 1
        slots := Function.update book.orderPool.slots
          (book.orderPool.freeStack (book.orderPool.freeTop - 1)) {} }) := by
    unfold MemoryPool.construct MemoryPool.acquire
    rw [if_neg available]
  rw [addOrder_eq msg served] at refused
  exact absurd refused (by simp)

end OrderBook

namespace Ledger

def linkedCount (ledger : Ledger) : Nat :=
  ∑ price ∈ Finset.range kMaxPriceTicks,
    ((ledger.queue .bid price).length + (ledger.queue .ask price).length)

/-- Each slot is free or holds a linked order. -/
def LeakFree (ledger : Ledger) : Prop := ledger.free.length + ledger.linkedCount = kMaxOrders

variable {ledger next after : Ledger} {incoming resting slot : Ptr} {rest : List Ptr}

/-- One level changes its length, and the count changes by as much. -/
theorem linkedCount_setCell {wing : Wing} {price : Int} {queue : List Ptr} (inside : InTicks price)
    (changed : next.queue = setCell ledger.queue wing price queue) :
    next.linkedCount + (ledger.queue wing price).length = ledger.linkedCount + queue.length := by
  obtain ⟨low, high⟩ := inside
  have member : price.toNat ∈ Finset.range kMaxPriceTicks := by
    rw [Finset.mem_range]
    omega
  have cast : (price.toNat : Int) = price := by omega
  have others : ∑ other ∈ (Finset.range kMaxPriceTicks).erase price.toNat,
        ((next.queue .bid other).length + (next.queue .ask other).length) =
      ∑ other ∈ (Finset.range kMaxPriceTicks).erase price.toNat,
        ((ledger.queue .bid other).length + (ledger.queue .ask other).length) := by
    apply Finset.sum_congr rfl
    intro other inside
    have different : (other : Int) ≠ price := by
      intro same
      exact (Finset.mem_erase.mp inside).1 (by omega)
    rw [changed, setCell_of_ne _ _ (fun both => different both.2),
      setCell_of_ne _ _ (fun both => different both.2)]
  unfold linkedCount
  rw [← Finset.add_sum_erase _ _ member, ← Finset.add_sum_erase (Finset.range kMaxPriceTicks)
    (fun other : Nat => (ledger.queue .bid other).length + (ledger.queue .ask other).length) member,
    others, cast, changed]
  cases wing with
  | bid =>
      rw [setCell_self, setCell_of_ne _ _ (fun both => absurd both.1 (by decide))]
      omega
  | ask =>
      rw [setCell_self, setCell_of_ne _ _ (fun both => absurd both.1 (by decide))]
      omega

theorem linkedCount_congr (same : next.queue = ledger.queue) : next.linkedCount = ledger.linkedCount := by
  unfold linkedCount
  rw [same]

/-- A linked order that leaves its queue lowers the count by one. -/
theorem linkedCount_erase (inside : InTicks (ledger.price slot)) (linked : ledger.Linked slot)
    (changed : next.queue = setCell ledger.queue (ledger.wing slot) (ledger.price slot)
      ((ledger.queue (ledger.wing slot) (ledger.price slot)).erase slot)) :
    next.linkedCount + 1 = ledger.linkedCount := by
  have counted := linkedCount_setCell inside changed
  have positive := List.length_pos_of_mem linked
  rw [List.length_erase_of_mem linked] at counted
  omega

theorem MatchStep.occupancy (step : MatchStep incoming ledger next) (inv : ledger.Inv (some incoming)) :
    next.free.length + next.linkedCount = ledger.free.length + ledger.linkedCount := by
  cases step with
  | @trade resting rest crosses head =>
      have linked := (head_linked inv.toShelved head).1
      rw [Ledger.trade, fill_free]
      split
      · next full =>
          have counted := linkedCount_erase (inv.inTicks linked) linked
            (by rw [fill_queue, if_pos full] :
              (ledger.fill resting incoming
                (min (ledger.data resting).remaining (ledger.data incoming).remaining)).queue = _)
          rw [List.length_cons]
          omega
      · next left =>
          have same : (ledger.fill resting incoming
              (min (ledger.data resting).remaining (ledger.data incoming).remaining)).queue =
              ledger.queue := by rw [fill_queue, if_neg left]
          rw [linkedCount_congr same]
  | rescan valid empty => rfl

/-- A match frees one slot for each order that it takes from a queue. -/
theorem MatchRun.occupancy (run : MatchRun incoming ledger after) (inv : ledger.Inv (some incoming)) :
    after.free.length + after.linkedCount = ledger.free.length + ledger.linkedCount := by
  induction run with
  | refl => rfl
  | tail earlier step ih => exact (step.occupancy (MatchRun.inv earlier inv)).trans ih

/-- An add leaks its slot exactly when its order is filled on arrival. -/
theorem AddRun.leakFree_iff {msg : OrderMessage} {placed : Option Ptr}
    (run : ledger.AddRun msg placed after) (settled : ledger.Settled) (inside : InTicks msg.price)
    (positive : 0 < msg.quantity) (leakFree : ledger.LeakFree) : after.LeakFree ↔
      ledger.free = [] ∨
        ledger.volume (ledger.crossing msg.side.wing.opposite msg.price) < msg.quantity.toNat := by
  unfold LeakFree at leakFree ⊢
  cases run with
  | full free => exact iff_of_true leakFree (.inl free)
  | @filled slot rest after free run stopped tight done =>
      have inv := settled.toInv.enroll free inside positive
      have enough := (arrival_filled_iff settled free inside positive run stopped).mp done
      have kept : _ = rest.length + ledger.linkedCount := run.occupancy inv
      rw [free, List.length_cons] at leakFree
      rw [kept, free]
      simp only [reduceCtorEq, false_or]
      omega
  | @rested slot rest after free run stopped tight left =>
      have inv := settled.toInv.enroll free inside positive
      have short := (arrival_filled_iff settled free inside positive run stopped).not.mp left
      have kept : _ = rest.length + ledger.linkedCount := run.occupancy inv
      have counted := linkedCount_setCell ((run.inv inv).arrived rfl).inTicks (rest_queue after slot)
      rw [free, List.length_cons] at leakFree
      rw [List.length_append, List.length_singleton] at counted
      rw [rest_free]
      exact iff_of_true (by omega) (.inr (by omega))

theorem LeakFree.withdraw (leakFree : ledger.LeakFree) (inv : ledger.Inv none)
    (linked : ledger.Linked slot) : (ledger.withdraw slot).LeakFree := by
  have counted := linkedCount_erase (inv.inTicks linked) linked (withdraw_queue ledger slot)
  unfold LeakFree at leakFree ⊢
  rw [withdraw_free, List.length_cons]
  omega

theorem LeakFree.ticked (leakFree : ledger.LeakFree) : ledger.ticked.LeakFree := leakFree

/-- Only an add can leak a slot. -/
theorem CallRun.leakFree_iff {call : Call} {answer : Bool} (run : ledger.CallRun call answer after)
    (settled : ledger.Settled) (admissible : call.Admissible) (leakFree : ledger.LeakFree) :
    after.LeakFree ↔ match call with
      | .add msg => ledger.free = [] ∨
          ledger.volume (ledger.crossing msg.side.wing.opposite msg.price) < msg.quantity.toNat
      | _ => True := by
  cases run with
  | add run => exact run.leakFree_iff settled admissible.2.1 admissible.2.2 leakFree
  | cancelMissing missing => exact iff_of_true leakFree trivial
  | cancel found =>
      exact iff_of_true (leakFree.withdraw settled.toInv (settled.toInv.found_linked found).1) trivial
  | modifyMissing missing => exact iff_of_true leakFree trivial
  | shrink found fits =>
      refine iff_of_true ?_ trivial
      unfold LeakFree
      rw [linkedCount_congr (setCell_same ..)]
      exact leakFree
  | replace found larger run =>
      have linked := (settled.toInv.found_linked found).1
      obtain ⟨-, inside, positive⟩ := settled.replacement_admissible linked larger
      refine iff_of_true ?_ trivial
      refine (run.leakFree_iff (settled.withdraw linked).ticked inside positive
        (leakFree.withdraw settled.toInv linked).ticked).mpr (.inr ?_)
      rw [settled.replacement_crossing linked]
      exact UInt64.lt_iff_toNat_lt.mp positive

end Ledger

/-- The book leaks no slot exactly when its ledger does not. -/
theorem Represents.leakFree_iff {book : OrderBook} {ledger : Ledger} {pending : Option Ptr}
    (same : Represents book ledger) (inv : ledger.Inv pending) : book.LeakFree ↔ ledger.LeakFree := by
  have count : book.linkedCount = ledger.linkedCount := by
    unfold OrderBook.linkedCount Ledger.linkedCount
    simp only [same.queue_eq inv]
  have available : book.orderPool.available = ledger.free.length := by
    rw [← same.free, MemoryPool.free, stack_length]
    rfl
  have bound := length_le_of_slots inv.freeNodup inv.freeSlots
  unfold OrderBook.LeakFree Ledger.LeakFree OrderBook.orderCount
  rw [count, available]
  constructor
  · rintro ⟨used, -⟩
    omega
  · intro whole
    constructor
    · omega
    · intro msg refused
      have exhausted := OrderBook.available_of_refused refused
      omega

theorem Ledger.empty_leakFree (tradeCb : Bool) (clock : Nat → Nanos) :
    (Ledger.empty tradeCb clock).LeakFree := by
  unfold LeakFree
  rw [empty_free, stack_length]
  have nothing : (Ledger.empty tradeCb clock).linkedCount = 0 := Finset.sum_eq_zero fun _ _ => rfl
  rw [nothing, Nat.add_zero]

/-- A run leaks no slot exactly when none of its adds is filled on arrival. -/
theorem leak_free_iff (tradeCb : Bool) (clock : Nat → Nanos) (calls : List Call)
    (admissible : ∀ call ∈ calls, call.Admissible) :
    (∀ past, past <+: calls → ((OrderBook.empty tradeCb clock).run past).LeakFree) ↔
      ∀ past call, past ++ [call] <+: calls →
        ((OrderBook.empty tradeCb clock).run past).LeakSafe call := by
  refine holds_throughout_iff ?_ ?_ admissible
  · exact ((Represents.empty tradeCb clock).leakFree_iff Ledger.empty_settled.toInv).mpr
      (Ledger.empty_leakFree tradeCb clock)
  · intro book ledger call same settled admissible leakFree
    obtain ⟨after, run, sameAfter, invAfter⟩ := same.call settled.toInv admissible.sound
    rw [same.leakFree_iff settled.toInv] at leakFree
    rw [sameAfter.leakFree_iff invAfter, run.leakFree_iff settled admissible leakFree]
    cases call with
    | add msg =>
        rw [OrderBook.LeakSafe, same.available_eq_zero, same.crossing_eq settled.toInv, same.volume_eq]
    | cancel id => exact Iff.rfl
    | modify id newQty => exact Iff.rfl

theorem leak_free_iff_of_partial_fill :
    let calls := [Call.add (.sell 1 65535 3), .add (.buy 2 65535 7), .cancel 2]
    (∀ past, past <+: calls → ((OrderBook.empty true fun _ => 1).run past).LeakFree) ↔
      ∀ past call, past ++ [call] <+: calls →
        ((OrderBook.empty true fun _ => 1).run past).LeakSafe call :=
  leak_free_iff true (fun _ => 1) _ (by decide)

/-- A buy that takes a whole sell on arrival keeps its slot, and no order rests. -/
theorem leak_after_full_match :
    let calls := [Call.add (.sell 1 65535 5), .add (.buy 2 65535 5)]
    let book := (OrderBook.empty true fun _ => 1).run calls
    (∀ call ∈ calls, call.Admissible) ∧ book.orderCount = 1 ∧ book.linkedCount = 0 ∧
      ¬ book.LeakFree := by
  intro calls book
  have admissible : ∀ call ∈ calls, call.Admissible := by decide
  obtain ⟨ledger, same, settled⟩ := settled_run true (fun _ => 1) admissible
  have used : book.orderCount = 1 := by decide +kernel
  have bid : ledger.best .bid = kInvalidPrice := by
    rw [← same.best_eq]
    decide +kernel
  have ask : ledger.best .ask = kInvalidPrice := by
    rw [← same.best_eq]
    decide +kernel
  have nothing : book.linkedCount = 0 := by
    apply Finset.sum_eq_zero
    intro price member
    have inside : InTicks price := by
      have high := Finset.mem_range.mp member
      exact ⟨by omega, by omega⟩
    rw [same.queue_eq settled.toInv, same.queue_eq settled.toInv,
      settled.best_eq_invalid.mp bid price inside, settled.best_eq_invalid.mp ask price inside]
    rfl
  refine ⟨admissible, used, nothing, fun leakFree => ?_⟩
  rw [OrderBook.LeakFree, used, nothing] at leakFree
  exact absurd leakFree.1 (by decide)

end OrderEngine
