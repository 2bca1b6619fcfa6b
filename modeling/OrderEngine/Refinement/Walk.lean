import OrderEngine.Ledger.Matching
import OrderEngine.Refinement.Fill

namespace OrderEngine

open Library

/-- Distinct slots of the pool are at most as many as the pool has. -/
theorem length_le_of_slots {slots : List Ptr} (distinct : slots.Nodup)
    (owned : ∀ slot ∈ slots, IsSlot slot) : slots.length ≤ kMaxOrders := by
  have subset : slots ⊆ (List.range kMaxOrders).map (slotAddress orderSlotSize) := by
    intro slot member
    obtain ⟨index, inside, equal⟩ := owned slot member
    exact List.mem_map.mpr ⟨index, List.mem_range.mpr inside, equal.symm⟩
  have shorter := (List.subperm_of_subset distinct subset).length_le
  rw [List.length_map, List.length_range] at shorter
  exact shorter

namespace Ledger

theorem Inv.queue_length_le {ledger : Ledger} {pending : Option Ptr} (inv : ledger.Inv pending)
    (wing : Wing) (price : Int) : (ledger.queue wing price).length ≤ kMaxOrders :=
  length_le_of_slots (inv.distinct wing price) fun _ member => (inv.used (inv.linked member)).1

end Ledger

namespace Represents

variable {book : OrderBook} {ledger : Ledger}

theorem hasRemaining_iff (same : Represents book ledger) (slot : Ptr) :
    book.hasRemaining slot = true ↔
      (ledger.data slot).unfilled := by
  rw [← same.data slot, OrderBook.hasRemaining, OrderData.unfilled, decide_eq_true_iff]

theorem remaining_eq (same : Represents book ledger) (slot : Ptr) :
    book.remaining slot = (ledger.data slot).remaining := by
  rw [← same.data slot]
  rfl

/-- The successor of the oldest order is the next order of its queue. -/
theorem next_of_head (same : Represents book ledger) {wing : Wing} {price : Int} {resting : Ptr}
    {rest : List Ptr} (head : ledger.queue wing price = resting :: rest) :
    (book.order resting).next = rest.head? := by
  have linked := same.linked wing price
  rw [head] at linked
  have onward := linked.2.2.next_first
  simp only [LimitLevel.next] at onward
  rw [OrderBook.order, onward]
  cases rest <;> rfl

section Walk

variable {incoming : Ptr}

/-- A round of the inner loop is one fill of the match. -/
theorem fill_head (same : Represents book ledger) (inv : ledger.Inv (some incoming))
    {resting : Ptr} {rest : List Ptr} {price : Int}
    (head : ledger.queue (ledger.facing incoming) price = resting :: rest) :
    Represents (book.fill resting incoming (min (book.remaining resting) (book.remaining incoming)))
      (ledger.trade resting incoming) := by
  have linked := (Ledger.head_linked inv.toShelved head).1
  have fits := word_min_le (ledger.data resting).remaining (ledger.data incoming).remaining
  rw [same.remaining_eq, same.remaining_eq]
  apply same.fill inv.toShelved ((inv.arrived rfl).ne linked) linked (inv.inTicks linked)
  exact (OrderData.completedBy_iff (inv.filledLe linked) fits.1).mp

end Walk

end Represents

namespace Ledger

variable {ledger : Ledger} {incoming resting : Ptr} {rest : List Ptr} {price : Int}

/-- After a trade either the resting order is gone or the incoming order is done. -/
theorem trade_head_cases (inv : ledger.Inv (some incoming))
    (head : ledger.queue (ledger.facing incoming) price = resting :: rest) :
    (ledger.trade resting incoming).queue (ledger.facing incoming) price = rest ∨
      (ledger.trade resting incoming).queue (ledger.facing incoming) price = resting :: rest ∧
        ¬ ((ledger.trade resting incoming).data incoming).unfilled := by
  obtain ⟨linked, place⟩ := head_linked inv.toShelved head
  have fits := word_min_le (ledger.data resting).remaining (ledger.data incoming).remaining
  have complete := OrderData.completedBy_iff_remaining (inv.filledLe linked) fits.1
  rw [trade, fill_queue, place.1, place.2]
  by_cases full : (ledger.data resting).completedBy
      (min (ledger.data resting).remaining (ledger.data incoming).remaining)
  · left
    rw [if_pos full, setCell_self, head, List.erase_cons_head]
  · right
    rw [if_neg full, fill_data_aggressor]
    refine ⟨head, ?_⟩
    have taken : min (ledger.data resting).remaining (ledger.data incoming).remaining =
        (ledger.data incoming).remaining := by
      rcases word_min_cases (ledger.data resting).remaining (ledger.data incoming).remaining with
        ⟨first, -⟩ | ⟨second, -⟩
      · exact absurd (complete.mpr first) full
      · exact second
    have done := (OrderData.completedBy_iff_remaining (inv.arrived rfl).filledLe fits.2).mpr taken
    rw [OrderData.completedBy_iff (inv.arrived rfl).filledLe fits.2] at done
    rw [OrderData.unfilled, OrderData.filledBy_quantity, OrderData.filledBy_filledQuantity, done]
    exact UInt64.lt_irrefl _

end Ledger

end OrderEngine
