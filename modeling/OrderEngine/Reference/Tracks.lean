import OrderEngine.Ledger.Registry
import OrderEngine.Reference.Match
import OrderEngine.Refinement.Arrival

namespace OrderEngine

open Library

namespace Ledger

variable {ledger next after : Ledger} {slot other : Ptr} {rest : List Ptr} {wing : Wing} {price : Int}
  {id : OrderId}

/-- One queue changes, and no order changes its entry. -/
theorem view_setCell {queue : List Ptr} (changed : next.queue = setCell ledger.queue wing price queue)
    (entries : ∀ slot, next.entry slot = ledger.entry slot) :
    next.view = setCell ledger.view wing price (queue.map ledger.entry) := by
  have same : next.entry = ledger.entry := funext entries
  funext otherWing otherPrice
  rw [view, changed, same, setCell_apply, setCell_apply]
  split
  · rfl
  · rfl

theorem rest_view (slot : Ptr) : (ledger.rest slot).view = setCell ledger.view (ledger.wing slot)
    (ledger.price slot) (ledger.view (ledger.wing slot) (ledger.price slot) ++ [ledger.entry slot]) := by
  have entries : ∀ other, (ledger.rest slot).entry other = ledger.entry other := by
    intro other
    rw [entry, entry, left, left, rest_data]
  rw [view_setCell (rest_queue ledger slot) entries, List.map_append, List.map_singleton]
  rfl

/-- A new order does not show before it rests. -/
theorem enroll_view (inv : ledger.Inv none) (free : ledger.free = slot :: rest) (msg : OrderMessage) :
    (ledger.enroll slot rest msg).view = ledger.view := by
  funext wing price
  apply view_eq
  · rfl
  · intro other member
    have different : other ≠ slot := by
      intro equal
      subst equal
      exact inv.fresh (by simp [free]) member
    rw [entry, entry, enroll_left_other different, enroll_data_other _ _ _ different]

theorem Registered.eq_of_id_eq (registered : ledger.Registered) (first : ledger.Linked slot)
    (second : ledger.Linked other) (same : (ledger.data slot).id = (ledger.data other).id) :
    slot = other :=
  registered.eq_of_mapSlot_eq first second (congrArg mapSlot same)

/-- A cancelled order leaves its queue under its identifier. -/
theorem withdraw_view (inv : ledger.Inv none) (registered : ledger.Registered)
    (linked : ledger.Linked slot) : (ledger.withdraw slot).view =
      setCell ledger.view (ledger.wing slot) (ledger.price slot)
        ((ledger.view (ledger.wing slot) (ledger.price slot)).filter
          fun entry => entry.1 ≠ (ledger.data slot).id) := by
  have entries : ∀ other, (ledger.withdraw slot).entry other = ledger.entry other := by
    intro other
    have remaining : ((ledger.withdraw slot).data other).remaining = (ledger.data other).remaining := by
      rw [withdraw_data]
      exact update_field OrderData.remaining ledger.data (by rfl) other
    rw [entry, entry, left, left, withdraw_id, remaining]
  rw [view_setCell (withdraw_queue ledger slot) entries, view, List.filter_map,
    (inv.distinct _ _).erase_eq_filter]
  congr 2
  apply List.filter_congr
  intro other member
  by_cases same : other = slot
  · simp [same, entry]
  · have apart : (ledger.data other).id ≠ (ledger.data slot).id :=
      fun equal => same (registered.eq_of_id_eq (inv.linked member) linked equal)
    simp [same, entry, apart]

/-- A smaller quantity shows in place. -/
theorem shrink_view (inv : ledger.Inv none) (registered : ledger.Registered) (linked : ledger.Linked slot)
    {newQty : Quantity} (fits : newQty ≤ (ledger.data slot).remaining) : (ledger.shrink slot newQty).view =
      setCell ledger.view (ledger.wing slot) (ledger.price slot)
        ((ledger.view (ledger.wing slot) (ledger.price slot)).map fun entry =>
          if entry.1 = (ledger.data slot).id then ((ledger.data slot).id, newQty.toNat) else entry) := by
  have self : (ledger.shrink slot newQty).entry slot = ((ledger.data slot).id, newQty.toNat) := by
    have fitsNat := toNat_add_of_fits (inv.filledLe linked) fits
    have filled := le_add_of_fits (inv.filledLe linked) fits
    rw [entry, shrink_id, left, shrink_data, Function.update_self, OrderData.remaining,
      UInt64.toNat_sub_of_le _ _ filled]
    congr 1
    show ((ledger.data slot).filledQuantity + newQty).toNat - _ = _
    rw [fitsNat]
    exact Nat.add_sub_cancel_left ..
  have others {other : Ptr} (different : other ≠ slot) :
      (ledger.shrink slot newQty).entry other = ledger.entry other := by
    rw [entry, entry, left, left, shrink_data, Function.update_of_ne different]
  funext otherWing otherPrice
  rw [setCell_apply]
  split
  · next here =>
      rw [here.1, here.2, view, view, shrink_queue, List.map_map]
      apply List.map_congr_left
      intro other member
      rw [Function.comp_apply]
      by_cases same : other = slot
      · rw [same, self, if_pos]
        rfl
      · rw [others same, if_neg]
        exact fun equal => same (registered.eq_of_id_eq (inv.linked member) linked equal)
  · next elsewhere =>
      apply view_eq
      · rw [shrink_queue]
      · intro other member
        apply others
        intro equal
        subst equal
        exact elsewhere (inv.place_unique member linked)

end Ledger

end OrderEngine
