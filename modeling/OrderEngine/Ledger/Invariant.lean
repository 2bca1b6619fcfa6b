import OrderEngine.Ledger.Fill
import OrderEngine.Ledger.Shelves
import OrderEngine.Ledger.Ticks
import OrderEngine.Library.Unsigned

namespace OrderEngine

open Library

/-- The pool owns these addresses. -/
def IsSlot (slot : Ptr) : Prop := ∃ index < kMaxOrders, slot = slotAddress orderSlotSize index

namespace Ledger

def Used (ledger : Ledger) (slot : Ptr) : Prop := IsSlot slot ∧ slot ∉ ledger.free

/-- An order that is still matching holds a slot and the map but stands in no queue. -/
structure Arrived (ledger : Ledger) (slot : Ptr) : Prop where
  used : ledger.Used slot
  unlinked : ¬ ledger.Linked slot
  inTicks : InTicks (ledger.price slot)
  filledLe : (ledger.data slot).filledQuantity ≤ (ledger.data slot).quantity
  full : (ledger.data slot).filledQuantity = (ledger.data slot).quantity →
    (ledger.data slot).status = .filled
  live : (ledger.data slot).filledQuantity < (ledger.data slot).quantity → (ledger.data slot).live

/-- No order of a queue is the one that is still matching. -/
theorem Arrived.ne {ledger : Ledger} {incoming slot : Ptr} (arrived : ledger.Arrived incoming)
    (linked : ledger.Linked slot) : slot ≠ incoming := by
  intro same
  exact arrived.unlinked (same ▸ linked)

/-- The queues, the map, the free slots and the best prices agree at every step of the book. -/
structure Inv (ledger : Ledger) (pending : Option Ptr) : Prop extends ledger.Shelved where
  inTicks : ∀ {wing price slot}, slot ∈ ledger.queue wing price → InTicks price
  live : ∀ {slot}, ledger.Linked slot → (ledger.data slot).live
  filledLe : ∀ {slot}, ledger.Linked slot →
    (ledger.data slot).filledQuantity ≤ (ledger.data slot).quantity
  used : ∀ {slot}, ledger.Linked slot → ledger.Used slot
  freeNodup : ledger.free.Nodup
  freeSlots : ∀ slot ∈ ledger.free, IsSlot slot
  mapped : ∀ {index slot}, ledger.orderMap index = some slot →
    ledger.Used slot ∧ mapSlot (ledger.data slot).id = index
  found : ∀ {index slot}, ledger.orderMap index = some slot → (ledger.data slot).live →
    pending = some slot ∨ ledger.Linked slot
  bestInTicks : ∀ {wing}, ledger.best wing ≠ kInvalidPrice → InTicks (ledger.best wing)
  bestBound : ∀ {wing price}, ledger.queue wing price ≠ [] →
    ledger.best wing ≠ kInvalidPrice ∧ wing.rank (ledger.best wing) ≤ wing.rank price
  arrived : ∀ {slot}, pending = some slot → ledger.Arrived slot
  released : ∀ entry ∈ ledger.released, entry.1 ∉ entry.2
  faults : ledger.faults = []

namespace Inv

variable {ledger : Ledger} {pending : Option Ptr} {slot : Ptr}

/-- Between two calls the map only leads to dead orders and to linked ones. -/
theorem linked_of_found (inv : ledger.Inv none) {index : Nat} (here : ledger.orderMap index = some slot)
    (isLive : (ledger.data slot).live) : ledger.Linked slot :=
  (inv.found here isLive).resolve_left (Option.some_ne_none slot).symm

/-- Totals, counters and reports do not matter to the invariant. -/
theorem congr {other : Ledger} (inv : ledger.Inv pending) (queue : other.queue = ledger.queue)
    (data : other.data = ledger.data) (free : other.free = ledger.free)
    (orderMap : other.orderMap = ledger.orderMap) (best : ∀ wing, other.best wing = ledger.best wing)
    (released : other.released = ledger.released) (faults : other.faults = ledger.faults) :
    other.Inv pending where
  toShelved := inv.toShelved.congr queue (fun slot => by rw [wing, wing, data])
    (fun slot => by rw [price, price, data])
  inTicks := by simpa only [queue] using @inv.inTicks
  live := by simpa only [Linked, wing, price, queue, data] using @inv.live
  filledLe := by simpa only [Linked, wing, price, queue, data] using @inv.filledLe
  used := by simpa only [Linked, Used, wing, price, queue, data, free] using @inv.used
  freeNodup := by simpa only [free] using inv.freeNodup
  freeSlots := by simpa only [free] using inv.freeSlots
  mapped := by simpa only [Used, free, orderMap, data] using @inv.mapped
  found := by simpa only [Linked, wing, price, queue, orderMap, data] using @inv.found
  bestInTicks := by simpa only [best] using @inv.bestInTicks
  bestBound := by simpa only [best, queue] using @inv.bestBound
  arrived := by
    intro slot isPending
    have arrived := inv.arrived isPending
    exact ⟨by simpa only [Used, free] using arrived.used,
      by simpa only [Linked, wing, price, queue, data] using arrived.unlinked,
      by simpa only [price, data] using arrived.inTicks, by simpa only [data] using arrived.filledLe,
      by simpa only [data] using arrived.full, by simpa only [data] using arrived.live⟩
  released := by simpa only [released] using inv.released
  faults := by rw [faults, inv.faults]

/-- New data that name the same places keep the invariant when the linked orders stay live. -/
theorem withData {data : Ptr → OrderData} (inv : ledger.Inv pending)
    (id : ∀ slot, (data slot).id = (ledger.data slot).id)
    (side : ∀ slot, (data slot).side = (ledger.data slot).side)
    (price : ∀ slot, (data slot).price = (ledger.data slot).price)
    (kept : ∀ slot, ledger.Linked slot →
      (data slot).live ∧ (data slot).filledQuantity ≤ (data slot).quantity)
    (found : ∀ slot, (data slot).live → pending = some slot ∨ (ledger.data slot).live)
    (arrived : ∀ slot, pending = some slot → (data slot).filledQuantity ≤ (data slot).quantity ∧
      ((data slot).filledQuantity = (data slot).quantity → (data slot).status = .filled) ∧
      ((data slot).filledQuantity < (data slot).quantity → (data slot).live)) :
    (ledger.withData data).Inv pending := by
  have wingSame (slot : Ptr) : (ledger.withData data).wing slot = ledger.wing slot :=
    congrArg Side.wing (side slot)
  have linkedSame (slot : Ptr) : (ledger.withData data).Linked slot ↔ ledger.Linked slot := by
    rw [Linked, wingSame, Ledger.price, withData_data, price, withData_queue]
    rfl
  exact {
    toShelved := inv.toShelved.congr rfl wingSame price
    inTicks := inv.inTicks
    live := fun linked => (kept _ ((linkedSame _).mp linked)).1
    filledLe := fun linked => (kept _ ((linkedSame _).mp linked)).2
    used := fun linked => inv.used ((linkedSame _).mp linked)
    freeNodup := inv.freeNodup
    freeSlots := inv.freeSlots
    mapped := fun here => by
      have mapped := inv.mapped here
      exact ⟨mapped.1, by rw [withData_data, id]; exact mapped.2⟩
    found := fun here isLive => by
      rcases found _ isLive with isPending | wasLive
      · exact .inl isPending
      · exact (inv.found here wasLive).imp_right (linkedSame _).mpr
    bestInTicks := inv.bestInTicks
    bestBound := inv.bestBound
    arrived := fun isPending => by
      have before := inv.arrived isPending
      have after := arrived _ isPending
      exact ⟨before.used, fun linked => before.unlinked ((linkedSame _).mp linked),
        by rw [Ledger.price, withData_data, price]; exact before.inTicks, after.1, after.2.1, after.2.2⟩
    released := inv.released
    faults := inv.faults }

/-- A linked order that leaves its queue, the map and the used slots keeps the invariant. -/
theorem retire (inv : ledger.Inv pending) (linked : ledger.Linked slot) :
    (ledger.retire slot).Inv pending := by
  have member {wing : Wing} {price : Int} {other : Ptr} :
      other ∈ (ledger.retire slot).queue wing price ↔
        other ∈ ledger.queue wing price ∧ other ≠ slot := inv.mem_erase linked
  have linkedSame {other : Ptr} : (ledger.retire slot).Linked other ↔
      ledger.Linked other ∧ other ≠ slot := member
  have slotUsed := inv.used linked
  have usedOther {other : Ptr} (used : ledger.Used other) (different : other ≠ slot) :
      (ledger.retire slot).Used other :=
    ⟨used.1, fun free => used.2 ((List.mem_cons.mp free).resolve_left different)⟩
  have cleared {index : Nat} {other : Ptr} (here : (ledger.retire slot).orderMap index = some other) :
      ledger.orderMap index = some other ∧ other ≠ slot := by
    change Function.update ledger.orderMap (mapSlot (ledger.data slot).id) none index = some other at here
    rw [Function.update_apply] at here
    split at here
    · exact absurd here (by simp)
    · next elsewhere =>
        constructor
        · exact here
        · intro equal
          subst equal
          exact elsewhere (inv.mapped here).2.symm
  exact {
    distinct := by
      intro wing price
      show (setCell ledger.queue (ledger.wing slot) (ledger.price slot)
        ((ledger.queue (ledger.wing slot) (ledger.price slot)).erase slot) wing price).Nodup
      rw [setCell_apply]
      split
      · exact (inv.distinct _ _).erase _
      · exact inv.distinct _ _
    placed := fun here => inv.placed (member.mp here).1
    inTicks := fun here => inv.inTicks (member.mp here).1
    live := fun here => inv.live (linkedSame.mp here).1
    filledLe := fun here => inv.filledLe (linkedSame.mp here).1
    used := fun here => usedOther (inv.used (linkedSame.mp here).1) (linkedSame.mp here).2
    freeNodup := List.nodup_cons.mpr ⟨slotUsed.2, inv.freeNodup⟩
    freeSlots := fun other here => (List.mem_cons.mp here).elim (fun same => same ▸ slotUsed.1)
      (inv.freeSlots other)
    mapped := fun here => by
      obtain ⟨before, different⟩ := cleared here
      exact ⟨usedOther (inv.mapped before).1 different, (inv.mapped before).2⟩
    found := fun here isLive => by
      obtain ⟨before, different⟩ := cleared here
      exact (inv.found before isLive).imp_right (fun linked => linkedSame.mpr ⟨linked, different⟩)
    bestInTicks := inv.bestInTicks
    bestBound := fun {wing price} occupied => by
      obtain ⟨other, here⟩ := List.exists_mem_of_ne_nil _ occupied
      exact inv.bestBound (List.ne_nil_of_mem (member.mp here).1)
    arrived := fun {other} isPending => by
      have arrived := inv.arrived isPending
      have different : other ≠ slot := (arrived.ne linked).symm
      exact ⟨usedOther arrived.used different, fun here => arrived.unlinked (linkedSame.mp here).1,
        arrived.inTicks, arrived.filledLe, arrived.full, arrived.live⟩
    released := by
      intro entry here
      change entry ∈ ledger.released ++ [(slot, ledger.free)] at here
      rcases List.mem_append.mp here with old | new
      · exact inv.released entry old
      · rw [List.mem_singleton.mp new]
        exact slotUsed.2
    faults := inv.faults }

/-- The scan moves the best price to an occupied tick and passes over empty ticks only. -/
theorem rescan (inv : ledger.Inv pending) {wing : Wing} (valid : ledger.best wing ≠ kInvalidPrice) :
    (ledger.rescan wing).Inv pending := by
  have bestSelf : (ledger.rescan wing).best wing =
      nextBest wing (fun price => !(ledger.queue wing price).isEmpty) (ledger.best wing) := by
    rw [rescan_best, if_pos rfl]
  have bestOther {other : Wing} (different : other ≠ wing) :
      (ledger.rescan wing).best other = ledger.best other := by
    rw [rescan_best, if_neg different]
  have cases := nextBest_cases wing (fun price => !(ledger.queue wing price).isEmpty)
    (inv.bestInTicks valid)
  rw [← bestSelf] at cases
  exact {
    toShelved := inv.toShelved.congr rfl (fun _ => rfl) (fun _ => rfl)
    inTicks := inv.inTicks
    live := inv.live
    filledLe := inv.filledLe
    used := inv.used
    freeNodup := inv.freeNodup
    freeSlots := inv.freeSlots
    mapped := by rw [rescan_orderMap]; exact inv.mapped
    found := by rw [rescan_orderMap]; exact inv.found
    bestInTicks := by
      intro other validOther
      by_cases same : other = wing
      · subst same
        rcases cases with ⟨none, -⟩ | ⟨inside, -⟩
        · exact absurd none validOther
        · exact inside
      · rw [bestOther same] at validOther ⊢
        exact inv.bestInTicks validOther
    bestBound := by
      intro other price occupied
      change ledger.queue other price ≠ [] at occupied
      by_cases same : other = wing
      · subst same
        obtain ⟨slot, member⟩ := List.exists_mem_of_ne_nil _ occupied
        have inside : InTicks price := inv.inTicks member
        have behind := (inv.bestBound occupied).2
        have notEmpty : (!(ledger.queue other price).isEmpty) ≠ false := by
          simpa using occupied
        rcases cases with ⟨-, empty⟩ | ⟨found, -, -, empty⟩
        · exact absurd (empty price inside behind) notEmpty
        · constructor
          · intro none
            exact kInvalidPrice_outside (none ▸ found)
          · by_contra before
            exact notEmpty (empty price inside behind (by omega))
      · rw [bestOther same]
        exact inv.bestBound occupied
    arrived := fun isPending => by
      have arrived := inv.arrived isPending
      exact ⟨arrived.used, arrived.unlinked, arrived.inTicks, arrived.filledLe, arrived.full, arrived.live⟩
    released := by rw [rescan_released]; exact inv.released
    faults := by rw [rescan_faults]; exact inv.faults }

end Inv

end Ledger

end OrderEngine
