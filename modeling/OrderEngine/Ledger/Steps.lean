import OrderEngine.Ledger.Invariant

namespace OrderEngine

open Library

namespace Ledger

variable {ledger : Ledger} {pending : Option Ptr} {slot incoming resting : Ptr} {qty : Quantity}

/-- A fill takes a resting order from its queue exactly when it completes the order. -/
theorem mem_fill_queue (shelved : ledger.Shelved) (linked : ledger.Linked resting) {wing : Wing}
    {price : Int} {other : Ptr} : other ∈ (ledger.fill resting incoming qty).queue wing price ↔
      other ∈ ledger.queue wing price ∧ ((ledger.data resting).completedBy qty → other ≠ resting) := by
  rw [fill_queue]
  split
  · next full => simpa [full] using shelved.mem_erase linked
  · next left => simp [left]

theorem fill_linked (shelved : ledger.Shelved) (linked : ledger.Linked resting) {other : Ptr} :
    (ledger.fill resting incoming qty).Linked other ↔
      ledger.Linked other ∧ ((ledger.data resting).completedBy qty → other ≠ resting) := by
  rw [Linked, fill_wing, fill_price, mem_fill_queue shelved linked]
  rfl

/-- An order that rests joins one queue. -/
theorem mem_rest_queue {wing : Wing} {price : Int} {other : Ptr} :
    other ∈ (ledger.rest incoming).queue wing price ↔ other ∈ ledger.queue wing price ∨
      other = incoming ∧ ledger.wing incoming = wing ∧ ledger.price incoming = price := by
  rw [rest_queue]
  exact Shelved.mem_append ledger

/-- An order that rests is linked beside the orders that were. -/
theorem rest_linked {other : Ptr} : (ledger.rest incoming).Linked other ↔
    ledger.Linked other ∨ other = incoming := by
  rw [Linked, wing, Ledger.price, rest_data, mem_rest_queue]
  constructor
  · exact Or.imp_right fun same => same.1
  · exact Or.imp_right fun same => ⟨same, by rw [same]; exact ⟨rfl, rfl⟩⟩

namespace Inv

section Fill

variable (inv : ledger.Inv (some incoming)) (linked : ledger.Linked resting)
  (fits : qty ≤ (ledger.data resting).remaining) (fitsIncoming : qty ≤ (ledger.data incoming).remaining)

include inv linked fits in
/-- The orders that a fill leaves in their queues are live, and none holds more than its quantity. -/
theorem fill_kept {slot : Ptr} (linkedSlot : ledger.Linked slot)
    (stays : (ledger.data resting).completedBy qty → slot ≠ resting) :
    ((ledger.fill resting incoming qty).data slot).live ∧
      ((ledger.fill resting incoming qty).data slot).filledQuantity ≤
        ((ledger.fill resting incoming qty).data slot).quantity := by
  have arrived := inv.arrived rfl
  have different : resting ≠ incoming := arrived.ne linked
  have first : slot ≠ incoming := arrived.ne linkedSlot
  by_cases second : slot = resting
  · subst second
    rw [fill_data_resting _ _ different, OrderData.filledBy_live]
    exact ⟨fun full => stays full rfl, add_le_of_fits (inv.filledLe linked) fits⟩
  · rw [fill_data_other _ _ second first]
    exact ⟨inv.live linkedSlot, inv.filledLe linkedSlot⟩

include inv linked in
/-- A fill makes no order live that was not. -/
theorem fill_found {slot : Ptr} (isLive : ((ledger.fill resting incoming qty).data slot).live) :
    some incoming = some slot ∨ (ledger.data slot).live := by
  by_cases first : slot = incoming
  · exact .inl (by rw [first])
  · by_cases second : slot = resting
    · exact .inr (second ▸ inv.live linked)
    · rw [fill_data_other _ _ second first] at isLive
      exact .inr isLive

include inv fitsIncoming in
/-- The incoming order is marked as filled exactly when the fill completes it. -/
theorem fill_arrived {slot : Ptr} (isPending : some incoming = some slot) :
    ((ledger.fill resting incoming qty).data slot).filledQuantity ≤
        ((ledger.fill resting incoming qty).data slot).quantity ∧
      (((ledger.fill resting incoming qty).data slot).filledQuantity =
          ((ledger.fill resting incoming qty).data slot).quantity →
        ((ledger.fill resting incoming qty).data slot).status = .filled) ∧
      (((ledger.fill resting incoming qty).data slot).filledQuantity <
          ((ledger.fill resting incoming qty).data slot).quantity →
        ((ledger.fill resting incoming qty).data slot).live) := by
  obtain rfl := Option.some.inj isPending
  have filledLe := (inv.arrived rfl).filledLe
  rw [fill_data_aggressor]
  refine ⟨add_le_of_fits filledLe fitsIncoming, ?_, ?_⟩
  · intro full
    exact OrderData.filledBy_status _ _ ((OrderData.completedBy_iff filledLe fitsIncoming).mpr full)
  · intro left
    rw [OrderData.filledBy_live]
    exact UInt64.not_le.mpr left

include inv linked fits fitsIncoming in
/-- Each fill of the incoming order keeps the invariant. -/
theorem fill : (ledger.fill resting incoming qty).Inv (some incoming) := by
  by_cases full : (ledger.data resting).completedBy qty
  · have stepped : ((ledger.retire resting).withData (ledger.fill resting incoming qty).data).Inv
        (some incoming) := by
      apply (inv.retire linked).withData
      · exact ledger.fill_id resting incoming qty
      · exact ledger.fill_side resting incoming qty
      · exact ledger.fill_price resting incoming qty
      · intro slot linkedSlot
        obtain ⟨was, different⟩ := (inv.mem_erase linked).mp linkedSlot
        exact inv.fill_kept linked fits was fun _ => different
      · intro slot
        exact inv.fill_found linked
      · intro slot
        exact inv.fill_arrived fitsIncoming
    apply stepped.congr
    · rw [fill_queue, if_pos full]
      rfl
    · rfl
    · rw [fill_free, if_pos full]
      rfl
    · rw [fill_orderMap, if_pos full]
      rfl
    · intro wing
      rw [fill_best]
      rfl
    · rw [fill_released, if_pos full]
      rfl
    · rw [fill_faults]
      rfl
  · have stepped : (ledger.withData (ledger.fill resting incoming qty).data).Inv (some incoming) := by
      apply inv.withData
      · exact ledger.fill_id resting incoming qty
      · exact ledger.fill_side resting incoming qty
      · exact ledger.fill_price resting incoming qty
      · intro slot linkedSlot
        exact inv.fill_kept linked fits linkedSlot fun completed => absurd completed full
      · intro slot
        exact inv.fill_found linked
      · intro slot
        exact inv.fill_arrived fitsIncoming
    apply stepped.congr
    · rw [fill_queue, if_neg full]
      rfl
    · rfl
    · rw [fill_free, if_neg full]
      rfl
    · rw [fill_orderMap, if_neg full]
      rfl
    · intro wing
      rw [fill_best]
      rfl
    · rw [fill_released, if_neg full]
      rfl
    · rw [fill_faults]
      rfl

end Fill

/-- A free slot stands in no queue. -/
theorem fresh (inv : ledger.Inv pending) (free : slot ∈ ledger.free) {wing : Wing} {price : Int} :
    slot ∉ ledger.queue wing price := by
  intro member
  exact (inv.used (inv.linked member)).2 free

/-- A new order leaves every linked order where it stands. -/
theorem enroll_linked (inv : ledger.Inv pending) (free : slot ∈ ledger.free) (rest : List Ptr)
    (msg : OrderMessage) {other : Ptr} :
    (ledger.enroll slot rest msg).Linked other ↔ ledger.Linked other := by
  by_cases same : other = slot
  · subst same
    exact iff_of_false (inv.fresh free) (inv.fresh free)
  · simp only [Linked, wing, Ledger.price, ledger.enroll_data_other rest msg same]
    rfl

/-- A new order takes the next free slot and waits to be matched. -/
theorem enroll (inv : ledger.Inv none) {rest : List Ptr} (next : ledger.free = slot :: rest)
    {msg : OrderMessage} (inTicks : InTicks msg.price) (positive : 0 < msg.quantity) :
    (ledger.enroll slot rest msg).Inv (some slot) := by
  have slotFree : slot ∈ ledger.free := by simp [next]
  have distinct : slot ∉ rest ∧ rest.Nodup := List.nodup_cons.mp (next ▸ inv.freeNodup)
  have slotUsed : (ledger.enroll slot rest msg).Used slot := ⟨inv.freeSlots slot slotFree, distinct.1⟩
  have usedOther {other : Ptr} (used : ledger.Used other) : (ledger.enroll slot rest msg).Used other :=
    ⟨used.1, fun free => used.2 (by rw [next]; exact List.mem_cons_of_mem _ free)⟩
  have dataUsed {other : Ptr} (used : ledger.Used other) :
      (ledger.enroll slot rest msg).data other = ledger.data other := by
    apply ledger.enroll_data_other rest msg
    intro equal
    subst equal
    exact used.2 slotFree
  have before {other : Ptr} (linked : (ledger.enroll slot rest msg).Linked other) : ledger.Linked other :=
    (inv.enroll_linked slotFree rest msg).mp linked
  exact {
    distinct := inv.distinct
    placed := fun member => by
      rw [wing, Ledger.price, dataUsed (inv.used (inv.linked member))]
      exact inv.placed member
    inTicks := inv.inTicks
    live := fun linked => by
      rw [dataUsed (inv.used (before linked))]
      exact inv.live (before linked)
    filledLe := fun linked => by
      rw [dataUsed (inv.used (before linked))]
      exact inv.filledLe (before linked)
    used := fun linked => usedOther (inv.used (before linked))
    freeNodup := distinct.2
    freeSlots := fun other member => inv.freeSlots other (by rw [next]; exact List.mem_cons_of_mem _ member)
    mapped := fun {index other} here => by
      rw [enroll_orderMap] at here
      split at here
      · next same =>
          obtain rfl : slot = other := Option.some.inj here
          exact ⟨slotUsed, by rw [enroll_data_self, same]⟩
      · have mapped := inv.mapped here
        exact ⟨usedOther mapped.1, by rw [dataUsed mapped.1]; exact mapped.2⟩
    found := fun {index other} here isLive => by
      rw [enroll_orderMap] at here
      split at here
      · exact .inl here
      · rw [dataUsed (inv.mapped here).1] at isLive
        refine .inr ((inv.enroll_linked slotFree rest msg).mpr ?_)
        exact inv.linked_of_found here isLive
    bestInTicks := by simpa only [enroll_best] using @inv.bestInTicks
    bestBound := by
      intro wing price occupied
      rw [enroll_best]
      exact inv.bestBound occupied
    arrived := by
      rintro _ ⟨rfl⟩
      exact {
        used := slotUsed
        unlinked := fun linked => inv.fresh slotFree (before linked)
        inTicks := by rw [Ledger.price, enroll_data_self]; exact inTicks
        filledLe := by rw [enroll_data_self]; exact UInt64.zero_le
        full := fun full => by
          rw [enroll_data_self] at full
          change 0 = msg.quantity at full
          rw [← full] at positive
          exact absurd positive (UInt64.lt_irrefl 0)
        live := fun _ => by rw [enroll_data_self]; exact .inl rfl }
    released := inv.released
    faults := inv.faults }

/-- The best price stays ahead of the order that joins and of those that were there. -/
theorem rest_bestBound (inv : ledger.Inv (some incoming)) {wing : Wing} {price : Int}
    (occupied : (ledger.rest incoming).queue wing price ≠ []) :
    (ledger.rest incoming).best wing ≠ kInvalidPrice ∧
      wing.rank ((ledger.rest incoming).best wing) ≤ wing.rank price := by
  rw [rest_best]
  obtain ⟨other, here⟩ := List.exists_mem_of_ne_nil _ occupied
  split
  · next better =>
      obtain ⟨rfl, better⟩ := better
      constructor
      · intro invalid
        exact kInvalidPrice_outside (invalid ▸ (inv.arrived rfl).inTicks)
      · rcases mem_rest_queue.mp here with old | ⟨-, -, rfl⟩
        · have bound := inv.bestBound (List.ne_nil_of_mem old)
          have closer := better.resolve_left bound.1
          omega
        · exact le_rfl
  · next kept =>
      rcases mem_rest_queue.mp here with old | ⟨-, rfl, rfl⟩
      · exact inv.bestBound (List.ne_nil_of_mem old)
      · simp only [true_and, not_or] at kept
        exact ⟨kept.1, by omega⟩

/-- An order that the match left open joins its level. -/
theorem rest (inv : ledger.Inv (some incoming)) (open_ : (ledger.data incoming).live) :
    (ledger.rest incoming).Inv none := by
  have arrived := inv.arrived rfl
  exact {
    distinct := by
      intro wing price
      rw [rest_queue, setCell_apply]
      split
      · apply List.Nodup.append (inv.distinct _ _) (List.nodup_singleton _)
        rw [List.disjoint_singleton]
        exact fun inside => arrived.unlinked inside
      · exact inv.distinct wing price
    placed := fun here => by
      rw [wing, Ledger.price, rest_data]
      rcases mem_rest_queue.mp here with old | ⟨rfl, places⟩
      · exact inv.placed old
      · exact places
    inTicks := fun here => by
      rcases mem_rest_queue.mp here with old | ⟨-, -, rfl⟩
      · exact inv.inTicks old
      · exact arrived.inTicks
    live := fun linked => by
      rw [rest_data]
      rcases rest_linked.mp linked with old | rfl
      · exact inv.live old
      · exact open_
    filledLe := fun linked => by
      rw [rest_data]
      rcases rest_linked.mp linked with old | rfl
      · exact inv.filledLe old
      · exact arrived.filledLe
    used := fun linked => by
      rw [Used, rest_free]
      rcases rest_linked.mp linked with old | rfl
      · exact inv.used old
      · exact arrived.used
    freeNodup := by rw [rest_free]; exact inv.freeNodup
    freeSlots := by rw [rest_free]; exact inv.freeSlots
    mapped := by simpa only [Used, rest_orderMap, rest_data, rest_free] using @inv.mapped
    found := fun here isLive => by
      rw [rest_orderMap] at here
      rw [rest_data] at isLive
      refine .inr (rest_linked.mpr ?_)
      exact (inv.found here isLive).symm.imp_right fun isIncoming => (Option.some.inj isIncoming).symm
    bestInTicks := fun {wing} valid => by
      rw [rest_best] at valid ⊢
      split
      · exact arrived.inTicks
      · next kept =>
          rw [if_neg kept] at valid
          exact inv.bestInTicks valid
    bestBound := inv.rest_bestBound
    arrived := fun never => absurd never.symm (Option.some_ne_none _)
    released := by rw [rest_released]; exact inv.released
    faults := by rw [rest_faults]; exact inv.faults }

/-- An order that the match filled needs no place in a queue. -/
theorem complete (inv : ledger.Inv (some incoming)) (done : (ledger.data incoming).status = .filled) :
    ledger.Inv none where
  toShelved := inv.toShelved
  inTicks := inv.inTicks
  live := inv.live
  filledLe := inv.filledLe
  used := inv.used
  freeNodup := inv.freeNodup
  freeSlots := inv.freeSlots
  mapped := inv.mapped
  found := fun here isLive => by
    apply (inv.found here isLive).imp_left
    intro isIncoming
    rw [← Option.some.inj isIncoming, OrderData.live, done] at isLive
    simp at isLive
  bestInTicks := inv.bestInTicks
  bestBound := inv.bestBound
  arrived := fun never => absurd never.symm (Option.some_ne_none _)
  released := inv.released
  faults := inv.faults

/-- A status that no lookup accepts may be given to an order that stands in no queue. -/
theorem setCancelled (inv : ledger.Inv none) (unlinked : ¬ ledger.Linked slot) :
    (ledger.setStatus slot .cancelled).Inv none := by
  have other {slot' : Ptr} (different : slot' ≠ slot) :
      Function.update ledger.data slot { ledger.data slot with status := .cancelled } slot' =
        ledger.data slot' := Function.update_of_ne different _ _
  apply inv.withData
  · exact update_field OrderData.id ledger.data (by rfl)
  · exact update_field OrderData.side ledger.data (by rfl)
  · exact update_field OrderData.price ledger.data (by rfl)
  · intro slot' linked
    have different : slot' ≠ slot := fun same => unlinked (same ▸ linked)
    rw [other different]
    exact ⟨inv.live linked, inv.filledLe linked⟩
  · intro slot' isLive
    by_cases same : slot' = slot
    · rw [same, Function.update_self] at isLive
      simp [OrderData.live] at isLive
    · rw [other same] at isLive
      exact .inr isLive
  · intro slot' never
    exact absurd never.symm (Option.some_ne_none _)

/-- A cancelled order leaves the book, and the best price follows. -/
theorem withdraw (inv : ledger.Inv none) (linked : ledger.Linked slot) :
    (ledger.withdraw slot).Inv none := by
  have expunged : (ledger.expunge slot).Inv none := by
    have retired := (inv.retire linked).setCancelled fun still =>
      ((inv.mem_erase linked).mp still).2 rfl
    exact retired.congr rfl rfl rfl rfl (fun _ => rfl) rfl rfl
  have valid : (ledger.expunge slot).best (ledger.wing slot) ≠ kInvalidPrice :=
    (inv.bestBound (List.ne_nil_of_mem linked)).1
  rw [withdraw_eq]
  split
  · exact expunged.rescan valid
  · exact expunged

/-- A smaller quantity keeps the order where it stands. -/
theorem shrink (inv : ledger.Inv none) (linked : ledger.Linked slot)
    (fits : qty ≤ (ledger.data slot).remaining) : (ledger.shrink slot qty).Inv none := by
  have filledLe := inv.filledLe linked
  have other {slot' : Ptr} (different : slot' ≠ slot) :
      (ledger.shrink slot qty).data slot' = ledger.data slot' := Function.update_of_ne different _ _
  have self : (ledger.shrink slot qty).data slot = { ledger.data slot with
      quantity := (ledger.data slot).filledQuantity + qty } := Function.update_self ..
  have status (slot' : Ptr) : ((ledger.shrink slot qty).data slot').status = (ledger.data slot').status :=
    update_field OrderData.status ledger.data (by rfl) slot'
  have live (slot' : Ptr) : ((ledger.shrink slot qty).data slot').live ↔ (ledger.data slot').live := by
    rw [OrderData.live, status slot']
    rfl
  have kept : (ledger.withData (ledger.shrink slot qty).data).Inv none := by
    apply inv.withData
    · exact update_field OrderData.id ledger.data (by rfl)
    · exact update_field OrderData.side ledger.data (by rfl)
    · exact update_field OrderData.price ledger.data (by rfl)
    · intro slot' linkedSlot
      constructor
      · exact (live slot').mpr (inv.live linkedSlot)
      · by_cases same : slot' = slot
        · rw [same, self]
          exact le_add_of_fits filledLe fits
        · rw [other same]
          exact inv.filledLe linkedSlot
    · intro slot' isLive
      exact .inr ((live slot').mp isLive)
    · intro slot' never
      exact absurd never.symm (Option.some_ne_none _)
  refine kept.congr ?_ rfl rfl rfl (fun _ => rfl) rfl rfl
  exact setCell_same ..

end Inv

end Ledger

end OrderEngine
