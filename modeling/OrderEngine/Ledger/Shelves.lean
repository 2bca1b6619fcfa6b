import OrderEngine.Ledger.Ledger

namespace OrderEngine

open Library

namespace Ledger

/-- A linked slot lies in the queue that its own side and price name. -/
def Linked (ledger : Ledger) (slot : Ptr) : Prop :=
  slot ∈ ledger.queue (ledger.wing slot) (ledger.price slot)

/-- Each linked slot lies in one queue once, and that queue is the one its data name. -/
structure Shelved (ledger : Ledger) : Prop where
  distinct : ∀ wing price, (ledger.queue wing price).Nodup
  placed : ∀ {wing price slot}, slot ∈ ledger.queue wing price →
    ledger.wing slot = wing ∧ ledger.price slot = price

namespace Shelved

variable {ledger : Ledger} {wing otherWing : Wing} {price otherPrice : Int} {slot other : Ptr}

/-- Two queues that share a slot are the same queue. -/
theorem place_unique (shelved : ledger.Shelved) (member : slot ∈ ledger.queue otherWing otherPrice)
    (here : slot ∈ ledger.queue wing price) : otherWing = wing ∧ otherPrice = price := by
  have first := shelved.placed member
  have second := shelved.placed here
  exact ⟨first.1.symm.trans second.1, first.2.symm.trans second.2⟩

/-- Only the queues and the places that the data name matter for the shelves. -/
theorem congr {changed : Ledger} (shelved : ledger.Shelved) (queue : changed.queue = ledger.queue)
    (wing : ∀ slot, changed.wing slot = ledger.wing slot)
    (price : ∀ slot, changed.price slot = ledger.price slot) : changed.Shelved where
  distinct := by simpa only [queue] using shelved.distinct
  placed := by
    intro _ _ slot member
    rw [queue] at member
    rw [wing, price]
    exact shelved.placed member

/-- A slot of any queue is linked. -/
theorem linked (shelved : ledger.Shelved) (member : slot ∈ ledger.queue wing price) :
    ledger.Linked slot := by
  obtain ⟨sameWing, samePrice⟩ := shelved.placed member
  rw [Linked, sameWing, samePrice]
  exact member

theorem mem_iff (shelved : ledger.Shelved) : slot ∈ ledger.queue wing price ↔
    ledger.Linked slot ∧ ledger.wing slot = wing ∧ ledger.price slot = price := by
  constructor
  · intro member
    exact ⟨shelved.linked member, shelved.placed member⟩
  · rintro ⟨linked, rfl, rfl⟩
    exact linked

/-- A slot that leaves its queue leaves every other slot where it was. -/
theorem mem_erase (shelved : ledger.Shelved) (linked : ledger.Linked slot) :
    other ∈ setCell ledger.queue (ledger.wing slot) (ledger.price slot)
      ((ledger.queue (ledger.wing slot) (ledger.price slot)).erase slot) wing price ↔
    other ∈ ledger.queue wing price ∧ other ≠ slot := by
  rw [setCell_apply]
  split
  · next here =>
      rw [here.1, here.2, (shelved.distinct _ _).mem_erase_iff]
      exact and_comm
  · next elsewhere =>
      refine ⟨fun member => ⟨member, ?_⟩, fun both => both.1⟩
      intro equal
      subst equal
      exact elsewhere (shelved.place_unique member linked)

/-- A slot that joins the end of a queue leaves every other slot where it was. -/
theorem mem_append (ledger : Ledger) :
    other ∈ setCell ledger.queue (ledger.wing slot) (ledger.price slot)
      (ledger.queue (ledger.wing slot) (ledger.price slot) ++ [slot]) wing price ↔
    other ∈ ledger.queue wing price ∨
      other = slot ∧ ledger.wing slot = wing ∧ ledger.price slot = price := by
  rw [setCell_apply]
  split
  · next here => simp [here.1, here.2]
  · next elsewhere =>
      refine ⟨Or.inl, ?_⟩
      rintro (member | ⟨-, rfl, rfl⟩)
      · exact member
      · exact absurd ⟨rfl, rfl⟩ elsewhere

end Shelved

section Data

variable {ledger : Ledger} {slot : Ptr}

/-- Only the place that the data name matters to a total. -/
theorem withData_deductTotal {data : Ptr → OrderData} (side : (data slot).side = (ledger.data slot).side)
    (price : (data slot).price = (ledger.data slot).price) (qty : Quantity) :
    (ledger.withData data).deductTotal slot qty = (ledger.deductTotal slot qty).withData data := by
  simp only [deductTotal, wing, Ledger.price, withData_data, side, price]
  rfl

theorem withData_retire {data : Ptr → OrderData} (id : (data slot).id = (ledger.data slot).id)
    (side : (data slot).side = (ledger.data slot).side)
    (price : (data slot).price = (ledger.data slot).price) :
    (ledger.withData data).retire slot = (ledger.retire slot).withData data := by
  simp only [retire, wing, Ledger.price, withData_data, setLevel_data, id, side, price]
  rfl

/-- Data that name the same place leave every order where it stands. -/
theorem setData_wing {data : OrderData} (side : data.side = (ledger.data slot).side) (other : Ptr) :
    (ledger.setData slot data).wing other = ledger.wing other :=
  congrArg Side.wing (update_field OrderData.side ledger.data side other)

theorem setData_price {data : OrderData} (price : data.price = (ledger.data slot).price) (other : Ptr) :
    (ledger.setData slot data).price other = ledger.price other :=
  update_field OrderData.price ledger.data price other

@[simp] theorem setStatus_wing (status : OrderStatus) (other : Ptr) :
    (ledger.setStatus slot status).wing other = ledger.wing other := by
  apply setData_wing
  rfl

@[simp] theorem setStatus_price (status : OrderStatus) (other : Ptr) :
    (ledger.setStatus slot status).price other = ledger.price other := by
  apply setData_price
  rfl

@[simp] theorem setStatus_queue (status : OrderStatus) :
    (ledger.setStatus slot status).queue = ledger.queue := rfl

theorem Shelved.setStatus (shelved : ledger.Shelved) (status : OrderStatus) :
    (ledger.setStatus slot status).Shelved :=
  shelved.congr rfl (setStatus_wing status) (setStatus_price status)

end Data

section Withdraw

variable (ledger : Ledger) (slot : Ptr)

/-- A cancel takes the order out of its queue, the map and the used slots. -/
def expunge (ledger : Ledger) (slot : Ptr) : Ledger :=
  { (ledger.retire slot).setStatus slot .cancelled with
    total := setCell ledger.total (ledger.wing slot) (ledger.price slot)
      (ledger.total (ledger.wing slot) (ledger.price slot) - (ledger.data slot).remaining) }

/-- A cancel scans again when it empties the best level of a named side. -/
def Exposes (ledger : Ledger) (slot : Ptr) : Prop :=
  (ledger.queue (ledger.wing slot) (ledger.price slot)).erase slot = [] ∧
    ((ledger.data slot).side = Side.buy ∨ (ledger.data slot).side = Side.sell) ∧
    ledger.price slot = ledger.best (ledger.wing slot)

instance : Decidable (ledger.Exposes slot) := inferInstanceAs (Decidable (_ ∧ _ ∧ _))

theorem rescan_release (wing : Wing) :
    (ledger.rescan wing).release slot = (ledger.release slot).rescan wing := by
  cases wing <;> rfl

theorem withdraw_eq : ledger.withdraw slot =
    if ledger.Exposes slot then (ledger.expunge slot).rescan (ledger.wing slot)
    else ledger.expunge slot := by
  let marked : Ledger := { ledger.setStatus slot .cancelled with
    toBookCore := ledger.setSlot (ledger.data slot).id none }
  let cleared : Ledger := ledger.setLevel (ledger.wing slot) (ledger.price slot)
    ((ledger.queue (ledger.wing slot) (ledger.price slot)).erase slot)
    (ledger.total (ledger.wing slot) (ledger.price slot) - (ledger.data slot).remaining)
  let gone : Ledger := { cleared with toBookCore := marked.toBookCore, data := marked.data }
  have data : marked.data slot = { ledger.data slot with status := .cancelled } :=
    Function.update_self ..
  have side : (gone.data slot).side = (ledger.data slot).side := by
    rw [show gone.data slot = _ from data]
  have price : gone.price slot = ledger.price slot := by
    rw [Ledger.price, show gone.data slot = _ from data]
    rfl
  have removed : marked.removeFromLevel slot = gone := by
    rw [removeFromLevel, Ledger.price, wing, data]
    rfl
  have place : setCell ledger.queue (ledger.wing slot) (ledger.price slot)
      ((ledger.queue (ledger.wing slot) (ledger.price slot)).erase slot) (ledger.wing slot)
      (ledger.price slot) = (ledger.queue (ledger.wing slot) (ledger.price slot)).erase slot :=
    setCell_self ..
  have steps : ledger.withdraw slot = ((marked.removeFromLevel slot).rescanAfterCancel slot).release slot := by
    rw [withdraw, show (ledger.setStatus slot .cancelled).data slot = _ from data]
    rfl
  rw [steps, removed, rescanAfterCancel]
  simp only [side, price]
  by_cases exposes : ledger.Exposes slot
  · rw [if_pos exposes, if_pos]
    · exact gone.rescan_release slot (ledger.wing slot)
    · exact ⟨place.trans exposes.1, exposes.2⟩
  · rw [if_neg exposes, if_neg]
    · rfl
    · exact fun still => exposes ⟨place.symm.trans still.1, still.2⟩

end Withdraw

end Ledger

end OrderEngine
