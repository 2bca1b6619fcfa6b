import OrderEngine.Ledger.Shelves
import OrderEngine.Refinement.Links

namespace OrderEngine

open Library

/-- The links of the book spell out the queues of the ledger, and all other state agrees. -/
structure Represents (book : OrderBook) (ledger : Ledger) : Prop where
  core : book.toBookCore = ledger.toBookCore
  linked : ∀ wing price, Segment ((book.level wing price).next book.orderPool.slots)
    ((book.level wing price).prev book.orderPool.slots) none
    ((ledger.queue wing price).map some) none
  count : ∀ wing price,
    (book.level wing price).orderCount = UInt32.ofNat (ledger.queue wing price).length
  total : ∀ wing price, (book.level wing price).totalQuantity = ledger.total wing price
  data : ∀ slot, (book.order slot).toOrderData = ledger.data slot
  free : book.orderPool.free = ledger.free

namespace OrderBook

@[simp] theorem level_setLevel (book : OrderBook) (wing : Wing) (price : Int) (level : LimitLevel) :
    (book.setLevel wing price level).level = setCell book.level wing price level := by
  funext otherWing otherPrice
  cases wing <;> cases otherWing <;> simp [setLevel, OrderBook.level, setCell, Function.update_apply]

@[simp] theorem setLevel_core (book : OrderBook) (wing : Wing) (price : Int) (level : LimitLevel) :
    (book.setLevel wing price level).toBookCore = book.toBookCore := by
  cases wing <;> rfl

@[simp] theorem setLevel_orderPool (book : OrderBook) (wing : Wing) (price : Int)
    (level : LimitLevel) : (book.setLevel wing price level).orderPool = book.orderPool := by
  cases wing <;> rfl

/-- A level changes alone when the slots stay as they are. -/
theorem setLevel_setSlots (book : OrderBook) (wing : Wing) (price : Int) (level : LimitLevel) :
    (book.setLevel wing price level).setSlots book.orderPool.slots =
      book.setLevel wing price level := by
  cases wing <;> rfl

@[simp] theorem setSlots_level (book : OrderBook) (slots : Slots) :
    (book.setSlots slots).level = book.level := by
  funext wing
  cases wing <;> rfl

theorem touch_of_inTicks {book : OrderBook} {price : Int} (inside : InTicks price) :
    book.touch price = book := if_pos inside

end OrderBook

namespace Represents

variable {book : OrderBook} {ledger : Ledger}

theorem id_eq (same : Represents book ledger) (slot : Ptr) :
    (book.order slot).id = (ledger.data slot).id :=
  congrArg OrderData.id (same.data slot)

theorem side_eq (same : Represents book ledger) (slot : Ptr) :
    (book.order slot).side = (ledger.data slot).side :=
  congrArg OrderData.side (same.data slot)

theorem status_eq (same : Represents book ledger) (slot : Ptr) :
    (book.order slot).status = (ledger.data slot).status :=
  congrArg OrderData.status (same.data slot)

theorem wing_eq (same : Represents book ledger) (slot : Ptr) :
    (book.order slot).side.wing = ledger.wing slot :=
  congrArg Side.wing (same.side_eq slot)

theorem price_eq (same : Represents book ledger) (slot : Ptr) :
    (book.order slot).price = ledger.price slot :=
  congrArg OrderData.price (same.data slot)

theorem best_eq (same : Represents book ledger) (wing : Wing) : book.best wing = ledger.best wing :=
  congrArg (fun core => BookCore.best core wing) same.core

/-- A level is empty exactly when its queue is. -/
theorem empty_eq (same : Represents book ledger) (wing : Wing) (price : Int) :
    (book.level wing price).empty = (ledger.queue wing price).isEmpty := by
  have head := (same.linked wing price).next_first
  simp only [LimitLevel.next] at head
  rw [LimitLevel.empty, head]
  cases ledger.queue wing price <;> rfl

/-- The head of a level is the first slot of its queue. -/
theorem head_eq (same : Represents book ledger) (wing : Wing) (price : Int) :
    (book.level wing price).head = (ledger.queue wing price).head? := by
  have head := (same.linked wing price).next_first
  simp only [LimitLevel.next] at head
  rw [head]
  cases ledger.queue wing price <;> rfl

/-- Ledgers that agree in every part are represented together. -/
theorem congr (same : Represents book ledger) {other : Ledger}
    (core : ledger.toBookCore = other.toBookCore) (queue : ledger.queue = other.queue)
    (total : ledger.total = other.total) (data : ledger.data = other.data)
    (free : ledger.free = other.free) : Represents book other := by
  have equal : ledger = other := by
    cases ledger
    cases other
    simp_all
  exact equal ▸ same

/-- A change of the other members keeps every link and level. -/
theorem setCore (same : Represents book ledger) {first second : BookCore} (equal : first = second) :
    Represents { book with toBookCore := first } { ledger with toBookCore := second } where
  core := equal
  linked := same.linked
  count := same.count
  total := same.total
  data := same.data
  free := same.free

/-- New data for a slot leave its links alone. -/
theorem setData (same : Represents book ledger) (slot : Ptr) (data : OrderData) :
    Represents (book.setData slot data) (ledger.setData slot data) where
  core := same.core
  linked := by
    intro wing price
    apply (same.linked wing price).frame
    · intro node _
      cases node with
      | none => rfl
      | some other => exact update_field (fun order : Order => order.next) book.orderPool.slots (by rfl) other
    · intro node _
      cases node with
      | none => rfl
      | some other => exact update_field (fun order : Order => order.prev) book.orderPool.slots (by rfl) other
  count := same.count
  total := same.total
  data := by
    intro other
    by_cases here : other = slot
    · subst here
      simp [OrderBook.setData, OrderBook.setSlots, OrderBook.order, Ledger.setData]
    · have kept := same.data other
      simp only [OrderBook.order] at kept
      simp [OrderBook.setData, OrderBook.setSlots, OrderBook.order, Ledger.setData, here, kept]
  free := same.free

theorem setStatus (same : Represents book ledger) (slot : Ptr) (status : OrderStatus) :
    Represents (book.setStatus slot status) (ledger.setStatus slot status) := by
  rw [OrderBook.setStatus, Ledger.setStatus, same.data slot]
  exact same.setData slot _

theorem addFilled (same : Represents book ledger) (slot : Ptr) (qty : Quantity) :
    Represents (book.addFilled slot qty) (ledger.setData slot { ledger.data slot with
      filledQuantity := (ledger.data slot).filledQuantity + qty }) := by
  rw [OrderBook.addFilled, same.data slot]
  exact same.setData slot _

theorem destroy (same : Represents book ledger) (slot : Ptr) :
    Represents (book.destroy slot) (ledger.release slot) where
  core := by
    have core := same.core
    simp only [OrderBook.destroy, Ledger.release, same.free]
    rw [core]
  linked := same.linked
  count := same.count
  total := same.total
  data := same.data
  free := by
    have kept := same.free
    simp only [MemoryPool.free] at kept
    simp only [OrderBook.destroy, MemoryPool.destroy, MemoryPool.release, MemoryPool.free,
      stack_push, kept, Ledger.release]

/-- A slot outside a queue keeps its links when that queue's own links change. -/
theorem frame (same : Represents book ledger) {slots : Slots} {wing : Wing} {price : Int}
    (kept : ∀ slot ∈ ledger.queue wing price, slots slot = book.orderPool.slots slot) :
    Segment ((book.level wing price).next slots) ((book.level wing price).prev slots) none
      ((ledger.queue wing price).map some) none := by
  apply (same.linked wing price).frame
  · intro node member
    cases node with
    | none => rfl
    | some slot =>
        have inside : slot ∈ ledger.queue wing price := by simpa using member
        simp only [LimitLevel.next, kept slot inside]
  · intro node member
    cases node with
    | none => rfl
    | some slot =>
        have inside : slot ∈ ledger.queue wing price := by simpa using member
        simp only [LimitLevel.prev, kept slot inside]

/-- One level and the links around it change, and the other levels keep their slots. -/
theorem setLevel (same : Represents book ledger) (wing : Wing) (price : Int) (level : LimitLevel)
    (slots : Slots) {queue : List Ptr} {total : Quantity}
    (linked : Segment (level.next slots) (level.prev slots) none (queue.map some) none)
    (count : level.orderCount = UInt32.ofNat queue.length) (totalEq : level.totalQuantity = total)
    (data : ∀ slot, (slots slot).toOrderData = (book.order slot).toOrderData)
    (kept : ∀ otherWing otherPrice, ¬(otherWing = wing ∧ otherPrice = price) →
      ∀ slot ∈ ledger.queue otherWing otherPrice, slots slot = book.order slot) :
    Represents ((book.setLevel wing price level).setSlots slots)
      (ledger.setLevel wing price queue total) where
  core := by simpa [OrderBook.setSlots] using same.core
  linked := by
    intro otherWing otherPrice
    simp only [OrderBook.setSlots_level, OrderBook.level_setLevel, Ledger.setLevel_queue, setCell_apply]
    split
    · exact linked
    · next elsewhere => exact same.frame (kept otherWing otherPrice elsewhere)
  count := by
    intro otherWing otherPrice
    simp only [OrderBook.setSlots_level, OrderBook.level_setLevel, Ledger.setLevel_queue, setCell_apply]
    split
    · exact count
    · exact same.count otherWing otherPrice
  total := by
    intro otherWing otherPrice
    simp only [OrderBook.setSlots_level, OrderBook.level_setLevel, Ledger.setLevel_total, setCell_apply]
    split
    · exact totalEq
    · exact same.total otherWing otherPrice
  data := fun slot => (data slot).trans (same.data slot)
  free := by simpa [OrderBook.setSlots, MemoryPool.free] using same.free

/-- A total that loses a quantity keeps every queue. -/
theorem deductTotal (same : Represents book ledger) {slot : Ptr} (inside : InTicks (ledger.price slot))
    (qty : Quantity) : Represents (book.deductTotal slot qty) (ledger.deductTotal slot qty) := by
  simp only [OrderBook.deductTotal, Ledger.deductTotal, same.wing_eq, same.price_eq,
    OrderBook.touch_of_inTicks inside]
  rw [← same.total, ← OrderBook.setLevel_setSlots]
  refine same.setLevel _ _ _ _ ?_ (same.count _ _) rfl (fun _ => rfl) (fun _ _ _ _ _ => rfl)
  exact (same.linked (ledger.wing slot) (ledger.price slot)).frame
    (fun node _ => by cases node <;> rfl) (fun node _ => by cases node <;> rfl)

/-- The last slot of a queue is where the level's tail points. -/
theorem tail_mem (same : Represents book ledger) {wing : Wing} {price : Int} {slot : Ptr}
    (tail : (book.level wing price).tail = some slot) : slot ∈ ledger.queue wing price := by
  have last := (same.linked wing price).prev_last
  simp only [LimitLevel.prev, tail] at last
  have member := List.getLast_mem (l := none :: (ledger.queue wing price).map some) (by simp)
  rw [← last] at member
  simpa using member

/-- Both neighbours of a linked slot lie in its queue. -/
theorem neighbour_mem (same : Represents book ledger) {wing : Wing} {price : Int}
    {slot other : Ptr} (member : slot ∈ ledger.queue wing price)
    (neighbour : (book.order slot).prev = some other ∨ (book.order slot).next = some other) :
    other ∈ ledger.queue wing price := by
  obtain ⟨before, after, parts⟩ := List.append_of_mem member
  have linked := same.linked wing price
  rw [parts, List.map_append, List.map_cons, Segment.split] at linked
  obtain ⟨front, back⟩ := linked
  rw [parts]
  rcases neighbour with backward | onward
  · have last := front.prev_last
    have member := List.getLast_mem (l := none :: before.map some) (by simp)
    rw [← last, LimitLevel.prev] at member
    change (book.order slot).prev ∈ _ at member
    rw [backward] at member
    have inside : other ∈ before := by simpa using member
    simp [inside]
  · have first := back.next_first
    have member := List.head_mem (l := after.map some ++ [none]) (by simp)
    rw [← first, LimitLevel.next] at member
    change (book.order slot).next ∈ _ at member
    rw [onward] at member
    have inside : other ∈ after := by simpa using member
    simp [inside]

/-- The order joins the end of its level's queue. -/
theorem pushBack (same : Represents book ledger) (shelved : ledger.Shelved) {slot : Ptr}
    (fresh : ∀ wing price, slot ∉ ledger.queue wing price) (wing : Wing) (price : Int) :
    Represents ((book.setLevel wing price
        ((book.level wing price).pushBack book.orderPool.slots slot).1).setSlots
        ((book.level wing price).pushBack book.orderPool.slots slot).2)
      (ledger.setLevel wing price (ledger.queue wing price ++ [slot])
        (ledger.total wing price + (ledger.data slot).quantity)) := by
  refine same.setLevel wing price _ _ ?_ ?_ ?_ (fun other => LimitLevel.pushBack_data ..) ?_
  · have distinct : (none :: (ledger.queue wing price).map some).Nodup := by
      simpa using (shelved.distinct wing price).map (Option.some_injective _)
    rw [LimitLevel.pushBack_next, LimitLevel.pushBack_prev]
    simpa using (same.linked wing price).insertLast (some slot) distinct (by simp) (by simp)
      (by simpa using fresh wing price) (by simp)
  · rw [LimitLevel.pushBack_orderCount, same.count]
    simp
  · have data := congrArg OrderData.quantity (same.data slot)
    rw [LimitLevel.pushBack_totalQuantity, same.total]
    exact congrArg (ledger.total wing price + ·) data
  · intro otherWing otherPrice elsewhere other member
    apply LimitLevel.pushBack_frame
    · intro equal
      subst equal
      exact fresh _ _ member
    · intro tail
      exact elsewhere (shelved.place_unique member (same.tail_mem tail))

/-- The order leaves its level's queue wherever it stands. -/
theorem remove (same : Represents book ledger) (shelved : ledger.Shelved) {slot : Ptr} {wing : Wing}
    {price : Int} (member : slot ∈ ledger.queue wing price) :
    Represents ((book.setLevel wing price
        ((book.level wing price).remove book.orderPool.slots slot).1).setSlots
        ((book.level wing price).remove book.orderPool.slots slot).2)
      (ledger.setLevel wing price ((ledger.queue wing price).erase slot)
        (ledger.total wing price - (ledger.data slot).remaining)) := by
  refine same.setLevel wing price _ _ ?_ ?_ ?_ (fun other => LimitLevel.remove_data ..) ?_
  · obtain ⟨before, after, parts⟩ := List.append_of_mem member
    have distinct := shelved.distinct wing price
    have linked := same.linked wing price
    rw [parts] at distinct linked ⊢
    have outside : slot ∉ before := by
      intro inside
      exact (List.nodup_append.mp distinct).2.2 slot inside slot (by simp) rfl
    have outside' : slot ∉ after :=
      (List.nodup_cons.mp (List.nodup_append.mp distinct).2.1).1
    rw [List.erase_append_right _ outside, List.erase_cons_head]
    rw [List.map_append, List.map_cons] at linked
    have unlinked := linked.unlink
      (by simpa using distinct.map (Option.some_injective _)) (by simp)
    rw [LimitLevel.remove_next, LimitLevel.remove_prev, List.map_append]
    apply unlinked.frame_outside
    · simp [outside, outside']
    · simp [outside, outside']
  · have positive := List.length_pos_of_mem member
    rw [LimitLevel.remove_orderCount, same.count, List.length_erase_of_mem member]
    obtain ⟨length, equal⟩ := Nat.exists_eq_add_of_lt positive
    rw [equal]
    simp
  · have data := congrArg OrderData.remaining (same.data slot)
    rw [LimitLevel.remove_totalQuantity, same.total]
    exact congrArg (ledger.total wing price - ·) data
  · intro otherWing otherPrice elsewhere other inside
    apply LimitLevel.remove_frame
    · intro equal
      subst equal
      exact elsewhere (shelved.place_unique inside member)
    · intro backward
      exact elsewhere (shelved.place_unique inside (same.neighbour_mem member (.inl backward)))
    · intro onward
      exact elsewhere (shelved.place_unique inside (same.neighbour_mem member (.inr onward)))

theorem removeFromLevel (same : Represents book ledger) (shelved : ledger.Shelved) {slot : Ptr}
    (inside : InTicks (ledger.price slot))
    (member : slot ∈ ledger.queue (ledger.wing slot) (ledger.price slot)) :
    Represents (book.removeFromLevel slot) (ledger.removeFromLevel slot) := by
  simp only [OrderBook.removeFromLevel, Ledger.removeFromLevel, same.wing_eq, same.price_eq,
    OrderBook.touch_of_inTicks inside]
  exact same.remove shelved member

end Represents

end OrderEngine
