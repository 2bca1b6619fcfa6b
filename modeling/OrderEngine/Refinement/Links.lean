import OrderEngine.Construction.Types
import OrderEngine.Library.Segment

namespace OrderEngine.LimitLevel

open Library

/-- A level closes its chain into a ring: the null pointer stands for the level itself. -/
def next (level : LimitLevel) (slots : Slots) : Option Ptr → Option Ptr
  | none => level.head
  | some slot => (slots slot).next

def prev (level : LimitLevel) (slots : Slots) : Option Ptr → Option Ptr
  | none => level.tail
  | some slot => (slots slot).prev

section Writes

variable (level : LimitLevel) (slots : Slots) (place link : Option Ptr)

theorem linkNext_next : (level.linkNext slots place link).1.next (level.linkNext slots place link).2 =
    Function.update (level.next slots) place link := by
  funext node
  cases place <;> cases node <;> simp [linkNext, next, Function.update_apply]
  split <;> rfl

theorem linkNext_prev : (level.linkNext slots place link).1.prev (level.linkNext slots place link).2 =
    level.prev slots := by
  funext node
  cases place <;> cases node <;> simp [linkNext, prev, Function.update_apply]
  split <;> simp_all

theorem linkPrev_prev : (level.linkPrev slots place link).1.prev (level.linkPrev slots place link).2 =
    Function.update (level.prev slots) place link := by
  funext node
  cases place <;> cases node <;> simp [linkPrev, prev, Function.update_apply]
  split <;> rfl

theorem linkPrev_next : (level.linkPrev slots place link).1.next (level.linkPrev slots place link).2 =
    level.next slots := by
  funext node
  cases place <;> cases node <;> simp [linkPrev, next, Function.update_apply]
  split <;> simp_all

theorem linkNext_data (slot : Ptr) : ((level.linkNext slots place link).2 slot).toOrderData =
    (slots slot).toOrderData := by
  cases place <;> simp [linkNext, Function.update_apply]
  split <;> simp_all

theorem linkPrev_data (slot : Ptr) : ((level.linkPrev slots place link).2 slot).toOrderData =
    (slots slot).toOrderData := by
  cases place <;> simp [linkPrev, Function.update_apply]
  split <;> simp_all

theorem linkNext_frame {slot : Ptr} (other : place ≠ some slot) :
    (level.linkNext slots place link).2 slot = slots slot := by
  cases place with
  | none => rfl
  | some node => exact Function.update_of_ne (fun equal => other (by rw [equal])) _ _

theorem linkPrev_frame {slot : Ptr} (other : place ≠ some slot) :
    (level.linkPrev slots place link).2 slot = slots slot := by
  cases place with
  | none => rfl
  | some node => exact Function.update_of_ne (fun equal => other (by rw [equal])) _ _

@[simp] theorem linkNext_totalQuantity :
    (level.linkNext slots place link).1.totalQuantity = level.totalQuantity := by
  cases place <;> rfl

@[simp] theorem linkNext_orderCount :
    (level.linkNext slots place link).1.orderCount = level.orderCount := by
  cases place <;> rfl

@[simp] theorem linkPrev_totalQuantity :
    (level.linkPrev slots place link).1.totalQuantity = level.totalQuantity := by
  cases place <;> rfl

@[simp] theorem linkPrev_orderCount :
    (level.linkPrev slots place link).1.orderCount = level.orderCount := by
  cases place <;> rfl

end Writes

section Operations

variable (level : LimitLevel) (slots : Slots) (order : Ptr)

/-- A write to the links of one order changes one entry of each direction. -/
theorem relink_next (forward backward : Option Ptr) :
    level.next (Function.update slots order { slots order with next := forward, prev := backward }) =
      Function.update (level.next slots) (some order) forward := by
  funext node
  cases node with
  | none => rfl
  | some node =>
      by_cases same : node = order
      · subst same
        simp [next]
      · simp [next, same]

theorem relink_prev (forward backward : Option Ptr) :
    level.prev (Function.update slots order { slots order with next := forward, prev := backward }) =
      Function.update (level.prev slots) (some order) backward := by
  funext node
  cases node with
  | none => rfl
  | some node =>
      by_cases same : node = order
      · subst same
        simp [prev]
      · simp [prev, same]

/-- A push links the order after the old tail. -/
theorem pushBack_next :
    (level.pushBack slots order).1.next (level.pushBack slots order).2 =
      Function.update (Function.update (level.next slots) (some order) none)
        (level.prev slots none) (some order) := by
  have written := level.linkNext_next
    (Function.update slots order { slots order with next := none, prev := level.tail })
    level.tail (some order)
  rw [relink_next] at written
  rw [show level.prev slots none = level.tail from rfl, ← written]
  funext node
  cases node <;> rfl

theorem pushBack_prev :
    (level.pushBack slots order).1.prev (level.pushBack slots order).2 =
      Function.update (Function.update (level.prev slots) (some order) (level.prev slots none))
        none (some order) := by
  have written := level.linkNext_prev
    (Function.update slots order { slots order with next := none, prev := level.tail })
    level.tail (some order)
  rw [relink_prev] at written
  funext node
  cases node with
  | none => rfl
  | some node =>
      rw [Function.update_of_ne (Option.some_ne_none node)]
      exact congrFun written (some node)

theorem pushBack_data (slot : Ptr) : ((level.pushBack slots order).2 slot).toOrderData =
    (slots slot).toOrderData := by
  simp only [pushBack, linkNext_data]
  by_cases same : slot = order
  · rw [same, Function.update_self]
  · rw [Function.update_of_ne same]

theorem pushBack_frame {slot : Ptr} (otherOrder : slot ≠ order) (otherTail : level.tail ≠ some slot) :
    (level.pushBack slots order).2 slot = slots slot := by
  simp only [pushBack, level.linkNext_frame _ _ _ otherTail, Function.update_of_ne otherOrder]

/-- The level counts the whole quantity of the order it takes in. -/
theorem pushBack_totalQuantity : (level.pushBack slots order).1.totalQuantity =
    level.totalQuantity + (slots order).quantity := by
  have data := level.linkNext_data
    (Function.update slots order { slots order with next := none, prev := level.tail })
    level.tail (some order) order
  rw [Function.update_self] at data
  simp only [pushBack, linkNext_totalQuantity]
  exact congrArg (fun data => level.totalQuantity + OrderData.quantity data) data

theorem pushBack_orderCount :
    (level.pushBack slots order).1.orderCount = level.orderCount + 1 := by
  simp [pushBack]

/-- The first write of a removal leaves the order's own successor as it was. -/
theorem linkNext_onward :
    ((level.linkNext slots (slots order).prev (slots order).next).2 order).next =
      (slots order).next := by
  have here := congrFun (level.linkNext_next slots (slots order).prev (slots order).next) (some order)
  simp only [next, Function.update_apply] at here
  apply here.trans
  split <;> rfl

/-- A removal joins the two neighbours and clears the links of the order. -/
theorem remove_next :
    (level.remove slots order).1.next (level.remove slots order).2 =
      Function.update (Function.update (level.next slots) (level.prev slots (some order))
        (level.next slots (some order))) (some order) none := by
  let first := level.linkNext slots (slots order).prev (slots order).next
  let second := first.1.linkPrev first.2 (first.2 order).next (first.2 order).prev
  have joined : second.1.next second.2 =
      Function.update (level.next slots) (slots order).prev (slots order).next :=
    (linkPrev_next ..).trans (linkNext_next ..)
  have cleared := second.1.relink_next second.2 order none none
  rw [joined] at cleared
  refine Eq.trans ?_ cleared
  funext node
  cases node <;> rfl

theorem remove_prev :
    (level.remove slots order).1.prev (level.remove slots order).2 =
      Function.update (Function.update (level.prev slots) (level.next slots (some order))
        (level.prev slots (some order))) (some order) none := by
  let first := level.linkNext slots (slots order).prev (slots order).next
  let second := first.1.linkPrev first.2 (first.2 order).next (first.2 order).prev
  have back : (first.2 order).prev = (slots order).prev :=
    congrFun (level.linkNext_prev slots (slots order).prev (slots order).next) (some order)
  have joined : second.1.prev second.2 =
      Function.update (level.prev slots) (slots order).next (slots order).prev := by
    apply (linkPrev_prev ..).trans
    rw [linkNext_onward, back, linkNext_prev]
  have cleared := second.1.relink_prev second.2 order none none
  rw [joined] at cleared
  refine Eq.trans ?_ cleared
  funext node
  cases node <;> rfl

theorem remove_data (slot : Ptr) : ((level.remove slots order).2 slot).toOrderData =
    (slots slot).toOrderData := by
  simp only [remove]
  by_cases same : slot = order
  · subst same
    rw [Function.update_self]
    exact (linkPrev_data ..).trans (linkNext_data ..)
  · rw [Function.update_of_ne same]
    exact (linkPrev_data ..).trans (linkNext_data ..)

theorem remove_frame {slot : Ptr} (otherOrder : slot ≠ order)
    (otherPrev : (slots order).prev ≠ some slot) (otherNext : (slots order).next ≠ some slot) :
    (level.remove slots order).2 slot = slots slot := by
  simp only [remove, Function.update_of_ne otherOrder]
  rw [linkPrev_frame _ _ _ _ (by rw [linkNext_onward]; exact otherNext), linkNext_frame _ _ _ _ otherPrev]

theorem remove_totalQuantity : (level.remove slots order).1.totalQuantity =
    level.totalQuantity - ((slots order).quantity - (slots order).filledQuantity) := by
  let first := level.linkNext slots (slots order).prev (slots order).next
  let second := first.1.linkPrev first.2 (first.2 order).next (first.2 order).prev
  have data : (second.2 order).toOrderData = (slots order).toOrderData :=
    (linkPrev_data ..).trans (linkNext_data ..)
  simp only [remove, linkPrev_totalQuantity, linkNext_totalQuantity, Function.update_self]
  exact congrArg (fun data => level.totalQuantity -
    (OrderData.quantity data - OrderData.filledQuantity data)) data

theorem remove_orderCount :
    (level.remove slots order).1.orderCount = level.orderCount - 1 := by
  simp [remove]

end Operations

end OrderEngine.LimitLevel
