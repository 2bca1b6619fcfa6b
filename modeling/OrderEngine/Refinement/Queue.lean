import OrderEngine.Construction.SpscQueue
import OrderEngine.Library.RingBuffer

namespace OrderEngine

open Library

namespace SPSCQueue

variable {T : Type} {capacity : Nat}

/-- Both indices lie in the ring. -/
structure Valid (queue : SPSCQueue T capacity) : Prop where
  head : queue.head < capacity
  tail : queue.tail < capacity

def size (queue : SPSCQueue T capacity) : Nat := ringSize capacity queue.head queue.tail

/-- These are the items between the head and the tail, the oldest first. -/
def contents (queue : SPSCQueue T capacity) : List T :=
  ringItems queue.storage capacity queue.head queue.size

theorem init_valid (positive : 0 < capacity) (raw : T) : (init raw : SPSCQueue T capacity).Valid :=
  ⟨positive, positive⟩

theorem init_contents (raw : T) : (init raw : SPSCQueue T capacity).contents = [] := by
  have size : (init raw : SPSCQueue T capacity).size = 0 := by
    unfold SPSCQueue.size ringSize init
    simp
  rw [contents, size, ringItems_zero]

/-- The mask wraps an index as the remainder does. -/
theorem and_kMask {bits : Nat} (index : Nat) (power : capacity = 2 ^ bits) :
    index &&& kMask capacity = index % capacity := by
  rw [kMask, power, Nat.and_two_pow_sub_one_eq_mod]

section Stores

variable {bits : Nat} {queue : SPSCQueue T capacity} (valid : queue.Valid)

include valid

theorem size_lt : queue.size < capacity := ringSize_lt valid.head

/-- The tail lies behind the items. -/
theorem behind : (queue.head + queue.size) % capacity = queue.tail := tail_eq valid.head valid.tail

/-- The cell at the tail holds no item. -/
theorem writeItem_contents (item : T) : (queue.writeItem queue.tail item).contents = queue.contents := by
  have kept := @ringItems_write T queue.storage capacity queue.head queue.size valid.head (size_lt valid) item
  rw [behind valid] at kept
  exact kept

/-- A queue without items has its head at its tail. -/
theorem contents_eq_nil : queue.contents = [] ↔ queue.head = queue.tail := by
  have empty : queue.size = 0 ↔ queue.head = queue.tail := ringSize_eq_zero valid.head valid.tail
  rw [← empty, ← List.length_eq_zero_iff, contents, ringItems_length]

variable (power : capacity = 2 ^ bits)

include power

theorem storeTail_valid (tail : Nat) : (queue.storeTail ((tail + 1) &&& kMask capacity)).Valid := by
  rw [and_kMask _ power]
  exact ⟨valid.head, Nat.mod_lt _ (Nat.lt_of_le_of_lt (Nat.zero_le _) valid.head)⟩

theorem storeHead_valid (head : Nat) : (queue.storeHead ((head + 1) &&& kMask capacity)).Valid := by
  rw [and_kMask _ power]
  exact ⟨Nat.mod_lt _ (Nat.lt_of_le_of_lt (Nat.zero_le _) valid.head), valid.tail⟩

/-- The next tail meets the head when one cell is left. -/
theorem blocked_iff : (queue.tail + 1) &&& kMask capacity = queue.head ↔ queue.size + 1 = capacity := by
  rw [and_kMask _ power]
  exact next_tail_eq_head valid.head valid.tail

/-- The store of the next tail publishes the cell at the tail. -/
theorem storeTail_contents (room : queue.size + 1 < capacity) :
    (queue.storeTail ((queue.tail + 1) &&& kMask capacity)).contents =
      queue.contents ++ [queue.storage queue.tail] := by
  have free : (queue.tail + 1) % capacity ≠ queue.head := by
    intro blocked
    have full := (blocked_iff valid power).mp (by rw [and_kMask _ power]; exact blocked)
    omega
  have grown : (queue.storeTail ((queue.tail + 1) &&& kMask capacity)).size = queue.size + 1 := by
    rw [and_kMask _ power]
    exact ringSize_push valid.head valid.tail free
  rw [contents, grown]
  show ringItems queue.storage capacity queue.head (queue.size + 1) = _
  rw [ringItems_succ, behind valid]
  rfl

/-- The store of the next head gives up the cell at the head. -/
theorem storeHead_contents (occupied : queue.head ≠ queue.tail) :
    queue.contents =
      queue.storage queue.head :: (queue.storeHead ((queue.head + 1) &&& kMask capacity)).contents := by
  have shrunk := ringSize_pop valid.head valid.tail occupied
  rw [and_kMask _ power, contents, size, ← shrunk, ringItems_pop valid.head]
  rfl

end Stores

section Operations

variable {bits : Nat} {queue : SPSCQueue T capacity} (power : capacity = 2 ^ bits) (valid : queue.Valid)

include power valid

/-- A full queue keeps one cell free. -/
theorem full_iff : queue.full = true ↔ queue.size + 1 = capacity := by
  rw [full, decide_eq_true_iff]
  exact blocked_iff valid power

/-- A push adds an item at the end, or it finds one cell left and changes nothing. -/
theorem tryPush_cases (item : T) :
    (queue.tryPush item = (false, queue) ∧ queue.size + 1 = capacity) ∨
      ((queue.tryPush item).1 = true ∧ queue.size + 1 < capacity ∧ (queue.tryPush item).2.Valid ∧
        (queue.tryPush item).2.contents = queue.contents ++ [item]) := by
  have full := blocked_iff valid power
  have bound := size_lt valid
  unfold tryPush
  by_cases blocked : (queue.tail + 1) &&& kMask capacity = queue.head
  · left
    simp only [if_pos blocked]
    exact ⟨trivial, full.mp blocked⟩
  · right
    have room : queue.size + 1 < capacity := by
      have notFull : queue.size + 1 ≠ capacity := fun equal => blocked (full.mpr equal)
      omega
    have written : (queue.writeItem queue.tail item).Valid := ⟨valid.head, valid.tail⟩
    have published := storeTail_contents written power room
    have cell : (queue.writeItem queue.tail item).storage queue.tail = item := Function.update_self _ _ _
    change _ = _ ++ [(queue.writeItem queue.tail item).storage queue.tail] at published
    rw [writeItem_contents valid, cell] at published
    simp only [if_neg blocked]
    exact ⟨trivial, room, storeTail_valid written power queue.tail, published⟩

/-- A pop takes the oldest item, or it finds no item and changes nothing. -/
theorem tryPop_cases :
    (queue.tryPop = (none, queue) ∧ queue.contents = []) ∨
      (∃ item, (queue.tryPop).1 = some item ∧ (queue.tryPop).2.Valid ∧
        queue.contents = item :: (queue.tryPop).2.contents) := by
  unfold tryPop
  by_cases empty : queue.head = queue.tail
  · left
    rw [if_pos empty]
    exact ⟨rfl, (contents_eq_nil valid).mpr empty⟩
  · right
    rw [if_neg empty]
    exact ⟨queue.storage queue.head, rfl, storeHead_valid valid power queue.head,
      storeHead_contents valid power empty⟩

/-- The queue takes the items that it has room for. -/
def pushAll (queue : SPSCQueue T capacity) (items : List T) : SPSCQueue T capacity :=
  items.foldl (fun queue item => (queue.tryPush item).2) queue

/-- Each attempt to push an item meets this number of items in the queue. -/
def attempts (queue : SPSCQueue T capacity) : List T → List (T × Nat)
  | [] => []
  | item :: items => (item, queue.size) :: (queue.tryPush item).2.attempts items

omit power valid in
theorem attempts_items (queue : SPSCQueue T capacity) (items : List T) :
    (queue.attempts items).map Prod.fst = items := by
  induction items generalizing queue with
  | nil => rfl
  | cons item items ih => rw [attempts, List.map_cons, ih]

/-- The queue loses the items that meet a full queue, and it keeps the others in order. -/
theorem pushAll_contents (items : List T) : (queue.pushAll items).Valid ∧ (queue.pushAll items).contents =
    queue.contents ++ ((queue.attempts items).filter fun attempt => attempt.2 ≠ capacity - 1).map Prod.fst := by
  induction items generalizing queue with
  | nil => exact ⟨valid, (List.append_nil _).symm⟩
  | cons item items ih =>
      show ((queue.tryPush item).2.pushAll items).Valid ∧ ((queue.tryPush item).2.pushAll items).contents = _
      rcases tryPush_cases power valid item with ⟨blocked, full⟩ | ⟨pushed, room, after, items⟩
      · have lost : ¬ queue.size ≠ capacity - 1 := by omega
        rw [attempts, List.filter_cons_of_neg (by simpa using lost), blocked]
        exact ih valid
      · have kept : queue.size ≠ capacity - 1 := by omega
        rw [attempts, List.filter_cons_of_pos (by simpa using kept), List.map_cons, (ih after).2, items,
          List.append_assoc, List.singleton_append]
        exact ⟨(ih after).1, rfl⟩

end Operations

end SPSCQueue

end OrderEngine
