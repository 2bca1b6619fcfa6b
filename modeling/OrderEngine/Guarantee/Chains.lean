import OrderEngine.Refinement.Runs

namespace OrderEngine

open Library

/-- The links, the ends and the count of one level agree with the chain from its head. -/
structure OrderBook.LevelFormed (book : OrderBook) (wing : Wing) (price : Int) : Prop where
  head : (book.level wing price).head = (book.queue wing price).head?
  tail : (book.level wing price).tail = (book.queue wing price).getLast?
  ends : (book.level wing price).head = none ↔ (book.level wing price).tail = none
  next : ∀ index (inside : index < (book.queue wing price).length),
    (book.order (book.queue wing price)[index]).next = (book.queue wing price)[index + 1]?
  prev : ∀ index (inside : index < (book.queue wing price).length),
    (book.order (book.queue wing price)[index]).prev =
      if index = 0 then none else (book.queue wing price)[index - 1]?
  acyclic : (book.queue wing price).Nodup
  count : (book.level wing price).orderCount.toNat = (book.queue wing price).length
  placed : ∀ slot ∈ book.queue wing price,
    (book.order slot).side = wing.side ∧ (book.order slot).price = price

namespace Represents

variable {book : OrderBook} {ledger : Ledger} {pending : Option Ptr} {wing : Wing} {price : Int}

theorem tail_eq (same : Represents book ledger) (wing : Wing) (price : Int) :
    (book.level wing price).tail = (ledger.queue wing price).getLast? := by
  have last := (same.linked wing price).prev_last
  simp only [LimitLevel.prev] at last
  rw [last]
  rcases List.eq_nil_or_concat (ledger.queue wing price) with empty | ⟨front, slot, parts⟩
  · simp [empty]
  · simp [parts]

/-- The successor of each linked order is the next order of its queue. -/
theorem next_eq (same : Represents book ledger) {index : Nat}
    (inside : index < (ledger.queue wing price).length) :
    (book.order (ledger.queue wing price)[index]).next = (ledger.queue wing price)[index + 1]? := by
  have onward := (same.linked wing price).next_getElem
    (show index < ((ledger.queue wing price).map some).length by simpa using inside)
  rw [List.getElem_map, List.getElem?_map] at onward
  apply onward.trans
  cases (ledger.queue wing price)[index + 1]? <;> rfl

theorem prev_eq (same : Represents book ledger) {index : Nat}
    (inside : index < (ledger.queue wing price).length) :
    (book.order (ledger.queue wing price)[index]).prev =
      if index = 0 then none else (ledger.queue wing price)[index - 1]? := by
  have backward := (same.linked wing price).prev_getElem
    (show index < ((ledger.queue wing price).map some).length by simpa using inside)
  rw [List.getElem_map, List.getElem?_map] at backward
  apply backward.trans
  cases (ledger.queue wing price)[index - 1]? <;> rfl

/-- The counter of a level does not wrap, because the pool has fewer slots than the counter has values. -/
theorem count_toNat (same : Represents book ledger) (inv : ledger.Inv pending) (wing : Wing)
    (price : Int) : (book.level wing price).orderCount.toNat = (ledger.queue wing price).length := by
  have short := inv.queue_length_le wing price
  have fits : kMaxOrders < 2 ^ 32 := by decide
  rw [same.count, UInt32.toNat_ofNat']
  exact Nat.mod_eq_of_lt (by omega)

end Represents

/-- Every level list stays well formed, and no order stands on two of them. -/
theorem chains_formed (tradeCb : Bool) (clock : Nat → Nanos) (calls : List Call)
    (admissible : ∀ call ∈ calls, call.Admissible) :
    let book := (OrderBook.empty tradeCb clock).run calls
    (∀ wing price, book.LevelFormed wing price) ∧
      ∀ wing price otherWing otherPrice slot, slot ∈ book.queue wing price →
        slot ∈ book.queue otherWing otherPrice → wing = otherWing ∧ price = otherPrice := by
  obtain ⟨ledger, same, settled⟩ := settled_run tradeCb clock admissible
  intro book
  have queue := same.queue_eq settled.toInv
  refine ⟨fun wing price => ?_, fun wing price otherWing otherPrice slot here there => ?_⟩
  · have head := same.head_eq wing price
    have tail := same.tail_eq wing price
    exact {
      head := by rw [queue]; exact head
      tail := by rw [queue]; exact tail
      ends := by rw [head, tail, List.head?_eq_none_iff, List.getLast?_eq_none_iff]
      next := by
        rw [queue]
        exact fun _ inside => same.next_eq inside
      prev := by
        rw [queue]
        exact fun _ inside => same.prev_eq inside
      acyclic := by rw [queue]; exact settled.distinct wing price
      count := by rw [queue]; exact same.count_toNat settled.toInv wing price
      placed := fun slot member => by
        rw [queue] at member
        obtain ⟨place, here⟩ := settled.placed member
        refine ⟨?_, (same.price_eq slot).trans here⟩
        rw [same.side_eq]
        unfold Ledger.wing at place
        rcases settled.named slot with buy | sell
        · rw [buy] at place ⊢
          rw [← place]
          rfl
        · rw [sell] at place ⊢
          rw [← place]
          rfl }
  · rw [queue] at here there
    exact settled.place_unique here there

theorem chains_formed_after_removals :
    let book := (OrderBook.empty true fun _ => 1).run
      [.add (.buy 1 9 5), .add (.buy 2 9 6), .add (.buy 3 9 7), .cancel 2, .add (.sell 4 9 5)]
    (∀ wing price, book.LevelFormed wing price) ∧
      ∀ wing price otherWing otherPrice slot, slot ∈ book.queue wing price →
        slot ∈ book.queue otherWing otherPrice → wing = otherWing ∧ price = otherPrice :=
  chains_formed true (fun _ => 1) _ (by decide)

end OrderEngine
