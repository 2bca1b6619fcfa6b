import OrderEngine.Construction.Chain
import OrderEngine.Ledger.Settled
import OrderEngine.Library.History
import OrderEngine.Refinement.Calls

namespace OrderEngine

open Library

/-- A walk along the links of a segment reaches its nodes in order. -/
theorem chain_of_segment {level : LimitLevel} {slots : Slots} {nodes : List Ptr} {first : Option Ptr}
    {fuel : Nat} (linked : Segment (level.next slots) (level.prev slots) first (nodes.map some) none)
    (enough : nodes.length ≤ fuel) : chain slots fuel (level.next slots first) = nodes := by
  induction nodes generalizing first fuel with
  | nil =>
      rw [linked.1]
      cases fuel <;> rfl
  | cons node rest ih =>
      obtain ⟨forward, -, tail⟩ := linked
      cases fuel with
      | zero => exact absurd enough (by simp)
      | succ fuel =>
          rw [forward, chain]
          exact congrArg (node :: ·) (ih tail (by simpa using enough))

namespace Represents

variable {book : OrderBook} {ledger : Ledger} {pending : Option Ptr}

/-- The walk of a level reaches exactly the ledger's queue. -/
theorem queue_eq (same : Represents book ledger) (inv : ledger.Inv pending) (wing : Wing) (price : Int) :
    book.queue wing price = ledger.queue wing price :=
  chain_of_segment (same.linked wing price) (inv.queue_length_le wing price)

theorem linked_iff (same : Represents book ledger) (inv : ledger.Inv pending) (slot : Ptr) :
    book.Linked slot ↔ ledger.Linked slot := by
  simp only [OrderBook.Linked, same.queue_eq inv]
  constructor
  · rintro ⟨wing, price, member⟩
    exact inv.linked member
  · intro linked
    exact ⟨_, _, linked⟩

end Represents

namespace Ledger

/-- The ledger of a new book has empty queues and every slot free. -/
def empty (tradeCb : Bool) (clock : Nat → Nanos) : Ledger where
  tradeCb := tradeCb
  clock := clock
  queue := fun _ _ => []
  total := fun _ _ => 0
  data := fun _ => {}
  free := stack (fun index => slotAddress orderSlotSize (kMaxOrders - 1 - index)) kMaxOrders

variable {tradeCb : Bool} {clock : Nat → Nanos}

theorem empty_free : (empty tradeCb clock).free =
    stack (fun index => slotAddress orderSlotSize (kMaxOrders - 1 - index)) kMaxOrders := by
  unfold empty
  with_reducible rfl

theorem mem_empty_free {slot : Ptr} : slot ∈ (empty tradeCb clock).free ↔ IsSlot slot := by
  rw [empty_free, mem_stack]
  constructor
  · rintro ⟨index, inside, rfl⟩
    exact ⟨kMaxOrders - 1 - index, by omega, rfl⟩
  · rintro ⟨index, inside, rfl⟩
    exact ⟨kMaxOrders - 1 - index, by omega, by rw [Nat.sub_sub_self (by omega)]⟩

/-- The slots of a new pool are distinct. -/
theorem slots_nodup :
    (stack (fun index => slotAddress orderSlotSize (kMaxOrders - 1 - index)) kMaxOrders).Nodup := by
  apply stack_nodup (fun index => slotAddress orderSlotSize (kMaxOrders - 1 - index)) kMaxOrders
  intro first firstInside second secondInside equal
  change first < kMaxOrders at firstInside
  change second < kMaxOrders at secondInside
  have addresses : (128 : Int) * (kMaxOrders - 1 - first : Nat) = 128 * (kMaxOrders - 1 - second : Nat) :=
    equal
  omega

theorem empty_free_nodup : (empty tradeCb clock).free.Nodup := by
  rw [empty_free]
  exact slots_nodup

/-- A new ledger is settled. -/
theorem empty_settled : (empty tradeCb clock).Settled where
  distinct := fun _ _ => List.nodup_nil
  placed := fun member => absurd member (List.not_mem_nil)
  inTicks := fun member => absurd member (List.not_mem_nil)
  live := fun member => absurd member (List.not_mem_nil)
  filledLe := fun member => absurd member (List.not_mem_nil)
  used := fun member => absurd member (List.not_mem_nil)
  freeNodup := empty_free_nodup
  freeSlots := fun _ member => mem_empty_free.mp member
  mapped := fun here => absurd here.symm (Option.some_ne_none _)
  found := fun here => absurd here.symm (Option.some_ne_none _)
  bestInTicks := fun {wing} valid => by cases wing <;> exact absurd rfl valid
  bestBound := fun occupied => absurd rfl occupied
  arrived := fun here => absurd here.symm (Option.some_ne_none _)
  released := fun _ member => absurd member (List.not_mem_nil)
  faults := rfl
  named := fun _ => .inl rfl
  tight := fun wing => by cases wing <;> exact .inl rfl
  uncrossed := fun member => absurd member (List.not_mem_nil)

end Ledger

/-- A new book spells out the ledger with empty queues. -/
theorem Represents.empty (tradeCb : Bool) (clock : Nat → Nanos) :
    Represents (OrderBook.empty tradeCb clock) (Ledger.empty tradeCb clock) where
  core := rfl
  linked := fun wing _ => by cases wing <;> exact ⟨rfl, rfl⟩
  count := fun wing _ => by cases wing <;> rfl
  total := fun wing _ => by cases wing <;> rfl
  data := fun _ => rfl
  free := by
    unfold Ledger.empty OrderBook.empty MemoryPool.init MemoryPool.free
    with_reducible rfl

section Runs

variable (tradeCb : Bool) (clock : Nat → Nanos)

/-- Every admissible run keeps the book settled. -/
theorem settled_run {calls : List Call} (admissible : ∀ call ∈ calls, call.Admissible) :
    ∃ ledger, Represents ((OrderBook.empty tradeCb clock).run calls) ledger ∧ ledger.Settled := by
  induction calls using List.reverseRecOn with
  | nil => exact ⟨_, .empty tradeCb clock, Ledger.empty_settled⟩
  | append_singleton past call ih =>
      obtain ⟨ledger, same, settled⟩ := ih fun other member => admissible other (by simp [member])
      have last := admissible call (by simp)
      obtain ⟨after, run, represents, -⟩ := same.call settled.toInv last.sound
      rw [OrderBook.run_append]
      exact ⟨after, represents, settled.call last run⟩

variable {tradeCb clock} in
/-- Each call keeps a property exactly when it is safe, so a run keeps the property throughout
exactly when all its calls are safe. -/
theorem holds_throughout_iff {Holds : OrderBook → Prop} {Safe : OrderBook → Call → Prop}
    (start : Holds (OrderBook.empty tradeCb clock))
    (step : ∀ {book : OrderBook} {ledger : Ledger} {call : Call}, Represents book ledger →
      ledger.Settled → call.Admissible → Holds book → (Holds (book.call call).2 ↔ Safe book call))
    {calls : List Call} (admissible : ∀ call ∈ calls, call.Admissible) :
    (∀ past, past <+: calls → Holds ((OrderBook.empty tradeCb clock).run past)) ↔
      ∀ past call, past ++ [call] <+: calls → Safe ((OrderBook.empty tradeCb clock).run past) call := by
  apply @always_iff _ _ (fun past => Holds ((OrderBook.empty tradeCb clock).run past))
    (fun past call => Safe ((OrderBook.empty tradeCb clock).run past) call) start
  intro past call inside holds
  have earlier : ∀ other ∈ past, other.Admissible := fun other member =>
    admissible other (inside.subset (List.mem_append_left _ member))
  obtain ⟨ledger, same, settled⟩ := settled_run tradeCb clock earlier
  rw [OrderBook.run_append]
  exact step same settled (admissible call (mem_of_past inside)) holds

end Runs

end OrderEngine
