import OrderEngine.Construction.MemoryPool
import OrderEngine.Library.History

namespace OrderEngine

open Library

theorem TypeLayout.slotSize_pos (layout : TypeLayout) : 0 < layout.slotSize := by
  have aligned : 0 < layout.kSlotAlign := by
    unfold kSlotAlign kCacheLine
    split <;> omega
  have sized := layout.sized
  apply Nat.mul_pos _ aligned
  apply Nat.div_pos _ aligned
  omega

/-- The pool's storage holds these slots. -/
def slotsOf (capacity slotSize : Nat) : List Ptr := (List.range capacity).map (slotAddress slotSize)

section Storage

variable {capacity slotSize : Nat}

theorem mem_slotsOf {slot : Ptr} :
    slot ∈ slotsOf capacity slotSize ↔ ∃ index < capacity, slot = slotAddress slotSize index := by
  simp [slotsOf, eq_comm]

/-- Two slots of positive size do not lie at one address. -/
theorem slotsOf_nodup (sized : 0 < slotSize) : (slotsOf capacity slotSize).Nodup := by
  apply List.nodup_range.map
  intro first second equal
  have nonzero : (slotSize : Int) ≠ 0 := by omega
  exact Int.ofNat_inj.mp (mul_left_cancel₀ nonzero equal)

end Storage

namespace MemoryPool

variable {T : Type} {capacity slotSize : Nat}

/-- The first slot is on top of the stack. -/
theorem init_free (capacity slotSize : Nat) (raw : T) :
    (init capacity slotSize raw).free = slotsOf capacity slotSize := by
  apply List.ext_getElem
  · simp [free, init, slotsOf]
  · intro index inside _
    have bound : index < capacity := by simpa [free, init] using inside
    have place : capacity - 1 - (capacity - 1 - index) = index := by omega
    simp [free, init, stack, slotsOf, place]

theorem release_free (pool : MemoryPool T) (slot : Ptr) : (pool.release slot).free = slot :: pool.free :=
  stack_push _ _ _

/-- A call to `acquire` finds the pool exhausted, or it takes the top of the stack. -/
theorem acquire_cases (pool : MemoryPool T) :
    pool.free = [] ∧ pool.acquire = (none, pool) ∨
      ∃ slot, pool.free = slot :: pool.acquire.2.free ∧ pool.acquire.1 = some slot := by
  by_cases exhausted : pool.freeTop = 0
  · left
    exact ⟨(stack_eq_nil _ _).mpr exhausted, if_pos exhausted⟩
  · right
    obtain ⟨top, height⟩ := Nat.exists_eq_succ_of_ne_zero exhausted
    refine ⟨pool.freeStack top, ?_, ?_⟩
    · simp [free, acquire, height]
    · simp [acquire, height]

/-- The constructor writes a slot and leaves the stack as `acquire` does. -/
theorem construct_eq (pool : MemoryPool T) (value : T) :
    (pool.construct value).1 = pool.acquire.1 ∧ (pool.construct value).2.free = pool.acquire.2.free := by
  unfold construct
  rcases pool.acquire with ⟨_ | slot, after⟩
  · exact ⟨rfl, rfl⟩
  · exact ⟨rfl, rfl⟩

end MemoryPool

namespace Lending

variable {T : Type} {capacity slotSize : Nat} {lending : Lending T} {call : PoolCall T} {slot : Ptr}

/-- Each slot is free or outstanding, and only once. -/
def Shared (capacity slotSize : Nat) (lending : Lending T) : Prop :=
  (lending.pool.free ++ lending.outstanding).Perm (slotsOf capacity slotSize)

theorem Shared.init (capacity slotSize : Nat) (raw : T) :
    (Lending.init capacity slotSize raw).Shared capacity slotSize := by
  unfold Shared Lending.init
  rw [MemoryPool.init_free, List.append_nil]

/-- A slot that is taken moves from the stack to the client. -/
theorem Shared.taken (shared : lending.Shared capacity slotSize) (pool : MemoryPool T)
    (same : pool.free = lending.pool.acquire.2.free) :
    (⟨pool, lending.pool.acquire.1.toList ++ lending.outstanding⟩ : Lending T).Shared capacity slotSize := by
  unfold Shared at shared ⊢
  rcases lending.pool.acquire_cases with ⟨_, refused⟩ | ⟨slot, top, served⟩
  · rw [refused] at same ⊢
    simp only [same]
    exact shared
  · rw [top] at shared
    simp only [same, served, Option.toList_some, List.singleton_append]
    exact List.perm_middle.trans shared

/-- A slot that is given back moves from the client to the stack. -/
theorem Shared.returned (shared : lending.Shared capacity slotSize) (held : slot ∈ lending.outstanding) :
    (⟨lending.pool.release slot, lending.outstanding.erase slot⟩ : Lending T).Shared capacity slotSize := by
  unfold Shared at shared ⊢
  simp only [MemoryPool.release_free]
  have moved : (slot :: lending.pool.free ++ lending.outstanding.erase slot).Perm
      (lending.pool.free ++ slot :: lending.outstanding.erase slot) := List.perm_middle.symm
  have joined : (lending.pool.free ++ slot :: lending.outstanding.erase slot).Perm
      (lending.pool.free ++ lending.outstanding) := (List.perm_cons_erase held).symm.append_left _
  exact (moved.trans joined).trans shared

theorem Shared.step (shared : lending.Shared capacity slotSize) (proper : lending.Proper call) :
    (lending.step call).Shared capacity slotSize := by
  cases call with
  | acquire => exact shared.taken _ rfl
  | construct value =>
      have same := lending.pool.construct_eq value
      have taken := shared.taken (lending.pool.construct value).2 same.2
      rw [← same.1] at taken
      exact taken
  | release slot => exact shared.returned proper
  | destroy slot => exact shared.returned proper

theorem Shared.run (raw : T) {calls : List (PoolCall T)}
    (proper : ∀ past call, past ++ [call] <+: calls →
      ((Lending.init capacity slotSize raw).run past).Proper call) :
    ((Lending.init capacity slotSize raw).run calls).Shared capacity slotSize := by
  have steps : ∀ past call, past ++ [call] <+: calls →
      ((Lending.init capacity slotSize raw).run past).Shared capacity slotSize →
        ((Lending.init capacity slotSize raw).run (past ++ [call])).Shared capacity slotSize := by
    intro past call inside shared
    rw [run_append]
    exact shared.step (proper past call inside)
  exact always_of_step (Shared.init capacity slotSize raw) steps List.prefix_rfl

/-- What the client holds and what the stack shows are the two parts of the storage. -/
structure Safe (capacity slotSize : Nat) (lending : Lending T) : Prop where
  distinct : lending.outstanding.Nodup
  slots : ∀ slot ∈ lending.outstanding, ∃ index < capacity, slot = slotAddress slotSize index
  freeDistinct : lending.pool.free.Nodup
  free : ∀ slot, slot ∈ lending.pool.free ↔
    (∃ index < capacity, slot = slotAddress slotSize index) ∧ slot ∉ lending.outstanding
  count : lending.pool.available + lending.outstanding.length = capacity
  exhausted : lending.pool.acquire.1 = none ↔ lending.outstanding.length = capacity
  constructed : ∀ value, (lending.pool.construct value).1 = lending.pool.acquire.1
  fresh : ∀ slot, lending.pool.acquire.1 = some slot → slot ∉ lending.outstanding

theorem Shared.safe (shared : lending.Shared capacity slotSize) (sized : 0 < slotSize) :
    lending.Safe capacity slotSize := by
  have once : (lending.pool.free ++ lending.outstanding).Nodup :=
    shared.nodup_iff.mpr (slotsOf_nodup sized)
  obtain ⟨freeDistinct, distinct, apart⟩ := List.nodup_append.mp once
  have split : ∀ slot, slot ∈ lending.pool.free ∨ slot ∈ lending.outstanding ↔
      ∃ index < capacity, slot = slotAddress slotSize index := by
    intro slot
    rw [← List.mem_append, ← mem_slotsOf]
    exact shared.mem_iff
  have count : lending.pool.available + lending.outstanding.length = capacity := by
    have lengths := shared.length_eq
    simpa [slotsOf, MemoryPool.free, MemoryPool.available] using lengths
  have onTop : ∀ slot, lending.pool.acquire.1 = some slot → slot ∈ lending.pool.free := by
    intro slot served
    rcases lending.pool.acquire_cases with ⟨_, refused⟩ | ⟨first, top, first_served⟩
    · rw [refused] at served
      exact absurd served.symm (Option.some_ne_none slot)
    · rw [first_served] at served
      rw [top, Option.some.inj served]
      exact List.mem_cons_self
  constructor
  · exact distinct
  · intro slot held
    exact (split slot).mp (.inr held)
  · exact freeDistinct
  · intro slot
    constructor
    · intro free
      exact ⟨(split slot).mp (.inl free), fun held => apart slot free slot held rfl⟩
    · rintro ⟨inside, notHeld⟩
      exact ((split slot).mpr inside).resolve_right notHeld
  · exact count
  · unfold MemoryPool.available at count
    unfold MemoryPool.acquire
    split
    · next exhausted =>
        simp only [true_iff]
        omega
    · next remaining =>
        simp only [Option.some_ne_none, false_iff]
        omega
  · intro value
    exact (lending.pool.construct_eq value).1
  · intro slot served held
    exact apart slot (onTop slot served) slot held rfl

/-- A client that gives back only what it holds is never given a slot that it holds. -/
theorem never_lends_twice (capacity : Nat) (layout : TypeLayout) (raw : T) (calls : List (PoolCall T))
    (proper : ∀ past call, past ++ [call] <+: calls →
      ((init capacity layout.slotSize raw).run past).Proper call) :
    ((init capacity layout.slotSize raw).run calls).Safe capacity layout.slotSize :=
  (Shared.run raw proper).safe layout.slotSize_pos

/-- A value of this layout fills one cache line and a part of a second one. -/
def wideLayout : TypeLayout := ⟨80, 8, by decide⟩

/-- The first slot comes back while the second one is held, and it is served again. -/
def reuse : Lending Nat :=
  (init 2 wideLayout.slotSize 0).run [.acquire, .construct 5, .destroy 0, .acquire]

theorem never_lends_twice_reuse : reuse.outstanding = [0, 128] ∧ reuse.Safe 2 wideLayout.slotSize := by
  constructor
  · decide
  · apply never_lends_twice 2 wideLayout
    refine forall_past_cons trivial (forall_past_cons trivial (forall_past_cons ?_ (forall_past_cons trivial
      forall_past_nil)))
    show (0 : Ptr) ∈ List.cons _ _
    decide

end Lending

end OrderEngine
