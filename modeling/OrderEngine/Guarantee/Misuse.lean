import OrderEngine.Guarantee.Pool

namespace OrderEngine

open Library

namespace Lending

variable {T : Type} {capacity slotSize : Nat} {lending : Lending T} {call : PoolCall T} {ptr : Ptr}

/-- A pointer that is given back is the start of a slot that the client holds. Afterwards no slot is stacked
twice, and the client never holds a slot twice however many it acquires. -/
def Caught (capacity slotSize : Nat) (lending : Lending T) (call : PoolCall T) : Prop :=
  match call with
  | .release ptr | .destroy ptr =>
    ptr ∈ lending.outstanding ∧ (∃ index < capacity, ptr = slotAddress slotSize index) ∧
      (lending.step call).pool.free.Nodup ∧
        ∀ count, ((lending.step call).run (List.replicate count .acquire)).outstanding.Nodup
  | _ => True

/-- A pointer that is given back lies a whole number of slots behind the first one and is not stacked already. -/
def Returnable (slotSize : Nat) (lending : Lending T) : PoolCall T → Prop
  | .release ptr | .destroy ptr => (slotSize : Int) ∣ ptr ∧ ptr ∉ lending.pool.free
  | _ => True

theorem Shared.acquires (shared : lending.Shared capacity slotSize) (count : Nat) :
    (lending.run (List.replicate count .acquire)).Shared capacity slotSize := by
  induction count with
  | zero => exact shared
  | succ count ih =>
      rw [List.replicate_succ', run_append]
      exact ih.step trivial

/-- While each slot is free or held, the asserts let through what the client holds and two more kinds of
pointers: into a slot, and to a free slot. -/
theorem Shared.held_iff (shared : lending.Shared capacity slotSize) (sized : 0 < slotSize)
    (checked : lending.pool.releaseChecks capacity slotSize (some ptr) = true) :
    ptr ∈ lending.outstanding ↔ (slotSize : Int) ∣ ptr ∧ ptr ∉ lending.pool.free := by
  have safe := shared.safe sized
  simp only [MemoryPool.releaseChecks, MemoryPool.owns, Bool.and_eq_true, decide_eq_true_eq] at checked
  obtain ⟨-, low, high⟩ := checked
  constructor
  · intro held
    obtain ⟨index, -, place⟩ := safe.slots ptr held
    exact ⟨⟨index, place⟩, fun free => ((safe.free ptr).mp free).2 held⟩
  · rintro ⟨⟨index, place⟩, notFree⟩
    subst place
    have positive : (0 : Int) < slotSize := by exact_mod_cast sized
    have first : 0 ≤ index := nonneg_of_mul_nonneg_right low positive
    have last : index < capacity := lt_of_mul_lt_mul_left high positive.le
    have start : ∃ place < capacity, (slotSize : Int) * index = slotAddress slotSize place := by
      refine ⟨index.toNat, by omega, ?_⟩
      rw [slotAddress, Int.toNat_of_nonneg first]
    by_contra notHeld
    exact notFree ((safe.free _).mpr ⟨start, notHeld⟩)

/-- The asserts catch a call exactly when its pointer may come back. -/
theorem Shared.proper_iff (shared : lending.Shared capacity slotSize) (sized : 0 < slotSize)
    (checked : lending.Checked capacity slotSize call) : lending.Proper call ↔ lending.Returnable slotSize call := by
  cases call with
  | acquire => exact Iff.rfl
  | construct value => exact Iff.rfl
  | release ptr => exact shared.held_iff sized checked
  | destroy ptr => exact shared.held_iff sized checked

theorem Shared.caught (shared : lending.Shared capacity slotSize) (sized : 0 < slotSize)
    (proper : lending.Proper call) : lending.Caught capacity slotSize call := by
  have after := shared.step proper
  have later (count : Nat) : ((lending.step call).run (List.replicate count .acquire)).outstanding.Nodup :=
    ((after.acquires count).safe sized).distinct
  cases call with
  | acquire => trivial
  | construct value => trivial
  | release ptr => exact ⟨proper, (shared.safe sized).slots ptr proper, (after.safe sized).freeDistinct, later⟩
  | destroy ptr => exact ⟨proper, (shared.safe sized).slots ptr proper, (after.safe sized).freeDistinct, later⟩

theorem Caught.proper (caught : lending.Caught capacity slotSize call) : lending.Proper call := by
  cases call with
  | acquire => trivial
  | construct value => trivial
  | release ptr => exact caught.1
  | destroy ptr => exact caught.1

/-- In a run whose pointers all pass the asserts, the asserts catch every bad release exactly when no release
gives back a pointer into a slot or a pointer to a free slot. -/
theorem release_guard_iff (capacity : Nat) (layout : TypeLayout) (raw : T) (calls : List (PoolCall T))
    (checked : ∀ past call, past ++ [call] <+: calls →
      ((init capacity layout.slotSize raw).run past).Checked capacity layout.slotSize call) :
    (∀ past call, past ++ [call] <+: calls →
        ((init capacity layout.slotSize raw).run past).Caught capacity layout.slotSize call) ↔
      ∀ past call, past ++ [call] <+: calls →
        ((init capacity layout.slotSize raw).run past).Returnable layout.slotSize call := by
  have sized := layout.slotSize_pos
  constructor
  · intro caught past call inside
    have earlier : past <+: calls := (List.prefix_append past [call]).trans inside
    have shared := Shared.run raw fun before other within => (caught before other (within.trans earlier)).proper
    exact (shared.proper_iff sized (checked past call inside)).mp (caught past call inside).proper
  · intro returnable past call inside
    have earlier : past <+: calls := (List.prefix_append past [call]).trans inside
    have shared : ((init capacity layout.slotSize raw).run past).Shared capacity layout.slotSize := by
      refine @always_of_step _ _ (fun past => ((init capacity layout.slotSize raw).run past).Shared capacity
        layout.slotSize) (Shared.init capacity layout.slotSize raw) ?_ past earlier
      intro before other within already
      rw [run_append]
      exact already.step ((already.proper_iff sized (checked before other within)).mpr (returnable before other within))
    exact shared.caught sized
      ((shared.proper_iff sized (checked past call inside)).mpr (returnable past call inside))

/-- The slot that comes back while the other one is held is stacked once. -/
theorem release_guard_iff_reuse :
    let start : Lending Nat := init 2 wideLayout.slotSize 0
    let calls : List (PoolCall Nat) := [.acquire, .acquire, .release 0, .acquire]
    (∀ past call, past ++ [call] <+: calls → (start.run past).Caught 2 wideLayout.slotSize call) ↔
      ∀ past call, past ++ [call] <+: calls → (start.run past).Returnable wideLayout.slotSize call := by
  intro start calls
  have third : (start.run [.acquire, .acquire]).Checked 2 wideLayout.slotSize (.release 0) := by decide
  refine release_guard_iff 2 wideLayout 0 calls ?_
  refine forall_past_cons trivial (forall_past_cons trivial (forall_past_cons third ?_))
  exact forall_past_cons trivial forall_past_nil

/-- A slot is given back twice while the other one is held, and both later calls to `acquire` return it. A pointer
into a slot is stacked too. -/
theorem second_release_passes :
    let start : Lending Nat := init 2 wideLayout.slotSize 0
    let released := start.run [.acquire, .acquire, .release 0]
    let held := start.run [.acquire]
    (released.Checked 2 wideLayout.slotSize (.release 0) ∧ ¬ released.Caught 2 wideLayout.slotSize (.release 0) ∧
      (released.run [.release 0, .acquire, .acquire]).outstanding = [0, 0, 128]) ∧
      held.Checked 2 wideLayout.slotSize (.release 8) ∧ ¬ held.Caught 2 wideLayout.slotSize (.release 8) ∧
        (held.run [.release 8, .acquire]).outstanding = [8, 0] := by
  intro start released held
  refine ⟨⟨by decide, ?_, by decide⟩, by decide, ?_, by decide⟩
  · rintro ⟨inside, -⟩
    exact absurd inside (by decide)
  · rintro ⟨inside, -⟩
    exact absurd inside (by decide)

end Lending

end OrderEngine
