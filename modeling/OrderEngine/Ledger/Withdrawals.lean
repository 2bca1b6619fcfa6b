import OrderEngine.Ledger.Replace

namespace OrderEngine

open Library

namespace Ledger

/-- Several orders are cancelled one after the other. -/
def withdrawAll (ledger : Ledger) (slots : List Ptr) : Ledger := slots.foldl withdraw ledger

/-- This is the quantity that some orders leave open on one level, as the level's total counts it. -/
def openOn (ledger : Ledger) (slots : List Ptr) (wing : Wing) (price : Int) : Quantity :=
  ((slots.filter fun slot => ledger.wing slot = wing ∧ ledger.price slot = price).map fun slot =>
    (ledger.data slot).remaining).sum

/-- The ledger has lost some orders and nothing else. The best prices follow from the queues. -/
structure Cleared (ledger : Ledger) (slots : List Ptr) (after : Ledger) : Prop where
  queue : ∀ wing price, after.queue wing price = (ledger.queue wing price).filter (· ∉ slots)
  total : ∀ wing price, after.total wing price = ledger.total wing price - ledger.openOn slots wing price
  orderMap : ∀ index, after.orderMap index =
    if ∃ slot ∈ slots, mapSlot (ledger.data slot).id = index then none else ledger.orderMap index
  free : after.free = slots.reverse ++ ledger.free

variable {ledger : Ledger} {slot : Ptr} {slots : List Ptr} {id other : OrderId}

/-- A cancelled order leaves its own queue and stands in no other one. -/
theorem Inv.withdraw_queue_apply (inv : ledger.Inv none) (linked : ledger.Linked slot) (wing : Wing) (price : Int) :
    (ledger.withdraw slot).queue wing price = (ledger.queue wing price).filter (· ≠ slot) := by
  rw [withdraw_queue, setCell_apply]
  split
  · next here =>
      obtain ⟨rfl, rfl⟩ := here
      rw [(inv.distinct _ _).erase_eq_filter]
      apply List.filter_congr
      intro slot' _
      rw [Bool.eq_iff_iff, bne_iff_ne, decide_eq_true_iff]
  · next elsewhere =>
      symm
      rw [List.filter_eq_self]
      intro slot' member
      have different : slot' ≠ slot := by
        rintro rfl
        exact elsewhere (inv.place_unique member linked)
      simpa using different

/-- An order of another identifier can still be found after a cancel. -/
theorem withdraw_findLive (found : ledger.findLive id = some slot) {slot' : Ptr}
    (foundOther : ledger.findLive other = some slot') (different : other ≠ id) :
    (ledger.withdraw slot).findLive other = some slot' := by
  obtain ⟨mapped, named, -⟩ := findLive_eq_some.mp found
  obtain ⟨mappedOther, namedOther, liveOther⟩ := findLive_eq_some.mp foundOther
  have apart : slot' ≠ slot := by
    rintro rfl
    exact different (namedOther.symm.trans named)
  have indices : mapSlot other ≠ mapSlot id := by
    intro equal
    rw [equal, mapped] at mappedOther
    exact apart (Option.some.inj mappedOther).symm
  have kept : (ledger.withdraw slot).data slot' = ledger.data slot' := by
    rw [withdraw_data, Function.update_of_ne apart]
  rw [findLive_eq_some, kept, withdraw_orderMap, named, Function.update_of_ne indices]
  exact ⟨mappedOther, namedOther, liveOther⟩

open scoped UInt64.CommRing in
/-- The orders that a cancel leaves are cancelled as before. -/
theorem Cleared.cons {after : Ledger} (inv : ledger.Inv none) (linked : ledger.Linked slot) (fresh : slot ∉ slots)
    (rest : (ledger.withdraw slot).Cleared slots after) : ledger.Cleared (slot :: slots) after := by
  have kept {slot' : Ptr} (inside : slot' ∈ slots) : (ledger.withdraw slot).data slot' = ledger.data slot' := by
    rw [withdraw_data, Function.update_of_ne]
    rintro rfl
    exact fresh inside
  constructor
  · intro wing price
    rw [rest.queue, inv.withdraw_queue_apply linked, List.filter_filter]
    apply List.filter_congr
    intro slot' _
    simp [Bool.and_comm]
  · intro wing price
    have open_ : (ledger.withdraw slot).openOn slots wing price = ledger.openOn slots wing price := by
      unfold openOn
      simp only [withdraw_wing, withdraw_price]
      congr 1
      apply List.map_congr_left
      intro slot' member
      rw [kept (List.mem_of_mem_filter member)]
    rw [rest.total, open_, withdraw_total, setCell_apply]
    unfold openOn
    rw [List.filter_cons]
    split
    · next here =>
        rw [if_pos (by simp [here]), List.map_cons, List.sum_cons, here.1, here.2]
        ring
    · next elsewhere =>
        have apart : ¬ (ledger.wing slot = wing ∧ ledger.price slot = price) :=
          fun here => elsewhere ⟨here.1.symm, here.2.symm⟩
        rw [if_neg (by simpa using apart)]
  · intro index
    have named {other : Ptr} : mapSlot ((ledger.withdraw slot).data other).id = mapSlot (ledger.data other).id :=
      congrArg mapSlot (withdraw_id other)
    rw [rest.orderMap, withdraw_orderMap, Function.update_apply]
    simp only [named, List.mem_cons, exists_eq_or_imp]
    by_cases first : mapSlot (ledger.data slot).id = index
    · simp [first]
    · rw [if_neg (Ne.symm first)]
      simp [first]
  · rw [rest.free, withdraw_free]
    simp

/-- Cancels take several linked orders off a settled ledger one by one. -/
theorem Settled.withdrawAll (settled : ledger.Settled) (distinct : slots.Nodup)
    (linked : ∀ slot ∈ slots, ledger.Linked slot) :
    (ledger.withdrawAll slots).Settled ∧ ledger.Cleared slots (ledger.withdrawAll slots) := by
  induction slots generalizing ledger with
  | nil =>
      refine ⟨settled, fun _ _ => ?_, fun _ _ => ?_, fun _ => ?_, rfl⟩
      · simp [withdrawAll]
      · exact (sub_zero _).symm
      · simp [withdrawAll]
  | cons slot slots ih =>
      obtain ⟨fresh, distinct⟩ := List.nodup_cons.mp distinct
      have first := linked slot List.mem_cons_self
      have rest : ∀ other ∈ slots, (ledger.withdraw slot).Linked other := by
        intro other member
        refine (withdraw_linked settled.toInv first).mpr ⟨linked other (List.mem_cons_of_mem _ member), ?_⟩
        rintro rfl
        exact fresh member
      obtain ⟨settledRest, cleared⟩ := ih (settled.withdraw first) distinct rest
      exact ⟨settledRest, cleared.cons settled.toInv first fresh⟩

section Reordered

variable {others : List Ptr} {after next : Ledger} (perm : slots.Perm others)
include perm

/-- The lost orders leave the same queues in whichever order they are listed. -/
theorem Cleared.queue_eq (cleared : ledger.Cleared slots after) (clearedNext : ledger.Cleared others next) (wing : Wing)
    (price : Int) : after.queue wing price = next.queue wing price := by
  rw [cleared.queue, clearedNext.queue]
  apply List.filter_congr
  intro slot _
  rw [decide_eq_decide, perm.mem_iff]

open scoped UInt64.CommRing in
theorem Cleared.total_eq (cleared : ledger.Cleared slots after) (clearedNext : ledger.Cleared others next) (wing : Wing)
    (price : Int) : after.total wing price = next.total wing price := by
  have open_ : ledger.openOn slots wing price = ledger.openOn others wing price :=
    ((perm.filter _).map _).sum_eq
  rw [cleared.total, clearedNext.total, open_]

theorem Cleared.orderMap_eq (cleared : ledger.Cleared slots after) (clearedNext : ledger.Cleared others next) :
    after.orderMap = next.orderMap := by
  funext index
  rw [cleared.orderMap, clearedNext.orderMap]
  simp only [perm.mem_iff]

theorem Cleared.free_perm (cleared : ledger.Cleared slots after) (clearedNext : ledger.Cleared others next) :
    after.free.Perm next.free := by
  rw [cleared.free, clearedNext.free]
  exact ((List.reverse_perm _).trans (perm.trans (List.reverse_perm _).symm)).append_right _

end Reordered

end Ledger

end OrderEngine
