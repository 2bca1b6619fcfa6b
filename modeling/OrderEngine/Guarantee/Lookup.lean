import OrderEngine.Ledger.Registry
import OrderEngine.Refinement.Arrival

namespace OrderEngine

open Library

/-- A cancel or a modify looks this identifier up. -/
def Call.target : Call → Option OrderId
  | .add _ => none
  | .cancel id => some id
  | .modify id _ => some id

/-- An add brings this identifier into the book. -/
def Call.added : Call → Option OrderId
  | .add msg => some msg.orderId
  | _ => none

namespace OrderBook

/-- A cancel or a modify finds an identifier exactly when an order with it is linked, and a cancel
removes that order alone. -/
structure Addressable (book : OrderBook) : Prop where
  cancels : ∀ id, (book.cancelOrder id).1 = true ↔
    ∃ slot, book.Linked slot ∧ (book.order slot).id = id
  removes : ∀ slot, book.Linked slot → ∀ wing price,
    (book.cancelOrder (book.order slot).id).2.queue wing price = (book.queue wing price).erase slot
  modifies : ∀ id newQty, (book.modifyOrder id newQty).1.isSome = true ↔
    ∃ slot, book.Linked slot ∧ (book.order slot).id = id

/-- An incoming message takes these resting orders completely. -/
def completed (book : OrderBook) (msg : OrderMessage) : List Ptr :=
  paid (fun slot => (book.remaining slot).toNat) msg.quantity.toNat (book.crossing msg)

/-- An add keeps every order addressable when each linked order of its residue is taken completely by
it and it is filled on arrival itself. -/
def LookupSafe (book : OrderBook) : Call → Prop
  | .add msg => book.orderPool.available = 0 ∨
      ∀ slot, book.Linked slot → mapSlot (book.order slot).id = mapSlot msg.orderId →
        slot ∈ book.completed msg ∧ msg.quantity.toNat ≤ book.volume (book.crossing msg)
  | _ => True

end OrderBook

namespace Ledger

variable {ledger next after : Ledger} {incoming slot : Ptr} {rest : List Ptr}

section Match

/-- A collision leaves the entry of its residue to the incoming order, and clears it with the
order that collides. -/
structure Colliding (ledger : Ledger) (incoming loser : Ptr) : Prop where
  residue : mapSlot (ledger.data loser).id = mapSlot (ledger.data incoming).id
  others : ∀ slot, ledger.Linked slot → slot ≠ loser →
    ledger.orderMap (mapSlot (ledger.data slot).id) = some slot
  overwritten : ledger.Linked loser →
    ledger.orderMap (mapSlot (ledger.data incoming).id) = some incoming
  cleared : ¬ ledger.Linked loser → ledger.orderMap (mapSlot (ledger.data incoming).id) = none

theorem MatchStep.colliding {loser : Ptr} (step : MatchStep incoming ledger next)
    (inv : ledger.Inv (some incoming)) (colliding : ledger.Colliding incoming loser) :
    next.Colliding incoming loser := by
  have id (slot : Ptr) := (step.same_order slot).1
  rcases step.completed_cases inv with ⟨resting, -, wasLinked, linked, map⟩ | ⟨-, linked, map⟩
  · have notIncoming : resting ≠ incoming := by
      intro equal
      subst equal
      exact (inv.arrived rfl).unlinked wasLinked
    have apart : resting ≠ loser →
        mapSlot (ledger.data incoming).id ≠ mapSlot (ledger.data resting).id := by
      intro different same
      have mine := colliding.others resting wasLinked different
      rw [← same] at mine
      by_cases loserLinked : ledger.Linked loser
      · rw [colliding.overwritten loserLinked] at mine
        exact notIncoming (Option.some.inj mine).symm
      · rw [colliding.cleared loserLinked] at mine
        exact absurd mine (by simp)
    exact {
      residue := by rw [id, id, colliding.residue]
      others := fun slot here different => by
        have mine := colliding.others slot ((linked slot).mp here).1 different
        rw [id, map, Function.update_of_ne, mine]
        intro same
        rw [same] at mine
        by_cases first : resting = loser
        · rw [first, colliding.residue, colliding.overwritten (first ▸ wasLinked)] at mine
          exact (inv.arrived rfl).unlinked (Option.some.inj mine ▸ ((linked slot).mp here).1)
        · rw [colliding.others resting wasLinked first] at mine
          exact ((linked slot).mp here).2 (Option.some.inj mine).symm
      overwritten := fun here => by
        have different : resting ≠ loser := fun same => ((linked loser).mp here).2 same.symm
        rw [id, map, Function.update_of_ne (apart different)]
        exact colliding.overwritten ((linked loser).mp here).1
      cleared := fun gone => by
        rw [id, map]
        by_cases first : resting = loser
        · rw [first, colliding.residue, Function.update_self]
        · rw [Function.update_of_ne (apart first)]
          exact colliding.cleared fun here => gone ((linked loser).mpr ⟨here, fun same => first same.symm⟩) }
  · exact {
      residue := by rw [id, id, colliding.residue]
      others := fun slot here different => by
        rw [id, map]
        exact colliding.others slot ((linked slot).mp here) different
      overwritten := fun here => by
        rw [id, map]
        exact colliding.overwritten ((linked loser).mp here)
      cleared := fun gone => by
        rw [id, map]
        exact colliding.cleared fun here => gone ((linked loser).mpr here) }

theorem MatchRun.colliding {loser : Ptr} (run : MatchRun incoming ledger after)
    (inv : ledger.Inv (some incoming)) (colliding : ledger.Colliding incoming loser) :
    after.Colliding incoming loser := by
  induction run with
  | refl => exact colliding
  | tail earlier step ih => exact step.colliding (MatchRun.inv earlier inv) ih

end Match

section Add

variable {msg : OrderMessage} (settled : ledger.Settled) (inside : InTicks msg.price)
  (positive : 0 < msg.quantity) (free : ledger.free = slot :: rest)
  (run : MatchRun slot (ledger.enroll slot rest msg) after) (registered : ledger.Registered)

include settled inside positive free run registered

theorem colliding_after_match {loser : Ptr} (linked : ledger.Linked loser)
    (collides : mapSlot (ledger.data loser).id = mapSlot msg.orderId) :
    after.Colliding slot loser := by
  have slotFree : slot ∈ ledger.free := by simp [free]
  have fresh {other : Ptr} (linked : ledger.Linked other) : other ≠ slot := by
    intro equal
    subst equal
    exact settled.toInv.fresh slotFree linked
  refine run.colliding (settled.toInv.enroll free inside positive) {
    residue := ?_
    others := fun other here different => ?_
    overwritten := fun _ => ?_
    cleared := fun gone => absurd ((settled.toInv.enroll_linked slotFree rest msg).mpr linked) gone }
  · rw [enroll_data_other _ _ _ (fresh linked), enroll_data_self, collides]
  · have was := (settled.toInv.enroll_linked slotFree rest msg).mp here
    rw [enroll_data_other _ _ _ (fresh was), enroll_orderMap, if_neg]
    · exact registered other was
    · intro same
      exact different (registered.eq_of_mapSlot_eq was linked (same.trans collides.symm))
  · rw [enroll_orderMap, enroll_data_self, if_pos rfl]

end Add

/-- An add keeps every order registered when the orders of its residue go away with it. -/
theorem AddRun.registered_iff {msg : OrderMessage} {placed : Option Ptr}
    (run : ledger.AddRun msg placed after) (settled : ledger.Settled) (inside : InTicks msg.price)
    (positive : 0 < msg.quantity) (registered : ledger.Registered) : after.Registered ↔
      ledger.free = [] ∨ ∀ other, ledger.Linked other →
        mapSlot (ledger.data other).id = mapSlot msg.orderId →
        other ∈ paid ledger.left msg.quantity.toNat (ledger.crossing msg.side.wing.opposite msg.price) ∧
          msg.quantity.toNat ≤ ledger.volume (ledger.crossing msg.side.wing.opposite msg.price) := by
  by_cases collision : ∃ loser, ledger.Linked loser ∧ mapSlot (ledger.data loser).id = mapSlot msg.orderId
  · obtain ⟨loser, linked, collides⟩ := collision
    cases run with
    | full free => exact iff_of_true registered (.inl free)
    | @filled slot rest after free run stopped tight done =>
        have inv := settled.toInv.enroll free inside positive
        have enough := (arrival_filled_iff settled free inside positive run stopped).mp done
        have unlinked := ((run.inv inv).arrived rfl).unlinked
        have colliding := colliding_after_match settled inside positive free run registered linked collides
        have gone : after.Linked loser ↔ _ := arrival_linked_iff settled free inside positive run stopped
        rw [free]
        simp only [reduceCtorEq, false_or]
        constructor
        · intro registeredAfter other otherLinked otherCollides
          obtain rfl := registered.eq_of_mapSlot_eq otherLinked linked (otherCollides.trans collides.symm)
          constructor
          · by_contra stays
            have here := gone.mpr ⟨linked, stays⟩
            have mine := registeredAfter other here
            rw [colliding.residue, colliding.overwritten here] at mine
            exact unlinked (Option.some.inj mine ▸ here)
          · exact enough
        · intro safe other here
          apply colliding.others other here
          intro equal
          subst equal
          exact (gone.mp here).2 (safe other linked collides).1
    | @rested slot rest after free run stopped tight left =>
        have inv := settled.toInv.enroll free inside positive
        have short := (arrival_filled_iff settled free inside positive run stopped).not.mp left
        have unlinked := ((run.inv inv).arrived rfl).unlinked
        have colliding := colliding_after_match settled inside positive free run registered linked collides
        rw [free]
        simp only [reduceCtorEq, false_or]
        refine iff_of_false (fun registeredAfter => ?_) fun safe => short (safe loser linked collides).2
        unfold Registered at registeredAfter
        simp only [rest_linked, rest_data, rest_orderMap] at registeredAfter
        by_cases stays : after.Linked loser
        · have mine := registeredAfter loser (.inl stays)
          rw [colliding.residue, colliding.overwritten stays] at mine
          exact unlinked (Option.some.inj mine ▸ stays)
        · have mine := registeredAfter slot (.inr rfl)
          rw [colliding.cleared stays] at mine
          exact absurd mine (by simp)
  · have apart : ∀ other, ledger.Linked other →
        mapSlot (ledger.data other).id ≠ mapSlot msg.orderId :=
      fun other linked same => collision ⟨other, linked, same⟩
    refine iff_of_true (registered.add settled inside positive run apart) (.inr ?_)
    exact fun other linked same => absurd same (apart other linked)

/-- Only an add can take an order's entry away from it. -/
theorem CallRun.registered_iff {call : Call} {answer : Bool} (run : ledger.CallRun call answer after)
    (settled : ledger.Settled) (admissible : call.Admissible) (registered : ledger.Registered) :
    after.Registered ↔ match call with
      | .add msg => ledger.free = [] ∨ ∀ other, ledger.Linked other →
          mapSlot (ledger.data other).id = mapSlot msg.orderId →
          other ∈ paid ledger.left msg.quantity.toNat
              (ledger.crossing msg.side.wing.opposite msg.price) ∧
            msg.quantity.toNat ≤ ledger.volume (ledger.crossing msg.side.wing.opposite msg.price)
      | _ => True := by
  cases run with
  | add run => exact run.registered_iff settled admissible.2.1 admissible.2.2 registered
  | cancelMissing missing => exact iff_of_true registered trivial
  | cancel found =>
      have linked := (settled.toInv.found_linked found).1
      exact iff_of_true (registered.withdraw settled.toInv linked) trivial
  | modifyMissing missing => exact iff_of_true registered trivial
  | shrink found fits => exact iff_of_true (registered.shrink _) trivial
  | replace found larger run =>
      obtain ⟨linked, named⟩ := settled.toInv.found_linked found
      obtain ⟨-, inside, positive⟩ := settled.replacement_admissible linked larger
      refine iff_of_true ?_ trivial
      refine (run.registered_iff (settled.withdraw linked).ticked inside positive
        (registered.withdraw settled.toInv linked).ticked).mpr (.inr fun other here same => ?_)
      obtain ⟨was, different⟩ := (withdraw_linked settled.toInv linked).mp (ticked_linked.mp here)
      rw [ticked_data, withdraw_id, Ledger.replacement, ← named] at same
      exact absurd (registered.eq_of_mapSlot_eq was linked same) different

/-- A cancel or a modify succeeds exactly when the lookup of its identifier does. -/
theorem CallRun.answer_iff {call : Call} {answer : Bool} {id : OrderId}
    (run : ledger.CallRun call answer after) (target : call.target = some id) :
    answer = true ↔ ∃ slot, ledger.findLive id = some slot := by
  cases run with
  | add run => exact absurd target (by simp [Call.target])
  | cancelMissing missing =>
      obtain rfl := Option.some.inj target
      simp [missing]
  | cancel found =>
      obtain rfl := Option.some.inj target
      simp [found]
  | modifyMissing missing =>
      obtain rfl := Option.some.inj target
      simp [missing]
  | shrink found fits =>
      obtain rfl := Option.some.inj target
      simp [found]
  | replace found larger run =>
      obtain rfl := Option.some.inj target
      cases run with
      | full free =>
          rw [ticked_free, withdraw_free] at free
          exact absurd free (List.cons_ne_nil _ _)
      | filled free run stopped tight done => simp [found]
      | rested free run stopped tight left => simp [found]

end Ledger

namespace Represents

variable {book : OrderBook} {ledger : Ledger}

theorem answer_iff (same : Represents book ledger) (inv : ledger.Inv none) {call : Call} {id : OrderId}
    (target : call.target = some id) :
    (book.call call).1 = true ↔ ∃ slot, ledger.findLive id = some slot := by
  have sound : call.Sound := by
    cases call with
    | add msg => exact absurd target (by simp [Call.target])
    | cancel id => trivial
    | modify id newQty => trivial
  obtain ⟨after, run, -⟩ := same.call inv sound
  exact run.answer_iff target

/-- A cancel that finds an order leaves the other orders of every level in their places. -/
theorem cancel_queue (same : Represents book ledger) (inv : ledger.Inv none) {slot : Ptr} {id : OrderId}
    (found : ledger.findLive id = some slot) (wing : Wing) (price : Int) :
    (book.cancelOrder id).2.queue wing price = (book.queue wing price).erase slot := by
  obtain ⟨linked, named⟩ := inv.found_linked found
  rw [(same.cancel inv found linked named).2.queue_eq (inv.withdraw linked), same.queue_eq inv,
    Ledger.withdraw_queue, setCell_apply]
  split
  · next here => rw [here.1, here.2]
  · next elsewhere =>
      rw [List.erase_of_not_mem]
      exact fun member => elsewhere (inv.place_unique member linked)

/-- Every order is addressable exactly when every order is registered. -/
theorem addressable_iff (same : Represents book ledger) (settled : ledger.Settled) :
    book.Addressable ↔ ledger.Registered := by
  have inv := settled.toInv
  have cancels (id : OrderId) : (book.cancelOrder id).1 = true ↔ ∃ slot, ledger.findLive id = some slot :=
    same.answer_iff inv (rfl : (Call.cancel id).target = some id)
  have modifies (id : OrderId) (newQty : Quantity) : (book.modifyOrder id newQty).1.isSome = true ↔
      ∃ slot, ledger.findLive id = some slot :=
    same.answer_iff inv (rfl : (Call.modify id newQty).target = some id)
  constructor
  · intro addressable slot linked
    have here := (same.linked_iff inv slot).mpr linked
    obtain ⟨other, found⟩ := (cancels _).mp ((addressable.cancels _).mpr ⟨slot, here, rfl⟩)
    have removed := addressable.removes slot here (ledger.wing slot) (ledger.price slot)
    rw [same.cancel_queue inv found, same.queue_eq inv] at removed
    have equal : slot = other := by
      by_contra different
      have stays := (List.mem_erase_of_ne different).mpr linked
      rw [removed, (inv.distinct _ _).mem_erase_iff] at stays
      exact stays.1 rfl
    rw [← same.id_eq, equal, ← equal]
    rw [← equal] at found
    exact (Ledger.findLive_eq_some.mp found).1
  · intro registered
    have resting (id : OrderId) : (∃ slot, ledger.findLive id = some slot) ↔
        ∃ slot, book.Linked slot ∧ (book.order slot).id = id := by
      apply exists_congr
      intro slot
      rw [registered.findLive_iff inv, same.linked_iff inv, same.id_eq]
    exact {
      cancels := fun id => (cancels id).trans (resting id)
      removes := fun slot linked wing price => by
        rw [same.linked_iff inv] at linked
        exact same.cancel_queue inv ((registered.findLive_iff inv).mpr ⟨linked, (same.id_eq slot).symm⟩) wing price
      modifies := fun id newQty => (modifies id newQty).trans (resting id) }

end Represents

/-- Every resting order stays addressable throughout a run exactly when each add of the run takes the
orders of its residue away with it. -/
theorem lookup_exact_iff (tradeCb : Bool) (clock : Nat → Nanos) (calls : List Call)
    (admissible : ∀ call ∈ calls, call.Admissible) :
    (∀ past, past <+: calls → ((OrderBook.empty tradeCb clock).run past).Addressable) ↔
      ∀ past call, past ++ [call] <+: calls →
        ((OrderBook.empty tradeCb clock).run past).LookupSafe call := by
  refine holds_throughout_iff ?_ ?_ admissible
  · exact ((Represents.empty tradeCb clock).addressable_iff Ledger.empty_settled).mpr
      fun _ linked => absurd linked List.not_mem_nil
  · intro book ledger call same settled admissible addressable
    obtain ⟨after, run, sameAfter, -⟩ := same.call settled.toInv admissible.sound
    rw [same.addressable_iff settled] at addressable
    rw [sameAfter.addressable_iff (settled.call admissible run),
      run.registered_iff settled admissible addressable]
    cases call with
    | add msg =>
        have cost : (fun slot => (book.remaining slot).toNat) = ledger.left := by
          funext slot
          rw [same.remaining_eq]
          rfl
        simp only [OrderBook.LookupSafe, OrderBook.completed, cost, same.id_eq, same.available_eq_zero,
          same.crossing_eq settled.toInv, same.volume_eq, same.linked_iff settled.toInv]
    | cancel id => exact Iff.rfl
    | modify id newQty => exact Iff.rfl

theorem lookup_exact_iff_of_distinct_residues :
    let calls := [Call.add (.buy 1 9 5), .add (.buy 2 9 5), .modify 1 7, .cancel 2]
    (∀ past, past <+: calls → ((OrderBook.empty true fun _ => 1).run past).Addressable) ↔
      ∀ past call, past ++ [call] <+: calls →
        ((OrderBook.empty true fun _ => 1).run past).LookupSafe call :=
  lookup_exact_iff true (fun _ => 1) _ (by decide)

/-- A second order with the same residue takes the entry of the first, which then rests unreachable. -/
theorem lookup_lost_after_collision :
    let calls := [Call.add (.buy 1 9 5), .add (.buy 1048577 9 5)]
    let book := (OrderBook.empty true fun _ => 1).run calls
    (∀ call ∈ calls, call.Admissible) ∧ (calls.filterMap Call.added).Nodup ∧
      (∃ slot, book.Linked slot ∧ (book.order slot).id = 1) ∧ (book.cancelOrder 1).1 = false ∧
      ¬ book.Addressable := by
  intro calls book
  have linked : book.Linked 0 := ⟨.bid, 9, by decide +kernel⟩
  have named : (book.order 0).id = 1 := by decide +kernel
  have missed : (book.cancelOrder 1).1 = false := by decide +kernel
  refine ⟨by decide, by decide, ⟨0, linked, named⟩, missed, fun addressable => ?_⟩
  rw [(addressable.cancels 1).mpr ⟨0, linked, named⟩] at missed
  exact absurd missed (by decide)

end OrderEngine
