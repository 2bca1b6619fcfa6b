import OrderEngine.Ledger.Outcome

namespace OrderEngine

namespace Ledger

/-- Every linked order stands in the map under its own residue. -/
def Registered (ledger : Ledger) : Prop :=
  ∀ slot, ledger.Linked slot → ledger.orderMap (mapSlot (ledger.data slot).id) = some slot

variable {ledger after : Ledger} {incoming slot other : Ptr} {rest : List Ptr}

theorem Registered.eq_of_mapSlot_eq (registered : ledger.Registered) (first : ledger.Linked slot)
    (second : ledger.Linked other)
    (same : mapSlot (ledger.data slot).id = mapSlot (ledger.data other).id) : slot = other := by
  have here := registered slot first
  rw [same, registered other second] at here
  exact (Option.some.inj here).symm

theorem Registered.ticked (registered : ledger.Registered) : ledger.ticked.Registered :=
  fun slot linked => registered slot linked

/-- A lookup finds every registered order, and nothing else. -/
theorem Registered.findLive_iff (registered : ledger.Registered) (inv : ledger.Inv none) {id : OrderId} :
    ledger.findLive id = some slot ↔ ledger.Linked slot ∧ (ledger.data slot).id = id := by
  constructor
  · exact inv.found_linked
  · rintro ⟨linked, rfl⟩
    exact findLive_eq_some.mpr ⟨registered slot linked, rfl, inv.live linked⟩

/-- The match keeps the incoming order and every linked order registered. -/
theorem MatchRun.registered (run : MatchRun incoming ledger after) (inv : ledger.Inv (some incoming))
    (registered : ∀ slot, ledger.Linked slot ∨ slot = incoming →
      ledger.orderMap (mapSlot (ledger.data slot).id) = some slot) :
    ∀ slot, after.Linked slot ∨ slot = incoming →
      after.orderMap (mapSlot (after.data slot).id) = some slot := by
  induction run with
  | refl => exact registered
  | @tail middle next earlier step ih =>
      have invMiddle := MatchRun.inv earlier inv
      intro slot place
      rw [(step.same_order slot).1]
      rcases step.completed_cases invMiddle with ⟨resting, -, wasLinked, linked, map⟩ | ⟨-, linked, map⟩
      · have different : slot ≠ resting := by
          rcases place with here | rfl
          · exact ((linked slot).mp here).2
          · intro equal
            subst equal
            exact (invMiddle.arrived rfl).unlinked wasLinked
        have mine := ih slot (place.imp_left fun here => ((linked slot).mp here).1)
        have theirs := ih resting (.inl wasLinked)
        rw [map, Function.update_of_ne, mine]
        intro same
        rw [same, theirs] at mine
        exact different (Option.some.inj mine).symm
      · rw [map]
        exact ih slot (place.imp_left (linked slot).mp)

/-- Without a collision the new order and every order that stays linked are registered. -/
theorem Registered.matched {msg : OrderMessage} (registered : ledger.Registered)
    (settled : ledger.Settled) (free : ledger.free = slot :: rest) (inside : InTicks msg.price)
    (positive : 0 < msg.quantity) (run : MatchRun slot (ledger.enroll slot rest msg) after)
    (apart : ∀ other, ledger.Linked other → mapSlot (ledger.data other).id ≠ mapSlot msg.orderId) :
    ∀ other, after.Linked other ∨ other = slot →
      after.orderMap (mapSlot (after.data other).id) = some other := by
  have slotFree : slot ∈ ledger.free := by simp [free]
  refine run.registered (settled.toInv.enroll free inside positive) fun other place => ?_
  by_cases same : other = slot
  · rw [same, enroll_orderMap, enroll_data_self, if_pos rfl]
  · have linked := (settled.toInv.enroll_linked slotFree rest msg).mp (place.resolve_right same)
    rw [enroll_orderMap, enroll_data_other _ _ _ same, if_neg (apart other linked)]
    exact registered other linked

/-- An add without a collision keeps every order registered. -/
theorem Registered.add {msg : OrderMessage} {placed : Option Ptr} (registered : ledger.Registered)
    (settled : ledger.Settled) (inside : InTicks msg.price) (positive : 0 < msg.quantity)
    (run : ledger.AddRun msg placed after)
    (apart : ∀ other, ledger.Linked other → mapSlot (ledger.data other).id ≠ mapSlot msg.orderId) :
    after.Registered := by
  cases run with
  | full free => exact registered
  | filled free run stopped tight done =>
      have kept := registered.matched settled free inside positive run apart
      exact fun other here => kept other (.inl here)
  | rested free run stopped tight left =>
      have kept := registered.matched settled free inside positive run apart
      intro other here
      rw [rest_data, rest_orderMap]
      exact kept other (rest_linked.mp here)

/-- A cancel clears the entry of its own order only. -/
theorem Registered.withdraw (registered : ledger.Registered) (inv : ledger.Inv none)
    (linked : ledger.Linked slot) : (ledger.withdraw slot).Registered := by
  intro other here
  obtain ⟨was, different⟩ := (withdraw_linked inv linked).mp here
  rw [withdraw_id, withdraw_orderMap, Function.update_of_ne]
  · exact registered other was
  · exact fun same => different (registered.eq_of_mapSlot_eq was linked same)

theorem Registered.shrink (registered : ledger.Registered) (newQty : Quantity) :
    (ledger.shrink slot newQty).Registered := by
  intro other here
  rw [shrink_id]
  exact registered other (shrink_linked.mp here)

end Ledger

end OrderEngine
