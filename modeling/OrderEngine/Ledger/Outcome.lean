import OrderEngine.Ledger.Crossing
import OrderEngine.Library.Budget

namespace OrderEngine

open Library

namespace Ledger

variable {ledger next after : Ledger} {incoming resting slot : Ptr} {rest : List Ptr} {price : Int}

/-- An order is open exactly when something remains of it. -/
theorem unfilled_iff (filledLe : (ledger.data slot).filledQuantity ≤ (ledger.data slot).quantity) :
    (ledger.data slot).unfilled ↔ 0 < ledger.left slot := by
  rw [left, OrderData.remaining, UInt64.toNat_sub_of_le _ _ filledLe, OrderData.unfilled, gt_iff_lt,
    UInt64.lt_iff_toNat_lt]
  omega

theorem trade_left_incoming (inv : ledger.Inv (some incoming)) :
    (ledger.trade resting incoming).left incoming = ledger.left incoming - ledger.left resting := by
  have fits := (word_min_le (ledger.data resting).remaining (ledger.data incoming).remaining).2
  rw [left, trade, fill_data_aggressor, OrderData.remaining, OrderData.filledBy_quantity,
    OrderData.filledBy_filledQuantity, toNat_rest_of_fits (inv.arrived rfl).filledLe fits, word_min_toNat]
  show ledger.left incoming - min (ledger.left resting) (ledger.left incoming) = _
  omega

section Trade

variable (inv : ledger.Inv (some incoming))
  (head : ledger.queue (ledger.facing incoming) price = resting :: rest)

include inv head

theorem trade_left_resting :
    (ledger.trade resting incoming).left resting = ledger.left resting - ledger.left incoming := by
  have linked := (head_linked inv.toShelved head).1
  have different : resting ≠ incoming := (inv.arrived rfl).ne linked
  have fits := (word_min_le (ledger.data resting).remaining (ledger.data incoming).remaining).1
  rw [left, trade, fill_data_resting _ _ different, OrderData.remaining, OrderData.filledBy_quantity,
    OrderData.filledBy_filledQuantity, toNat_rest_of_fits (inv.filledLe linked) fits, word_min_toNat]
  show ledger.left resting - min (ledger.left resting) (ledger.left incoming) = _
  omega

/-- A trade completes the resting order exactly when the incoming order can take all of it. -/
theorem trade_completes : (ledger.data resting).completedBy
      (min (ledger.data resting).remaining (ledger.data incoming).remaining) ↔
    ledger.left resting ≤ ledger.left incoming := by
  have linked := (head_linked inv.toShelved head).1
  have fits := (word_min_le (ledger.data resting).remaining (ledger.data incoming).remaining).1
  rw [OrderData.completedBy_iff_remaining (inv.filledLe linked) fits, ← UInt64.toNat_inj, word_min_toNat]
  exact min_eq_left_iff

theorem trade_linked : (ledger.trade resting incoming).Linked slot ↔
    ledger.Linked slot ∧ (ledger.left resting ≤ ledger.left incoming → slot ≠ resting) := by
  rw [trade, fill_linked inv.toShelved (head_linked inv.toShelved head).1, trade_completes inv head]

end Trade

theorem trade_left_other (first : slot ≠ resting) (second : slot ≠ incoming) :
    (ledger.trade resting incoming).left slot = ledger.left slot := by
  rw [left, trade, fill_data_other _ _ first second]
  rfl

theorem trade_facing : (ledger.trade resting incoming).facing incoming = ledger.facing incoming := by
  rw [facing, trade, fill_wing]
  rfl

/-- A trade takes the first order that can be matched, or leaves the others as they are. -/
theorem trade_matchable (inv : ledger.Inv (some incoming)) (crosses : ledger.Crosses incoming)
    (head : ledger.queue (ledger.facing incoming) (ledger.best (ledger.facing incoming)) =
      resting :: rest) :
    ∃ others, ledger.matchable incoming = resting :: others ∧
      (ledger.trade resting incoming).matchable incoming =
        if ledger.left resting ≤ ledger.left incoming then others else resting :: others := by
  obtain ⟨valid, near, -⟩ := crosses
  obtain ⟨linked, place⟩ := head_linked inv.toShelved head
  obtain ⟨others, before, changed⟩ := inv.crossing_split valid near
  refine ⟨rest ++ others, by rw [matchable, before, head, List.cons_append], ?_⟩
  have step := changed (ledger.trade resting incoming) fun price elsewhere => by
    rw [trade, fill_queue, place.1, place.2]
    split
    · exact setCell_of_ne _ _ (fun both => elsewhere both.2)
    · rfl
  have price : (ledger.trade resting incoming).price incoming = ledger.price incoming := fill_price ..
  rw [matchable, trade_facing, price, step, trade, fill_queue, place.1, place.2]
  by_cases full : ledger.left resting ≤ ledger.left incoming
  · rw [if_pos full, if_pos ((trade_completes inv head).mpr full), setCell_self, head,
      List.erase_cons_head]
  · rw [if_neg full, if_neg (fun completed => full ((trade_completes inv head).mp completed)), head,
      List.cons_append]

/-- No other order that can be matched changes what remains of it. -/
theorem trade_left_others (inv : ledger.Inv (some incoming)) {others : List Ptr}
    (matchable : ledger.matchable incoming = resting :: others) :
    ∀ other ∈ others, (ledger.trade resting incoming).left other = ledger.left other := by
  have distinct : (ledger.matchable incoming).Nodup := inv.crossing_nodup
  rw [matchable, List.nodup_cons] at distinct
  intro other member
  apply trade_left_other
  · intro equal
    subst equal
    exact distinct.1 member
  · exact (inv.arrived rfl).ne (inv.mem_crossing.mp (matchable ▸ List.mem_cons_of_mem _ member)).1

theorem volume_congr {slots : List Ptr} (same : ∀ slot ∈ slots, next.left slot = ledger.left slot) :
    next.volume slots = ledger.volume slots := by
  rw [volume, volume, List.map_congr_left same]

@[simp] theorem volume_cons (slots : List Ptr) :
    ledger.volume (slot :: slots) = ledger.left slot + ledger.volume slots := by
  simp [volume]

/-- A match that has stopped has filled its order or has nothing left to match. -/
theorem Inv.stopped (inv : ledger.Inv (some incoming)) (stopped : ¬ ledger.Crosses incoming) :
    ledger.left incoming = 0 ∨ ledger.matchable incoming = [] := by
  by_cases unfilled : (ledger.data incoming).unfilled
  · right
    rw [List.eq_nil_iff_forall_not_mem]
    intro slot member
    obtain ⟨linked, wing, near⟩ := inv.mem_crossing.mp member
    have beyond := inv.not_crosses stopped unfilled
      (wing ▸ List.ne_nil_of_mem linked : ledger.queue (ledger.facing incoming) (ledger.price slot) ≠ [])
    omega
  · left
    rw [unfilled_iff (inv.arrived rfl).filledLe] at unfilled
    omega

/-- The incoming order completes these orders. -/
def completed (ledger : Ledger) (incoming : Ptr) : List Ptr :=
  paid ledger.left (ledger.left incoming) (ledger.matchable incoming)

/-- A trade completes the first of the orders to be completed when the incoming order can take all of it. -/
theorem trade_completed (inv : ledger.Inv (some incoming)) (crosses : ledger.Crosses incoming)
    (head : ledger.queue (ledger.facing incoming) (ledger.best (ledger.facing incoming)) =
      resting :: rest) :
    ledger.completed incoming = (if ledger.left resting ≤ ledger.left incoming then [resting] else []) ++
      (ledger.trade resting incoming).completed incoming := by
  obtain ⟨others, before, after⟩ := trade_matchable inv crosses head
  have positive := (unfilled_iff (inv.arrived rfl).filledLe).mp crosses.2.2
  rw [completed, before, paid, completed, after, trade_left_incoming inv]
  by_cases full : ledger.left resting ≤ ledger.left incoming
  · rw [if_pos ⟨positive, full⟩, if_pos full, if_pos full, paid_congr (trade_left_others inv before)]
    rfl
  · rw [if_neg fun both => full both.2, if_neg full, Nat.sub_eq_zero_of_le (by omega), paid_zero, List.append_nil]

/-- A stopped match has nothing more to complete. -/
theorem Inv.completed_of_stopped (inv : ledger.Inv (some incoming)) (stopped : ¬ ledger.Crosses incoming) :
    ledger.completed incoming = [] := by
  unfold completed
  rcases inv.stopped stopped with done | nothing
  · rw [done, paid_zero]
  · rw [nothing]
    rfl

namespace MatchStep

/-- What the incoming order has left over after everything it can match does not change. -/
theorem excess (step : MatchStep incoming ledger next) (inv : ledger.Inv (some incoming)) :
    next.left incoming - next.volume (next.matchable incoming) =
      ledger.left incoming - ledger.volume (ledger.matchable incoming) := by
  cases step with
  | @trade resting rest crosses head =>
      obtain ⟨others, before, after⟩ := trade_matchable inv crosses head
      have others_same := volume_congr (trade_left_others inv before)
      have resting_left := trade_left_resting inv head
      rw [trade_left_incoming inv, after, before]
      split
      · rw [others_same, volume_cons]
        omega
      · rw [volume_cons, volume_cons]
        omega
  | rescan valid empty => rfl

/-- A step completes the first of the orders to be completed, or none of them. -/
theorem completed_cases (step : MatchStep incoming ledger next) (inv : ledger.Inv (some incoming)) :
    (∃ resting, ledger.completed incoming = resting :: next.completed incoming ∧ ledger.Linked resting ∧
      (∀ slot, next.Linked slot ↔ ledger.Linked slot ∧ slot ≠ resting) ∧
      next.orderMap = Function.update ledger.orderMap (mapSlot (ledger.data resting).id) none) ∨
    (ledger.completed incoming = next.completed incoming ∧
      (∀ slot, next.Linked slot ↔ ledger.Linked slot) ∧ next.orderMap = ledger.orderMap) := by
  cases step with
  | @trade resting rest crosses head =>
      have split := trade_completed inv crosses head
      have linked (slot : Ptr) : (ledger.trade resting incoming).Linked slot ↔ ledger.Linked slot ∧
          (ledger.left resting ≤ ledger.left incoming → slot ≠ resting) := trade_linked inv head
      have filled := trade_completes inv head
      by_cases full : ledger.left resting ≤ ledger.left incoming
      · left
        refine ⟨resting, ?_, (head_linked inv.toShelved head).1, ?_, ?_⟩
        · rw [split, if_pos full]
          rfl
        · intro slot
          rw [linked]
          simp [full]
        · rw [Ledger.trade, fill_orderMap, if_pos (filled.mpr full)]
      · right
        refine ⟨?_, ?_, ?_⟩
        · rw [split, if_neg full]
          rfl
        · intro slot
          rw [linked]
          simp [full]
        · rw [Ledger.trade, fill_orderMap, if_neg (fun both => full (filled.mp both))]
  | rescan valid empty => exact .inr ⟨rfl, fun _ => Iff.rfl, rescan_orderMap ..⟩

/-- The orders released so far and those to be completed stay the same through the match. -/
theorem released_eq (step : MatchStep incoming ledger next) (inv : ledger.Inv (some incoming)) :
    next.released.map Prod.fst ++ next.completed incoming =
      ledger.released.map Prod.fst ++ ledger.completed incoming := by
  cases step with
  | @trade resting rest crosses head =>
      have filled := trade_completes inv head
      rw [trade_completed inv crosses head, Ledger.trade, fill_released]
      by_cases full : ledger.left resting ≤ ledger.left incoming
      · rw [if_pos (filled.mpr full), if_pos full, List.map_append, List.append_assoc]
        rfl
      · rw [if_neg (fun both => full (filled.mp both)), if_neg full, List.nil_append]
  | rescan valid empty =>
      rw [rescan_released]
      rfl

end MatchStep

namespace MatchRun

/-- A stopped match leaves open exactly what it could not match. -/
theorem excess (run : MatchRun incoming ledger after) (inv : ledger.Inv (some incoming))
    (stopped : ¬ after.Crosses incoming) :
    after.left incoming = ledger.left incoming - ledger.volume (ledger.matchable incoming) := by
  have kept : after.left incoming - after.volume (after.matchable incoming) =
      ledger.left incoming - ledger.volume (ledger.matchable incoming) := by
    clear stopped
    induction run with
    | refl => rfl
    | tail earlier step ih => exact (step.excess (MatchRun.inv earlier inv)).trans ih
  rw [← kept]
  rcases (run.inv inv).stopped stopped with done | nothing
  · rw [done, Nat.zero_sub]
  · rw [nothing]
    rfl

/-- A stopped match has filled its order exactly when there was enough to match. -/
theorem filled_iff (run : MatchRun incoming ledger after) (inv : ledger.Inv (some incoming))
    (stopped : ¬ after.Crosses incoming) : (after.data incoming).status = .filled ↔
      ledger.left incoming ≤ ledger.volume (ledger.matchable incoming) := by
  have arrived := (run.inv inv).arrived rfl
  rw [arrived.filled_iff, unfilled_iff arrived.filledLe, run.excess inv stopped]
  omega

/-- A stopped match has taken exactly the completed orders from their queues. -/
theorem linked_iff (run : MatchRun incoming ledger after) (inv : ledger.Inv (some incoming))
    (stopped : ¬ after.Crosses incoming) :
    after.Linked slot ↔ ledger.Linked slot ∧ slot ∉ ledger.completed incoming := by
  induction run using Relation.ReflTransGen.head_induction_on with
  | refl => simp [inv.completed_of_stopped stopped]
  | @head ledger middle step rest ih =>
      rw [ih (step.inv inv)]
      rcases step.completed_cases inv with ⟨resting, list, -, linked, -⟩ | ⟨list, linked, -⟩
      · rw [list, linked, List.mem_cons, not_or]
        tauto
      · rw [list, linked]

/-- A stopped match has released exactly the completed orders. -/
theorem released_eq (run : MatchRun incoming ledger after) (inv : ledger.Inv (some incoming))
    (stopped : ¬ after.Crosses incoming) :
    after.released.map Prod.fst = ledger.released.map Prod.fst ++ ledger.completed incoming := by
  have kept : after.released.map Prod.fst ++ after.completed incoming =
      ledger.released.map Prod.fst ++ ledger.completed incoming := by
    clear stopped
    induction run with
    | refl => rfl
    | tail earlier step ih => exact (step.released_eq (MatchRun.inv earlier inv)).trans ih
  rw [(run.inv inv).completed_of_stopped stopped, List.append_nil] at kept
  exact kept

end MatchRun

end Ledger

end OrderEngine
