import OrderEngine.Refinement.Arrival

namespace OrderEngine

open Library

namespace OrderBook

/-- The total of every level is what remains on its orders, modulo the number of words. -/
def DepthExact (book : OrderBook) : Prop :=
  ∀ wing price, (book.level wing price).totalQuantity.toNat =
    book.volume (book.queue wing price) % 2 ^ 64

/-- An add keeps the depth exact unless its order is partly filled and then rests. -/
def DepthSafe (book : OrderBook) : Call → Prop
  | .add msg => book.orderPool.available = 0 ∨ book.volume (book.crossing msg) = 0 ∨
      msg.quantity.toNat ≤ book.volume (book.crossing msg)
  | _ => True

end OrderBook

namespace Ledger

/-- The words that remain on some orders add up to their depth. -/
def depth (ledger : Ledger) (slots : List Ptr) : Quantity :=
  (slots.map fun slot => (ledger.data slot).remaining).sum

def DepthExact (ledger : Ledger) : Prop :=
  ∀ wing price, ledger.total wing price = ledger.depth (ledger.queue wing price)

open scoped UInt64.CommRing

variable {ledger next after : Ledger} {incoming resting slot : Ptr} {rest : List Ptr} {price : Int}

/-- One level changes its total and its depth together, and the other levels keep theirs. -/
theorem DepthExact.level (exact_ : ledger.DepthExact) (shelved : ledger.Shelved)
    (linked : ledger.Linked slot)
    (queue : ∀ wing price, ¬(wing = ledger.wing slot ∧ price = ledger.price slot) →
      next.queue wing price = ledger.queue wing price ∧ next.total wing price = ledger.total wing price)
    (data : ∀ other, ledger.Linked other → other ≠ slot → next.data other = ledger.data other)
    (here : next.total (ledger.wing slot) (ledger.price slot) =
      next.depth (next.queue (ledger.wing slot) (ledger.price slot))) : next.DepthExact := by
  intro wing price
  by_cases place : wing = ledger.wing slot ∧ price = ledger.price slot
  · rw [place.1, place.2]
    exact here
  · obtain ⟨sameQueue, sameTotal⟩ := queue wing price place
    rw [sameQueue, sameTotal, exact_ wing price, depth, depth]
    congr 1
    apply List.map_congr_left
    intro other member
    rw [data other (shelved.linked member)]
    intro equal
    subst equal
    exact place (shelved.place_unique member linked)

/-- What remains of a filled order is what remained without the fill. -/
theorem filledBy_remaining (data : OrderData) (qty : Quantity) :
    (data.filledBy qty).remaining = data.remaining - qty := by
  unfold OrderData.remaining
  rw [OrderData.filledBy_quantity, OrderData.filledBy_filledQuantity]
  ring

theorem DepthExact.trade (exact_ : ledger.DepthExact) (inv : ledger.Inv (some incoming))
    (head : ledger.queue (ledger.facing incoming) price = resting :: rest) :
    (ledger.trade resting incoming).DepthExact := by
  obtain ⟨linked, place⟩ := head_linked inv.toShelved head
  have different : resting ≠ incoming := (inv.arrived rfl).ne linked
  have dataOther : ∀ other, ledger.Linked other → other ≠ resting →
      (ledger.trade resting incoming).data other = ledger.data other := by
    intro other otherLinked first
    apply fill_data_other _ _ first
    intro equal
    subst equal
    exact (inv.arrived rfl).unlinked otherLinked
  refine exact_.level inv.toShelved linked ?_ dataOther ?_
  · intro wing price elsewhere
    rw [Ledger.trade, fill_queue, fill_total]
    refine ⟨?_, setCell_of_ne _ _ elsewhere⟩
    split
    · exact setCell_of_ne _ _ elsewhere
    · rfl
  · have data : (ledger.trade resting incoming).data resting = (ledger.data resting).filledBy _ :=
      fill_data_resting _ _ different
    have changed : (ledger.trade resting incoming).depth
        (ledger.queue (ledger.wing resting) (ledger.price resting)) =
        ledger.depth (ledger.queue (ledger.wing resting) (ledger.price resting)) -
          min (ledger.data resting).remaining (ledger.data incoming).remaining := by
      rw [depth, depth, word_sum_change linked (inv.distinct _ _) fun other member different => by
        rw [dataOther other (inv.linked member) different], data, filledBy_remaining]
      ring
    have total : (ledger.trade resting incoming).total (ledger.wing resting) (ledger.price resting) =
        (ledger.trade resting incoming).depth
          (ledger.queue (ledger.wing resting) (ledger.price resting)) := by
      rw [changed, Ledger.trade, fill_total, setCell_self, exact_]
    rw [total, Ledger.trade, fill_queue]
    split
    · next full =>
        rw [setCell_self, depth, depth, word_sum_erase linked]
        have fits := word_min_le (ledger.data resting).remaining (ledger.data incoming).remaining
        have nothing := (OrderData.completedBy_iff_remaining (inv.filledLe linked) fits.1).mp full
        show _ = _ - ((ledger.trade resting incoming).data resting).remaining
        rw [data, filledBy_remaining, nothing]
        ring
    · rfl

theorem MatchRun.depthExact (run : MatchRun incoming ledger after) (inv : ledger.Inv (some incoming))
    (exact_ : ledger.DepthExact) : after.DepthExact := by
  induction run with
  | refl => exact exact_
  | tail earlier step ih =>
      cases step with
      | trade crosses head => exact ih.trade (MatchRun.inv earlier inv) head
      | rescan valid empty => exact ih

/-- An order rests with its whole quantity, so the depth stays exact only if none of it was filled. -/
theorem DepthExact.rest_iff (exact_ : ledger.DepthExact) :
    (ledger.rest slot).DepthExact ↔ (ledger.data slot).filledQuantity = 0 := by
  have here : (ledger.rest slot).total (ledger.wing slot) (ledger.price slot) =
      (ledger.rest slot).depth ((ledger.rest slot).queue (ledger.wing slot) (ledger.price slot)) ↔
      (ledger.data slot).filledQuantity = 0 := by
    rw [depth, rest_data, rest_queue, rest_total, setCell_self, setCell_self, word_sum_append, exact_,
      depth, OrderData.remaining]
    grind
  constructor
  · intro whole
    exact here.mp (whole _ _)
  · intro unfilled wing price
    by_cases place : wing = ledger.wing slot ∧ price = ledger.price slot
    · rw [place.1, place.2]
      exact here.mpr unfilled
    · rw [depth, rest_data, rest_queue, rest_total, setCell_of_ne _ _ place, setCell_of_ne _ _ place]
      exact exact_ wing price

theorem DepthExact.withdraw (exact_ : ledger.DepthExact)
    (linked : ledger.Linked slot) : (ledger.withdraw slot).DepthExact := by
  have remaining (other : Ptr) :
      ((ledger.withdraw slot).data other).remaining = (ledger.data other).remaining := by
    rw [withdraw_data]
    exact update_field OrderData.remaining ledger.data (by rfl) other
  intro wing price
  unfold depth
  simp only [remaining, withdraw_queue, withdraw_total]
  by_cases place : wing = ledger.wing slot ∧ price = ledger.price slot
  · rw [place.1, place.2, setCell_self, setCell_self, word_sum_erase linked, exact_]
    rfl
  · rw [setCell_of_ne _ _ place, setCell_of_ne _ _ place]
    exact exact_ wing price

theorem DepthExact.ticked (exact_ : ledger.DepthExact) : ledger.ticked.DepthExact :=
  fun wing price => exact_ wing price

theorem DepthExact.shrink (exact_ : ledger.DepthExact) (inv : ledger.Inv none)
    (linked : ledger.Linked slot) (newQty : Quantity) : (ledger.shrink slot newQty).DepthExact := by
  have dataOther : ∀ other, ledger.Linked other → other ≠ slot →
      (ledger.shrink slot newQty).data other = ledger.data other :=
    fun other _ different => Function.update_of_ne different _ _
  refine exact_.level inv.toShelved linked ?_ dataOther ?_
  · intro wing price elsewhere
    exact ⟨setCell_of_ne _ _ elsewhere, setCell_of_ne _ _ elsewhere⟩
  · have queue : (ledger.shrink slot newQty).queue = ledger.queue := setCell_same ..
    have total : (ledger.shrink slot newQty).total (ledger.wing slot) (ledger.price slot) =
        ledger.total (ledger.wing slot) (ledger.price slot) - ((ledger.data slot).remaining - newQty) :=
      setCell_self ..
    have data : ((ledger.shrink slot newQty).data slot).remaining = newQty := by
      rw [shrink_data, Function.update_self, OrderData.remaining]
      ring
    rw [queue, total, depth, word_sum_change linked (inv.distinct _ _) fun other member different => by
      rw [dataOther other (inv.linked member) different], data, exact_, depth]
    ring

theorem DepthExact.enroll (exact_ : ledger.DepthExact) (inv : ledger.Inv none)
    (free : ledger.free = slot :: rest) (msg : OrderMessage) :
    (ledger.enroll slot rest msg).DepthExact := by
  intro wing price
  apply (exact_ wing price).trans
  unfold depth
  congr 1
  apply List.map_congr_left
  intro other member
  rw [enroll_data_other]
  intro equal
  subst equal
  exact inv.fresh (by simp [free]) member

/-- An add keeps the depth exact when it is refused, trades nothing or is filled. -/
theorem AddRun.depthExact_iff {msg : OrderMessage} {placed : Option Ptr}
    (run : ledger.AddRun msg placed after) (settled : ledger.Settled) (inside : InTicks msg.price)
    (positive : 0 < msg.quantity) (exact_ : ledger.DepthExact) : after.DepthExact ↔
      ledger.free = [] ∨ ledger.volume (ledger.crossing msg.side.wing.opposite msg.price) = 0 ∨
        msg.quantity.toNat ≤ ledger.volume (ledger.crossing msg.side.wing.opposite msg.price) := by
  cases run with
  | full free => exact iff_of_true exact_ (.inl free)
  | @filled slot rest after free run stopped tight done =>
      have inv := settled.toInv.enroll free inside positive
      have enough := (arrival_filled_iff settled free inside positive run stopped).mp done
      exact iff_of_true (run.depthExact inv (exact_.enroll settled.toInv free msg)) (.inr (.inr enough))
  | @rested slot rest after free run stopped tight left =>
      have inv := settled.toInv.enroll free inside positive
      have short := (arrival_filled_iff settled free inside positive run stopped).not.mp left
      have open_ := arrival_left settled free inside positive run stopped
      have quantity := (run.same_order slot).2.2.2
      have filledLe := ((run.inv inv).arrived rfl).filledLe
      have bound := UInt64.le_iff_toNat_le.mp filledLe
      rw [enroll_data_self] at quantity
      change (after.data slot).quantity = msg.quantity at quantity
      change (after.data slot).remaining.toNat = _ at open_
      rw [OrderData.remaining, UInt64.toNat_sub_of_le _ _ filledLe, quantity] at open_
      rw [quantity] at bound
      rw [(run.depthExact inv (exact_.enroll settled.toInv free msg)).rest_iff, ← UInt64.toNat_inj, free]
      simp only [reduceCtorEq, false_or, short, or_false]
      show _ = 0 ↔ _
      omega

/-- Only an add can make a depth wrong. -/
theorem CallRun.depthExact_iff {call : Call} {answer : Bool} (run : ledger.CallRun call answer after)
    (settled : ledger.Settled) (admissible : call.Admissible) (exact_ : ledger.DepthExact) :
    after.DepthExact ↔ match call with
      | .add msg => ledger.free = [] ∨
          ledger.volume (ledger.crossing msg.side.wing.opposite msg.price) = 0 ∨
          msg.quantity.toNat ≤ ledger.volume (ledger.crossing msg.side.wing.opposite msg.price)
      | _ => True := by
  cases run with
  | add run => exact run.depthExact_iff settled admissible.2.1 admissible.2.2 exact_
  | cancelMissing missing => exact iff_of_true exact_ trivial
  | cancel found =>
      exact iff_of_true (exact_.withdraw (settled.toInv.found_linked found).1) trivial
  | modifyMissing missing => exact iff_of_true exact_ trivial
  | shrink found fits =>
      exact iff_of_true (exact_.shrink settled.toInv (settled.toInv.found_linked found).1 _) trivial
  | replace found larger run =>
      have linked := (settled.toInv.found_linked found).1
      obtain ⟨-, inside, positive⟩ := settled.replacement_admissible linked larger
      refine iff_of_true ?_ trivial
      refine (run.depthExact_iff (settled.withdraw linked).ticked inside positive
        (exact_.withdraw linked).ticked).mpr (.inr (.inl ?_))
      rw [settled.replacement_crossing linked]
      rfl

end Ledger

/-- The depth of the book is the depth of its ledger. -/
theorem Represents.depthExact_iff {book : OrderBook} {ledger : Ledger} {pending : Option Ptr}
    (same : Represents book ledger) (inv : ledger.Inv pending) :
    book.DepthExact ↔ ledger.DepthExact := by
  unfold OrderBook.DepthExact Ledger.DepthExact
  apply forall₂_congr
  intro wing price
  rw [same.total, same.queue_eq inv, same.volume_eq, ← UInt64.toNat_inj, Ledger.depth, word_sum_toNat]
  rfl

/-- Level depth is exact throughout a run exactly when no add of the run is partly filled and rests. -/
theorem depth_exact_iff (tradeCb : Bool) (clock : Nat → Nanos) (calls : List Call)
    (admissible : ∀ call ∈ calls, call.Admissible) :
    (∀ past, past <+: calls → ((OrderBook.empty tradeCb clock).run past).DepthExact) ↔
      ∀ past call, past ++ [call] <+: calls →
        ((OrderBook.empty tradeCb clock).run past).DepthSafe call := by
  refine holds_throughout_iff ?_ ?_ admissible
  · exact ((Represents.empty tradeCb clock).depthExact_iff Ledger.empty_settled.toInv).mpr
      fun _ _ => rfl
  · intro book ledger call same settled admissible exact_
    obtain ⟨after, run, sameAfter, invAfter⟩ := same.call settled.toInv admissible.sound
    rw [same.depthExact_iff settled.toInv] at exact_
    rw [sameAfter.depthExact_iff invAfter, run.depthExact_iff settled admissible exact_]
    cases call with
    | add msg =>
        rw [OrderBook.DepthSafe, same.available_eq_zero, same.crossing_eq settled.toInv, same.volume_eq]
    | cancel id => exact Iff.rfl
    | modify id newQty => exact Iff.rfl

theorem depth_exact_iff_of_filled_aggressor :
    let calls := [Call.add (.sell 1 65535 7), .add (.buy 2 65535 3), .cancel 1]
    (∀ past, past <+: calls → ((OrderBook.empty true fun _ => 1).run past).DepthExact) ↔
      ∀ past call, past ++ [call] <+: calls →
        ((OrderBook.empty true fun _ => 1).run past).DepthSafe call :=
  depth_exact_iff true (fun _ => 1) _ (by decide)

/-- A buy of 7 takes a sell of 3 and rests 4, but its level counts 7. -/
theorem depth_wrong_after_partial_fill :
    let calls := [Call.add (.sell 1 65535 3), .add (.buy 2 65535 7)]
    let book := (OrderBook.empty true fun _ => 1).run calls
    (∀ call ∈ calls, call.Admissible) ∧ (book.level .bid 65535).totalQuantity = 7 ∧
      book.volume (book.queue .bid 65535) = 4 ∧ ¬ book.DepthExact := by
  intro calls book
  have total : (book.level .bid 65535).totalQuantity = 7 := by decide +kernel
  have volume : book.volume (book.queue .bid 65535) = 4 := by decide +kernel
  refine ⟨by decide, total, volume, fun exact_ => ?_⟩
  have wrong := exact_ .bid 65535
  rw [total, volume] at wrong
  exact absurd wrong (by decide)

end OrderEngine
