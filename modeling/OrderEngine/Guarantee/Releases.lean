import OrderEngine.Guarantee.Lookup
import OrderEngine.Refinement.Traced

namespace OrderEngine

open Library

namespace OrderBook

/-- These are the uses of released orders in one call, in the order in which it makes them. -/
def strays (book : OrderBook) (call : Call) : List Ptr := (({ book := book } : Watch).call call).strays

/-- A careful add completes no order whose trade it reports, and a careful modify asks for no more
than what remains. -/
def Careful (book : OrderBook) : Call → Prop
  | .add msg => book.tradeCb = false ∨ book.orderPool.available = 0 ∨
      ∀ slot ∈ (book.crossing msg).head?, msg.quantity < book.remaining slot
  | .cancel _ => True
  | .modify id newQty => ∀ slot ∈ book.findLive id, newQty ≤ book.remaining slot

instance (book : OrderBook) : DecidablePred book.Careful
  | .add msg =>
    inferInstanceAs (Decidable (_ ∨ _ ∨ ∀ slot ∈ (book.crossing msg).head?, msg.quantity < book.remaining slot))
  | .cancel _ => isTrue trivial
  | .modify id newQty => inferInstanceAs (Decidable (∀ slot ∈ book.findLive id, newQty ≤ book.remaining slot))

end OrderBook

namespace Watch

variable {watch : Watch} {ledger : Ledger} {slot : Ptr} {id : OrderId} {msg : OrderMessage}

/-- An order joins its level without a stray use. -/
theorem restOrder_strays (same : Represents watch.book ledger) {pending : Option Ptr} (inv : ledger.Inv pending)
    (held : slot ∉ watch.book.orderPool.free) : (watch.restOrder slot).strays = watch.strays := by
  simp only [restOrder, use_of_held held]
  rw [useLink_of_held, update_strays]
  intro other tail
  rw [same.free]
  exact (inv.used (inv.linked (same.tail_mem tail))).2

/-- The pool is exhausted, or the new order is written to its slot and matched. -/
theorem addOrder_eq {pool : MemoryPool Order} (served : watch.book.orderPool.construct {} = (some slot, pool))
    (held : slot ∉ pool.free) : (watch.addOrder msg).2 =
      (if (((watch.update fun book => book.register pool slot msg).match slot).book.order slot).status = .filled then
        ((watch.update fun book => book.register pool slot msg).match slot).use slot
      else (((watch.update fun book => book.register pool slot msg).match slot).use slot).restOrder slot) := by
  have written : (watch.update fun book => { book with orderPool := pool }).use slot =
      watch.update fun book => { book with orderPool := pool } := use_of_held held
  rw [addOrder, served]
  simp only [written, use_book, ne_eq, ite_not]
  rfl

/-- Since the pool served the slot, nothing was released. -/
theorem traced_register (watch : Watch) (pool : MemoryPool Order) (slot : Ptr) (msg : OrderMessage) :
    Traced watch.strays watch.book.released.length (watch.update fun book => book.register pool slot msg) where
  grown := Nat.le_refl _
  strays_eq := by
    have nothing : (watch.book.released.drop watch.book.released.length).map Prod.fst = [] := by simp
    show watch.strays = watch.strays ++
      if watch.book.tradeCb then (watch.book.released.drop watch.book.released.length).map Prod.fst else []
    rw [nothing, ite_self, List.append_nil]

/-- An add strays from the orders that it completes when it reports their trades. -/
theorem addOrder_strays (same : Represents watch.book ledger) (settled : ledger.Settled)
    (inside : InTicks msg.price) (positive : 0 < msg.quantity) :
    (watch.addOrder msg).2.strays = watch.strays ++
      if ledger.tradeCb = true ∧ ledger.free ≠ [] then
        paid ledger.left msg.quantity.toNat (ledger.crossing msg.side.wing.opposite msg.price)
      else [] := by
  cases free : ledger.free with
  | nil =>
      rw [addOrder, same.refused free]
      simp
  | cons slot rest =>
      obtain ⟨pool, served, enrolled⟩ := same.enroll free (fun _ _ => settled.toInv.fresh (by simp [free])) msg
      have arrived := settled.toInv.enroll free inside positive
      have enrolledWatch : Represents (watch.update fun book => book.register pool slot msg).book _ := enrolled
      have held : slot ∉ pool.free := held_of_arrived enrolledWatch arrived
      obtain ⟨after, matched, invAfter, run, stopped, -⟩ := enrolled.match arrived
      have matchedWatch :
          Represents ((watch.update fun book => book.register pool slot msg).match slot).book after := by
        rw [match_book]
        exact matched
      have still := held_of_arrived matchedWatch invAfter
      obtain ⟨-, strays⟩ := (traced_register watch pool slot msg).match enrolledWatch arrived
      have released := run.released_eq arrived stopped
      have before : (ledger.enroll slot rest msg).released = watch.book.released := by
        rw [same.core]
        rfl
      have tradeCb : after.tradeCb = ledger.tradeCb := run.tradeCb
      rw [matchedWatch.core, List.map_drop, released, before, ← List.length_map Prod.fst, List.drop_left, tradeCb,
        Ledger.enroll_completed settled free] at strays
      have final : (watch.addOrder msg).2.strays =
          ((watch.update fun book => book.register pool slot msg).match slot).strays := by
        rw [addOrder_eq served held, use_of_held still]
        split
        · rfl
        · exact restOrder_strays matchedWatch invAfter still
      rw [final, strays]
      simp

/-- Every entry of the map holds its slot. -/
theorem lookup_of_held (same : Represents watch.book ledger) {pending : Option Ptr} (inv : ledger.Inv pending) :
    watch.lookup id = watch := by
  apply useLink_of_held
  intro other here
  rw [same.core] at here
  rw [same.free]
  exact (inv.mapped here).1.2

/-- A cancel releases its order after the last use. -/
theorem cancelOrder_of_held (same : Represents watch.book ledger) (inv : ledger.Inv none) :
    (watch.cancelOrder id).2 = watch.update fun book => (book.cancelOrder id).2 := by
  unfold cancelOrder OrderBook.cancelOrder
  rw [lookup_of_held same inv]
  cases found : watch.book.findLive id with
  | none => simp only [update, found]
  | some slot =>
      have linked := (inv.found_linked ((same.findLive_eq id).symm.trans found)).1
      have attached := same.attached inv linked
      let cleared := (watch.update fun book => book.setStatus slot .cancelled).update fun book =>
        { book with toBookCore := book.setSlot id none }
      let removed := cleared.update fun book => book.removeFromLevel slot
      have leaves : cleared.removeFromLevel slot = removed := by
        apply removeFromLevel_of_attached
        exact attached.congr rfl (watch.book.setStatus_links slot slot .cancelled)
      have held : removed.use slot = removed := by
        apply use_of_held
        simp only [removed, cleared, update_book, OrderBook.removeFromLevel_free]
        exact attached.own
      have last : (removed.update fun book => book.rescanAfterCancel slot).destroy slot =
          (removed.update fun book => book.rescanAfterCancel slot).update fun book => book.destroy slot := by
        apply destroy_of_held
        simp only [removed, cleared, update_book, OrderBook.rescanAfterCancel_free, OrderBook.removeFromLevel_free]
        exact attached.own
      simp only [found, use_of_held attached.own]
      rw [leaves, held, ite_self, last]
      simp only [update, found, removed, cleared]

/-- A use of the order after its cancel strays. -/
theorem use_cancelled (same : Represents watch.book ledger) (inv : ledger.Inv none)
    (found : ledger.findLive id = some slot) : (watch.cancelOrder id).2.use slot =
      { book := (watch.book.cancelOrder id).2, strays := watch.strays ++ [slot] } := by
  obtain ⟨linked, named⟩ := inv.found_linked found
  have cancelled := (same.cancel inv found linked named).2
  have released : (watch.book.cancelOrder id).2.Released slot := by
    rw [OrderBook.Released, cancelled.core, cancelled.free, Ledger.withdraw_released, Ledger.withdraw_free]
    simp
  rw [cancelOrder_of_held same inv]
  exact if_pos released

/-- A modify that asks for more copies the side and the price of its order from the released slot. -/
theorem modifyOrder_strays (same : Represents watch.book ledger) (settled : ledger.Settled) (newQty : Quantity) :
    (watch.modifyOrder id newQty).2.strays = watch.strays ++
      match ledger.findLive id with
      | none => []
      | some slot => if newQty ≤ (ledger.data slot).remaining then [] else [slot] := by
  have inv := settled.toInv
  unfold modifyOrder
  rw [lookup_of_held same inv]
  cases found : ledger.findLive id with
  | none => simp [same.findLive_eq, found]
  | some slot =>
      obtain ⟨linked, named⟩ := inv.found_linked found
      have held := (same.attached inv linked).own
      simp only [same.findLive_eq, found, use_of_held held, same.remaining_eq]
      by_cases fits : newQty ≤ (ledger.data slot).remaining
      · rw [if_pos fits, if_pos fits, List.append_nil, update_strays, use_of_held]
        · rfl
        · rw [update_book, OrderBook.deductTotal_orderPool]
          exact held
      · rw [if_neg fits, if_neg fits, use_cancelled same inv found]
        have cancelled := (same.cancel inv found linked named).2
        have admissible := @Ledger.Settled.replacement_admissible ledger slot settled linked id newQty fits
        have again := @addOrder_strays { book := { (watch.book.cancelOrder id).2 with
          toBookCore := (watch.book.cancelOrder id).2.tick }, strays := watch.strays ++ [slot] } _
          ((ledger.withdraw slot).replacement slot id newQty) cancelled.ticked (settled.withdraw linked).ticked
          admissible.2.1 admissible.2.2
        rw [settled.replacement_crossing linked, ← cancelled.replacement_eq slot id newQty] at again
        apply again.trans
        simp [paid]

end Watch

section Strays

variable {book : OrderBook} {ledger : Ledger}

/-- The first order that crosses decides whether an add completes any. -/
theorem Represents.completes_none_iff (same : Represents book ledger) (inv : ledger.Inv none) {msg : OrderMessage}
    (positive : 0 < msg.quantity) :
    paid ledger.left msg.quantity.toNat (ledger.crossing msg.side.wing.opposite msg.price) = [] ↔
      ∀ slot ∈ (book.crossing msg).head?, msg.quantity < book.remaining slot := by
  rw [paid_eq_nil (UInt64.lt_iff_toNat_lt.mp positive), same.crossing_eq inv]
  simp only [same.remaining_eq, UInt64.lt_iff_toNat_lt]
  rfl

/-- A call adds its own strays to those of the calls before it. -/
theorem Watch.call_strays {watch : Watch} (same : Represents watch.book ledger) (settled : ledger.Settled)
    {call : Call} (admissible : call.Admissible) :
    (watch.call call).strays = watch.strays ++ watch.book.strays call := by
  have fresh : Represents ({ book := watch.book } : Watch).book ledger := same
  cases call with
  | add msg =>
      have strays : watch.book.strays (.add msg) = _ := addOrder_strays fresh settled admissible.2.1 admissible.2.2
      rw [strays]
      exact addOrder_strays same settled admissible.2.1 admissible.2.2
  | cancel id =>
      have strays : watch.book.strays (.cancel id) = [] :=
        congrArg Watch.strays (cancelOrder_of_held fresh settled.toInv)
      rw [strays, List.append_nil]
      change (watch.cancelOrder id).2.strays = watch.strays
      rw [cancelOrder_of_held same settled.toInv, update_strays]
  | modify id newQty =>
      have strays : watch.book.strays (.modify id newQty) = _ := modifyOrder_strays fresh settled newQty
      rw [strays]
      exact modifyOrder_strays same settled newQty

/-- A call uses no released order exactly when it is careful. -/
theorem Represents.strays_iff (same : Represents book ledger) (settled : ledger.Settled) {call : Call}
    (admissible : call.Admissible) : book.strays call = [] ↔ book.Careful call := by
  have fresh : Represents ({ book := book } : Watch).book ledger := same
  cases call with
  | add msg =>
      obtain ⟨-, inside, positive⟩ := admissible
      have strays : book.strays (.add msg) = _ := Watch.addOrder_strays fresh settled inside positive
      have tradeCb : book.tradeCb = ledger.tradeCb := congrArg BookCore.tradeCb same.core
      rw [strays, OrderBook.Careful, same.available_eq_zero, ← same.completes_none_iff settled.toInv positive,
        tradeCb]
      cases ledger.tradeCb with
      | false => simp
      | true =>
          by_cases free : ledger.free = []
          · simp [free]
          · simp [free]
  | cancel id =>
      have strays : book.strays (.cancel id) = [] :=
        congrArg Watch.strays (Watch.cancelOrder_of_held fresh settled.toInv)
      rw [strays]
      exact iff_of_true rfl trivial
  | modify id newQty =>
      have strays : book.strays (.modify id newQty) = _ := Watch.modifyOrder_strays fresh settled newQty
      rw [strays, OrderBook.Careful, same.findLive_eq]
      cases ledger.findLive id with
      | none => simp
      | some slot => simp [same.remaining_eq]

/-- In a new book nothing crosses and nothing is live, so every call is careful. -/
theorem empty_careful (tradeCb : Bool) (clock : Nat → Nanos) (call : Call) :
    (OrderBook.empty tradeCb clock).Careful call := by
  have same := Represents.empty tradeCb clock
  have inv := (@Ledger.empty_settled tradeCb clock).toInv
  cases call with
  | add msg =>
      have nothing : (OrderBook.empty tradeCb clock).crossing msg = [] := by
        rw [same.crossing_eq inv]
        exact List.flatMap_eq_nil_iff.mpr fun _ _ => rfl
      refine .inr (.inr ?_)
      simp [nothing]
  | cancel id => trivial
  | modify id newQty =>
      have missing : (OrderBook.empty tradeCb clock).findLive id = none := same.findLive_eq id
      simp [OrderBook.Careful, missing]

end Strays

/-- In every book that a run reaches exactly the careful calls use no released order, and a watch over the
whole run notes no such use exactly when all its calls are careful. -/
theorem no_strays_iff (tradeCb : Bool) (clock : Nat → Nanos) (calls : List Call)
    (admissible : ∀ call ∈ calls, call.Admissible) :
    let start := OrderBook.empty tradeCb clock
    (∀ past call, past ++ [call] <+: calls → ((start.run past).strays call = [] ↔ (start.run past).Careful call)) ∧
      ((∀ past, past <+: calls → (({ book := start } : Watch).run past).strays = []) ↔
        ∀ past call, past ++ [call] <+: calls → (start.run past).Careful call) := by
  intro start
  have reached {past : List Call} {call : Call} (inside : past ++ [call] <+: calls) :
      ∃ ledger, Represents (start.run past) ledger ∧ ledger.Settled :=
    settled_run tradeCb clock fun other member =>
      admissible other (inside.subset (List.mem_append_left _ member))
  constructor
  · intro past call inside
    obtain ⟨ledger, same, settled⟩ := reached inside
    exact same.strays_iff settled (admissible call (mem_of_past inside))
  · apply @always_iff _ _ (fun past => (({ book := start } : Watch).run past).strays = [])
      (fun past call => (start.run past).Careful call) rfl
    intro past call inside clean
    obtain ⟨ledger, same, settled⟩ := reached inside
    have last := admissible call (mem_of_past inside)
    have book : (({ book := start } : Watch).run past).book = start.run past := Watch.run_book _ past
    rw [Watch.run_append, Watch.call_strays (book ▸ same) settled last, clean, List.nil_append, book,
      same.strays_iff settled last]

/-- A reported partial fill leaves the resting order in its slot. -/
theorem no_strays_of_partial_fill :
    (({ book := OrderBook.empty true fun _ => 1 } : Watch).run
      [.add (.sell 1 9 5), .add (.buy 2 9 3)]).strays = [] := by
  have second : ((OrderBook.empty true fun _ => 1).run [.add (.sell 1 9 5)]).Careful (.add (.buy 2 9 3)) := by
    decide +kernel
  refine (no_strays_iff true (fun _ => 1) [.add (.sell 1 9 5), .add (.buy 2 9 3)] (by decide)).2.mpr ?_ _
    List.prefix_rfl
  refine forall_past_cons (empty_careful _ _ _) ?_
  exact forall_past_cons second forall_past_nil

/-- A reported complete fill reads the resting order after its release, and a modify that asks for more
reads its own. -/
theorem strays_of_full_fill_and_larger_modify :
    ((OrderBook.empty true fun _ => 1).run [.add (.sell 1 9 5)]).strays (.add (.buy 2 9 5)) ≠ [] ∧
      ((OrderBook.empty false fun _ => 1).run [.add (.sell 1 9 5)]).strays (.modify 1 9) ≠ [] := by
  constructor
  · obtain ⟨ledger, same, settled⟩ := @settled_run true (fun _ => 1) [.add (.sell 1 9 5)] (by decide)
    rw [ne_eq, same.strays_iff settled (by decide)]
    decide +kernel
  · obtain ⟨ledger, same, settled⟩ := @settled_run false (fun _ => 1) [.add (.sell 1 9 5)] (by decide)
    rw [ne_eq, same.strays_iff settled (by decide)]
    decide +kernel

end OrderEngine
