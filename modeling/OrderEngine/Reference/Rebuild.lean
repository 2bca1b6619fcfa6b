import OrderEngine.Ledger.Undo
import OrderEngine.Library.Listing
import OrderEngine.Reference.Tracks

namespace OrderEngine

open Library

namespace Ledger

variable {ledger twin after : Ledger} {slot other : Ptr} {slots past : List Ptr} {msg : OrderMessage}

/-- An order goes in again with what is left of it. -/
def resubmit (ledger : Ledger) (slot : Ptr) : OrderMessage where
  side := (ledger.data slot).side
  orderId := (ledger.data slot).id
  price := ledger.price slot
  quantity := (ledger.data slot).remaining

/-- The level of an order by its own data. -/
def place (ledger : Ledger) (slot : Ptr) : Wing × Int := (ledger.wing slot, ledger.price slot)

/-- A listing names the linked orders, and those of one level in the order of its queue. -/
def Listing (ledger : Ledger) : List Ptr → Prop := Lists ledger.place fun level => ledger.queue level.1 level.2

theorem Listing.linked (listing : ledger.Listing slots) (member : slot ∈ slots) : ledger.Linked slot :=
  listing.mem_iff.mp member

theorem Listing.nodup (listing : ledger.Listing slots) (inv : ledger.Inv none) : slots.Nodup :=
  Lists.nodup listing fun _ => inv.distinct _ _

/-- The free slots and the listed ones are different slots of the pool. -/
theorem Listing.fits (listing : ledger.Listing slots) (inv : ledger.Inv none) :
    ledger.free.length + slots.length ≤ kMaxOrders := by
  have apart : (ledger.free ++ slots).Nodup := by
    refine List.Nodup.append inv.freeNodup (listing.nodup inv) ?_
    intro slot free member
    exact (inv.used (listing.linked member)).2 free
  have owned : ∀ slot ∈ ledger.free ++ slots, IsSlot slot := by
    intro slot member
    rcases List.mem_append.mp member with free | listed
    · exact inv.freeSlots slot free
    · exact (inv.used (listing.linked listed)).1
  have short := length_le_of_slots apart owned
  rw [List.length_append] at short
  exact short

/-- A new ledger to which these orders were sent again shows them where they stood. -/
structure Rebuilt (ledger : Ledger) (past : List Ptr) (twin : Ledger) : Prop where
  settled : twin.Settled
  registered : twin.Registered
  callback : twin.tradeCb = true
  reports : twin.reports = []
  free : twin.free.length + past.length = kMaxOrders
  view : ∀ wing price, twin.view wing price =
    (past.filter fun slot => ledger.place slot = (wing, price)).map ledger.entry

namespace Rebuilt

section Resubmit

variable (rebuilt : ledger.Rebuilt past twin) (settled : ledger.Settled)
  (linked : ∀ slot ∈ past, ledger.Linked slot)

include rebuilt

/-- Each order of the new ledger is one that was sent again. -/
theorem origin {wing : Wing} {price : Int} (member : slot ∈ twin.queue wing price) :
    ∃ sent ∈ past, ledger.place sent = (wing, price) ∧ (twin.data slot).id = (ledger.data sent).id := by
  have here : twin.entry slot ∈ twin.view wing price := List.mem_map_of_mem member
  rw [rebuilt.view] at here
  obtain ⟨sent, listed, same⟩ := List.mem_map.mp here
  obtain ⟨inside, level⟩ := List.mem_filter.mp listed
  exact ⟨sent, inside, of_decide_eq_true level, (congrArg Prod.fst same).symm⟩

include settled linked

/-- An order of an uncrossed book crosses nothing that was sent again before it. -/
theorem passive (own : ledger.Linked slot) : twin.Passive (ledger.resubmit slot) := by
  rcases rebuilt.settled.tight (ledger.wing slot).opposite with missing | occupied
  · exact .inl missing
  · right
    obtain ⟨first, member⟩ := List.exists_mem_of_ne_nil _ occupied
    obtain ⟨sent, inside, level, -⟩ := rebuilt.origin member
    obtain ⟨wing, price⟩ := Prod.mk.inj level
    have there := linked sent inside
    unfold Linked at own there
    rw [wing, price] at there
    show (ledger.wing slot).opposite.rank (ledger.price slot) < _
    rw [show (ledger.resubmit slot).side.wing = ledger.wing slot from rfl]
    cases place : ledger.wing slot with
    | bid =>
        rw [place] at own there
        exact settled.uncrossed own there
    | ask =>
        rw [place] at own there
        exact neg_lt_neg (settled.uncrossed there own)

/-- The order rests at the end of its level. -/
theorem step {placed : Option Ptr} (registered : ledger.Registered)
    (own : ledger.Linked slot) (new : slot ∉ past) (room : past.length < kMaxOrders)
    (alive : 0 < (ledger.data slot).remaining) (run : twin.AddRun (ledger.resubmit slot) placed after) :
    ledger.Rebuilt (past ++ [slot]) after := by
  have inside : InTicks (ledger.resubmit slot).price := settled.inTicks own
  have side : (ledger.resubmit slot).side = Side.buy ∨ (ledger.resubmit slot).side = Side.sell :=
    settled.named slot
  have apart : ∀ other, twin.Linked other →
      mapSlot (twin.data other).id ≠ mapSlot (ledger.resubmit slot).orderId := by
    intro other there same
    obtain ⟨sent, member, -, named⟩ := rebuilt.origin there
    rw [named] at same
    obtain rfl := registered.eq_of_mapSlot_eq (linked sent member) own same
    exact new member
  cases free : twin.free with
  | nil =>
      have spent := rebuilt.free
      rw [free, List.length_nil] at spent
      omega
  | cons top rest =>
      have stops := @Passive.stops twin top rest _ (rebuilt.passive settled linked own)
      have settledAfter := rebuilt.settled.add side inside alive run
      have registeredAfter := rebuilt.registered.add rebuilt.settled inside alive run apart
      obtain ⟨-, rfl⟩ := rebuilt.settled.rests_at_once free stops run
      refine ⟨settledAfter, registeredAfter, ?_, ?_, ?_, ?_⟩
      · rw [rest_tradeCb]
        exact rebuilt.callback
      · rw [rest_reports, enroll_reports]
        exact rebuilt.reports
      · have counted := rebuilt.free
        rw [free, List.length_cons] at counted
        rw [rest_free, enroll_free, List.length_append, List.length_singleton]
        omega
      · intro wing price
        have data := twin.enroll_data_self top rest (ledger.resubmit slot)
        have entry : (twin.enroll top rest (ledger.resubmit slot)).entry top = ledger.entry slot := by
          rw [Ledger.entry, enroll_left_self, data]
          rfl
        rw [rest_view, enroll_view rebuilt.settled.toInv free, entry, setCell_apply, List.filter_append,
          List.map_append, ← rebuilt.view, Ledger.wing, Ledger.price, data]
        by_cases here : ledger.place slot = (wing, price)
        · obtain ⟨rfl, rfl⟩ := Prod.mk.inj here
          rw [if_pos ⟨rfl, rfl⟩, List.filter_singleton, decide_eq_true here]
          rfl
        · have apart : ¬(wing = ledger.wing slot ∧ price = ledger.price slot) := by
            rintro ⟨rfl, rfl⟩
            exact here rfl
          rw [List.filter_singleton, decide_eq_false here, cond_false, List.map_nil, List.append_nil]
          exact if_neg apart

end Resubmit

end Rebuilt

end Ledger

end OrderEngine
