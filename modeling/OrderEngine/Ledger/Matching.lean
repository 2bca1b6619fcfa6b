import Mathlib.Logic.Relation
import OrderEngine.Ledger.Steps

namespace OrderEngine

open Library

@[simp] theorem Wing.opposite_ne (wing : Wing) : wing.opposite ≠ wing := by
  cases wing <;> decide

def OrderData.unfilled (data : OrderData) : Prop := data.quantity > data.filledQuantity

instance (data : OrderData) : Decidable data.unfilled := inferInstanceAs (Decidable (_ > _))

namespace Ledger

/-- An incoming order trades against this wing. -/
def facing (ledger : Ledger) (incoming : Ptr) : Wing := (ledger.wing incoming).opposite

/-- The incoming order goes on matching while the best facing price crosses its own price. -/
def Crosses (ledger : Ledger) (incoming : Ptr) : Prop :=
  ledger.best (ledger.facing incoming) ≠ kInvalidPrice ∧
    (ledger.facing incoming).rank (ledger.best (ledger.facing incoming)) ≤
      (ledger.facing incoming).rank (ledger.price incoming) ∧
    (ledger.data incoming).unfilled

/-- An emptied or stale best level can be told from an occupied one. -/
def Tight (ledger : Ledger) (wing : Wing) : Prop :=
  ledger.best wing = kInvalidPrice ∨ ledger.queue wing (ledger.best wing) ≠ []

/-- The incoming order trades the smaller remaining quantity with a resting order. -/
def trade (ledger : Ledger) (resting incoming : Ptr) : Ledger :=
  ledger.fill resting incoming (min (ledger.data resting).remaining (ledger.data incoming).remaining)

/-- The match fills the oldest order at the best price or moves past an empty level. -/
inductive MatchStep (incoming : Ptr) (ledger : Ledger) : Ledger → Prop where
  | trade {resting : Ptr} {rest : List Ptr} (crosses : ledger.Crosses incoming)
      (head : ledger.queue (ledger.facing incoming) (ledger.best (ledger.facing incoming)) =
        resting :: rest) :
      MatchStep incoming ledger (ledger.trade resting incoming)
  | rescan (valid : ledger.best (ledger.facing incoming) ≠ kInvalidPrice)
      (empty : ledger.queue (ledger.facing incoming) (ledger.best (ledger.facing incoming)) = []) :
      MatchStep incoming ledger (ledger.rescan (ledger.facing incoming))

def MatchRun (incoming : Ptr) : Ledger → Ledger → Prop :=
  Relation.ReflTransGen (MatchStep incoming)

section Rescan

variable {ledger : Ledger} {wing : Wing}

/-- The scan stops at an occupied tick or leaves the wing without a price. -/
theorem rescan_tight (inside : InTicks (ledger.best wing)) : (ledger.rescan wing).Tight wing := by
  rw [Tight, rescan_best, if_pos rfl, rescan_queue]
  rcases nextBest_cases wing (fun price => !(ledger.queue wing price).isEmpty) inside with
    ⟨none, -⟩ | ⟨-, occupied, -⟩
  · exact .inl none
  · exact .inr (by simpa using occupied)

end Rescan

section Head

variable {ledger : Ledger} {incoming resting : Ptr} {rest : List Ptr}

theorem head_linked (shelved : ledger.Shelved) {wing : Wing} {price : Int}
    (head : ledger.queue wing price = resting :: rest) : ledger.Linked resting ∧
      ledger.wing resting = wing ∧ ledger.price resting = price :=
  shelved.mem_iff.mp (by rw [head]; exact List.mem_cons_self)

end Head

namespace MatchStep

variable {incoming : Ptr} {ledger next : Ledger}

/-- Each step of the match keeps the invariant. -/
theorem inv (step : MatchStep incoming ledger next) (before : ledger.Inv (some incoming)) :
    next.Inv (some incoming) := by
  cases step with
  | @trade resting rest crosses head =>
      have fits := word_min_le (ledger.data resting).remaining (ledger.data incoming).remaining
      exact before.fill (head_linked before.toShelved head).1 fits.1 fits.2
  | rescan valid empty => exact before.rescan valid

/-- No order changes its identifier, side or price while it is matched. -/
theorem same_order (step : MatchStep incoming ledger next) (slot : Ptr) :
    (next.data slot).id = (ledger.data slot).id ∧ (next.data slot).side = (ledger.data slot).side ∧
      next.price slot = ledger.price slot ∧
      (next.data slot).quantity = (ledger.data slot).quantity := by
  cases step with
  | @trade resting rest crosses head =>
      exact ⟨ledger.fill_id .., ledger.fill_side .., ledger.fill_price .., ledger.fill_quantity ..⟩
  | rescan valid empty => exact ⟨rfl, rfl, rfl, rfl⟩

/-- The incoming order's own wing stays as it is. -/
theorem own_wing (step : MatchStep incoming ledger next) (shelved : ledger.Shelved) :
    (∀ price, next.queue (ledger.wing incoming) price = ledger.queue (ledger.wing incoming) price) ∧
      next.best (ledger.wing incoming) = ledger.best (ledger.wing incoming) := by
  have different : ledger.wing incoming ≠ ledger.facing incoming :=
    (Wing.opposite_ne (ledger.wing incoming)).symm
  cases step with
  | @trade resting rest crosses head =>
      refine ⟨fun price => ?_, ledger.fill_best ..⟩
      rw [Ledger.trade, fill_queue, (head_linked shelved head).2.1]
      split
      · exact setCell_of_ne _ _ (fun both => different both.1)
      · rfl
  | rescan valid empty =>
      constructor
      · intro price
        rfl
      · rw [rescan_best, if_neg different]

end MatchStep

namespace MatchRun

variable {incoming : Ptr} {ledger next : Ledger}

theorem tradeCb (run : MatchRun incoming ledger next) : next.tradeCb = ledger.tradeCb := by
  induction run with
  | refl => rfl
  | tail _ step ih =>
      rw [← ih]
      cases step with
      | trade crosses head => exact fill_tradeCb ..
      | rescan valid empty => exact rescan_tradeCb ..

/-- A whole match keeps the invariant. -/
theorem inv (run : MatchRun incoming ledger next) (before : ledger.Inv (some incoming)) :
    next.Inv (some incoming) := by
  induction run with
  | refl => exact before
  | tail _ step ih => exact step.inv ih

theorem same_order (run : MatchRun incoming ledger next) (slot : Ptr) :
    (next.data slot).id = (ledger.data slot).id ∧ (next.data slot).side = (ledger.data slot).side ∧
      next.price slot = ledger.price slot ∧
      (next.data slot).quantity = (ledger.data slot).quantity := by
  induction run with
  | refl => exact ⟨rfl, rfl, rfl, rfl⟩
  | tail _ step ih =>
      have same := step.same_order slot
      exact ⟨same.1.trans ih.1, same.2.1.trans ih.2.1, same.2.2.1.trans ih.2.2.1,
        same.2.2.2.trans ih.2.2.2⟩

theorem wing_eq (run : MatchRun incoming ledger next) (slot : Ptr) :
    next.wing slot = ledger.wing slot := congrArg Side.wing (run.same_order slot).2.1

theorem facing_eq (run : MatchRun incoming ledger next) :
    next.facing incoming = ledger.facing incoming := congrArg Wing.opposite (run.wing_eq incoming)

theorem own_wing (run : MatchRun incoming ledger next) (before : ledger.Inv (some incoming)) :
    (∀ price, next.queue (ledger.wing incoming) price = ledger.queue (ledger.wing incoming) price) ∧
      next.best (ledger.wing incoming) = ledger.best (ledger.wing incoming) := by
  induction run with
  | refl => exact ⟨fun _ => rfl, rfl⟩
  | @tail middle next earlier step ih =>
      have shelved := (inv earlier before).toShelved
      have last := step.own_wing shelved
      rw [wing_eq earlier incoming] at last
      exact ⟨fun price => (last.1 price).trans (ih.1 price), last.2.trans ih.2⟩

end MatchRun

/-- An arrived order is filled exactly when nothing of it remains. -/
theorem Arrived.filled_iff {ledger : Ledger} {slot : Ptr} (arrived : ledger.Arrived slot) :
    (ledger.data slot).status = .filled ↔ ¬ (ledger.data slot).unfilled := by
  constructor
  · intro filled unfilled
    have live := arrived.live unfilled
    rw [OrderData.live, filled] at live
    simp at live
  · intro done
    exact arrived.full (UInt64.le_antisymm arrived.filledLe (UInt64.not_lt.mp done))

theorem Arrived.unfilled_of_open {ledger : Ledger} {slot : Ptr} (arrived : ledger.Arrived slot)
    (left : (ledger.data slot).status ≠ .filled) : (ledger.data slot).unfilled := by
  by_contra done
  exact left (arrived.filled_iff.mpr done)

theorem Arrived.live_of_open {ledger : Ledger} {slot : Ptr} (arrived : ledger.Arrived slot)
    (left : (ledger.data slot).status ≠ .filled) : (ledger.data slot).live :=
  arrived.live (arrived.unfilled_of_open left)

/-- An added order is refused, or it is matched until nothing crosses and then filled or rested. -/
inductive AddRun (ledger : Ledger) (msg : OrderMessage) : Option Ptr → Ledger → Prop where
  | full (free : ledger.free = []) : AddRun ledger msg none ledger
  | filled {slot : Ptr} {rest : List Ptr} {after : Ledger} (free : ledger.free = slot :: rest)
      (run : MatchRun slot (ledger.enroll slot rest msg) after) (stopped : ¬ after.Crosses slot)
      (tight : (ledger.enroll slot rest msg).Tight ((ledger.enroll slot rest msg).facing slot) →
        after.Tight ((ledger.enroll slot rest msg).facing slot))
      (done : (after.data slot).status = .filled) : AddRun ledger msg (some slot) after
  | rested {slot : Ptr} {rest : List Ptr} {after : Ledger} (free : ledger.free = slot :: rest)
      (run : MatchRun slot (ledger.enroll slot rest msg) after) (stopped : ¬ after.Crosses slot)
      (tight : (ledger.enroll slot rest msg).Tight ((ledger.enroll slot rest msg).facing slot) →
        after.Tight ((ledger.enroll slot rest msg).facing slot))
      (left : (after.data slot).status ≠ .filled) : AddRun ledger msg (some slot) (after.rest slot)

section Placed

variable {ledger after : Ledger} {msg : OrderMessage} {placed : Option Ptr}

/-- An add takes the next free slot. -/
theorem AddRun.placed_eq (run : ledger.AddRun msg placed after) : placed = ledger.free.head? := by
  cases run with
  | full free => rw [free, List.head?_nil]
  | filled free => rw [free, List.head?_cons]
  | rested free => rw [free, List.head?_cons]

theorem AddRun.placed_isSome (run : ledger.AddRun msg placed after) (served : ledger.free ≠ []) :
    placed.isSome = true := by
  rw [run.placed_eq, List.isSome_head?]
  simpa using served

end Placed

end Ledger

end OrderEngine
