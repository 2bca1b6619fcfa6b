import Mathlib.Logic.Function.Basic
import Mathlib.Tactic

namespace OrderEngine.Library

/-- A loop that still wants to run when its fuel is spent ends in the state `stuck` gives. -/
def whileLoop {State : Type} (guard : State → Bool) (body stuck : State → State) :
    Nat → State → State
  | 0, state => if guard state then stuck state else state
  | fuel + 1, state => if guard state then whileLoop guard body stuck fuel (body state) else state

section Rules

variable {State : Type} {guard : State → Bool} {body stuck : State → State}

/-- The invariant carries a bound on the rounds left, and the body lowers the bound. -/
theorem whileLoop_rule (Inv : Nat → State → Prop)
    (step : ∀ bound state, Inv bound state → guard state = true →
      ∃ smaller, smaller < bound ∧ Inv smaller (body state))
    {fuel bound : Nat} {state : State} (enough : bound ≤ fuel) (start : Inv bound state) :
    (∃ left, Inv left (whileLoop guard body stuck fuel state)) ∧
      guard (whileLoop guard body stuck fuel state) = false := by
  induction fuel generalizing bound state with
  | zero =>
      cases open_ : guard state with
      | false => simpa [whileLoop, open_] using ⟨bound, start⟩
      | true =>
          obtain ⟨smaller, less, -⟩ := step bound state start open_
          omega
  | succ fuel ih =>
      cases open_ : guard state with
      | false => simpa [whileLoop, open_] using ⟨bound, start⟩
      | true =>
          obtain ⟨smaller, less, next⟩ := step bound state start open_
          simpa only [whileLoop, open_, if_true] using ih (by omega) next

/-- An invariant that needs no bound on the rounds is kept even by a loop that gets stuck. -/
theorem whileLoop_keeps (Inv : State → Prop) (step : ∀ state, Inv state → Inv (body state))
    (stop : ∀ state, Inv state → Inv (stuck state)) {fuel : Nat} {state : State} (start : Inv state) :
    Inv (whileLoop guard body stuck fuel state) := by
  induction fuel generalizing state with
  | zero =>
      unfold whileLoop
      split
      · exact stop state start
      · exact start
  | succ fuel ih =>
      unfold whileLoop
      split
      · exact ih (step state start)
      · exact start

/-- When a view of the states has an invariant with a bound, a property that each round keeps is kept. -/
theorem whileLoop_follow {Other : Type} {otherBody : Other → Other} (view : State → Other)
    (bodies : ∀ state, view (body state) = otherBody (view state)) (Inv : Nat → Other → Prop) (Kept : State → Prop)
    (step : ∀ bound state, Inv bound (view state) → guard state = true → Kept state →
      (∃ smaller, smaller < bound ∧ Inv smaller (otherBody (view state))) ∧ Kept (body state))
    {fuel bound : Nat} {state : State} (enough : bound ≤ fuel) (start : Inv bound (view state)) (kept : Kept state) :
    Kept (whileLoop guard body stuck fuel state) := by
  have round (bound : Nat) (state : State) (both : Inv bound (view state) ∧ Kept state) (going : guard state = true) :
      ∃ smaller, smaller < bound ∧ Inv smaller (view (body state)) ∧ Kept (body state) := by
    obtain ⟨⟨smaller, less, next⟩, keeps⟩ := step bound state both.1 going both.2
    rw [← bodies] at next
    exact ⟨smaller, less, next, keeps⟩
  obtain ⟨⟨left, -, keeps⟩, -⟩ :=
    whileLoop_rule (fun bound state => Inv bound (view state) ∧ Kept state) round enough ⟨start, kept⟩
  exact keeps

/-- A view that follows the guard, the body and the stuck state follows the whole loop. -/
theorem whileLoop_view {Other : Type} {otherGuard : Other → Bool} {otherBody otherStuck : Other → Other}
    (view : State → Other) (guards : ∀ state, otherGuard (view state) = guard state)
    (bodies : ∀ state, view (body state) = otherBody (view state))
    (stops : ∀ state, view (stuck state) = otherStuck (view state)) (fuel : Nat) (state : State) :
    view (whileLoop guard body stuck fuel state) = whileLoop otherGuard otherBody otherStuck fuel (view state) := by
  induction fuel generalizing state with
  | zero =>
      unfold whileLoop
      rw [guards, apply_ite view, stops]
  | succ fuel ih =>
      unfold whileLoop
      rw [guards, apply_ite view, ih, bodies]

end Rules

end OrderEngine.Library
