import OrderEngine.Library.WhileLoop

namespace OrderEngine.Library

variable {Item State : Type}

/-- `while (auto item = pop())` runs the body on each item until a pop finds none. -/
def popLoop (pop : State → Option Item × State) (body : State → Item → State) (fuel : Nat) (state : State) : State :=
  (whileLoop (fun round : Option Item × State => round.1.isSome)
    (fun round => match round.1 with
      | none => round
      | some item => pop (body round.2 item)) id fuel (pop state)).2

variable {pop : State → Option Item × State} {body : State → Item → State}

/-- The invariant names the items that are left, and each of them is popped once and in order. -/
theorem popLoop_rule (Inv : List Item → State → Prop)
    (empty : ∀ state, Inv [] state → (pop state).1 = none ∧ Inv [] (pop state).2)
    (next : ∀ item items state, Inv (item :: items) state →
      (pop state).1 = some item ∧ Inv items (body (pop state).2 item))
    {fuel : Nat} {items : List Item} {state : State} (enough : items.length ≤ fuel) (start : Inv items state) :
    Inv [] (popLoop pop body fuel state) := by
  -- A round holds the popped item, and the bound counts it together with the items behind it.
  let Round (bound : Nat) (round : Option Item × State) : Prop :=
    (round.1 = none ∧ Inv [] round.2) ∨
      ∃ item items, round.1 = some item ∧ bound = items.length + 1 ∧ Inv items (body round.2 item)
  have popped (items : List Item) (state : State) (holds : Inv items state) : Round items.length (pop state) := by
    cases items with
    | nil => exact .inl (empty state holds)
    | cons item items =>
        obtain ⟨taken, left⟩ := next item items state holds
        exact .inr ⟨item, items, taken, rfl, left⟩
  obtain ⟨⟨bound, last⟩, stopped⟩ := @whileLoop_rule _ (fun round : Option Item × State => round.1.isSome)
    (fun round => match round.1 with
      | none => round
      | some item => pop (body round.2 item)) id Round (by
    intro bound round holds going
    rcases holds with ⟨none, -⟩ | ⟨item, items, some, size, left⟩
    · rw [none] at going
      exact absurd going Bool.false_ne_true
    · refine ⟨items.length, by omega, ?_⟩
      simp only [some]
      exact popped items _ left) _ _ _ enough (popped items state start)
  rcases last with ⟨-, done⟩ | ⟨item, items, some, -, -⟩
  · exact done
  · change Option.isSome _ = false at stopped
    rw [some] at stopped
    exact absurd stopped Bool.noConfusion

end OrderEngine.Library
