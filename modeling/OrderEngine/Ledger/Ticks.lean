import OrderEngine.Ledger.Ledger

namespace OrderEngine

open Library

theorem kInvalidPrice_outside : ¬ InTicks kInvalidPrice := by decide

namespace Wing

variable {wing : Wing} {price other : Int}

/-- A step by the stride raises the rank by one. -/
theorem rank_stride (wing : Wing) (price : Int) (index : Nat) :
    wing.rank (price + index * wing.stride) = wing.rank price + index := by
  cases wing <;> simp only [rank, stride] <;> ring

theorem rank_injective : Function.Injective wing.rank := by
  intro first second equal
  cases wing <;> simpa [rank] using equal

/-- The ticks at or behind a price are the ones that the scan reaches. -/
theorem reach_of_inTicks (inside : InTicks other) (behind : wing.rank price ≤ wing.rank other) :
    ∃ index : Nat, index < wing.reach price ∧ other = price + index * wing.stride := by
  refine ⟨(wing.rank other - wing.rank price).toNat, ?_, ?_⟩
  · obtain ⟨low, high⟩ := inside
    cases wing <;> simp only [rank, reach] at behind ⊢ <;> omega
  · cases wing <;> simp only [rank, stride] at behind ⊢ <;> omega

theorem inTicks_of_reach {index : Nat} (inside : InTicks price) (reached : index < wing.reach price) :
    InTicks (price + index * wing.stride) := by
  obtain ⟨low, high⟩ := inside
  constructor <;> cases wing <;> simp only [reach, stride] at reached ⊢ <;> omega

end Wing

/-- The next best price is the first occupied tick, or invalid when no tick behind is occupied. -/
theorem nextBest_cases (wing : Wing) (occupied : Int → Bool) {fromPrice : Int}
    (inside : InTicks fromPrice) :
    (nextBest wing occupied fromPrice = kInvalidPrice ∧
      ∀ price, InTicks price → wing.rank fromPrice ≤ wing.rank price → occupied price = false) ∨
    (InTicks (nextBest wing occupied fromPrice) ∧
      occupied (nextBest wing occupied fromPrice) = true ∧
      wing.rank fromPrice ≤ wing.rank (nextBest wing occupied fromPrice) ∧
      ∀ price, InTicks price → wing.rank fromPrice ≤ wing.rank price →
        wing.rank price < wing.rank (nextBest wing occupied fromPrice) → occupied price = false) := by
  cases result : scan occupied wing.stride (wing.reach fromPrice) fromPrice with
  | none =>
      left
      constructor
      · rw [nextBest, result]
        rfl
      · intro price within behind
        obtain ⟨index, reached, rfl⟩ := Wing.reach_of_inTicks within behind
        exact scan_eq_none.mp result index reached
  | some found =>
      right
      have equal : nextBest wing occupied fromPrice = found := by rw [nextBest, result]; rfl
      obtain ⟨index, reached, place, here, earlier⟩ := scan_eq_some result
      rw [equal]
      refine ⟨place ▸ Wing.inTicks_of_reach inside reached, here, ?_, ?_⟩
      · rw [place, Wing.rank_stride]
        omega
      · intro price within behind before
        obtain ⟨other, _, rfl⟩ := Wing.reach_of_inTicks within behind
        rw [place, Wing.rank_stride, Wing.rank_stride] at before
        exact earlier other (by omega)

end OrderEngine
