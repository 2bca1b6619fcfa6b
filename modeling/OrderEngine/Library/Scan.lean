import Mathlib.Tactic

namespace OrderEngine.Library

/-- The scan visits `start`, `start + stride`, and so on, and stops at the first hit. -/
def scan (hit : Int → Bool) (stride : Int) : Nat → Int → Option Int
  | 0, _ => none
  | steps + 1, start => if hit start then some start else scan hit stride steps (start + stride)

/-- The scan misses exactly when no visited position is a hit. -/
theorem scan_eq_none {hit : Int → Bool} {stride : Int} {steps : Nat} {start : Int} :
    scan hit stride steps start = none ↔
      ∀ index : Nat, index < steps → hit (start + index * stride) = false := by
  induction steps generalizing start with
  | zero => simp [scan]
  | succ steps ih =>
      simp only [scan]
      constructor
      · intro missed index inside
        split at missed
        · simp at missed
        · next miss =>
            cases index with
            | zero => simpa using miss
            | succ index =>
                have later := ih.mp missed index (by omega)
                rw [← later]
                congr 1
                push_cast
                ring
      · intro misses
        have first := misses 0 (by omega)
        simp only [Nat.cast_zero, zero_mul, add_zero] at first
        rw [if_neg (by simp [first])]
        apply ih.mpr
        intro index inside
        have later := misses (index + 1) (by omega)
        rw [← later]
        congr 1
        push_cast
        ring

/-- The scan returns the first hit among the visited positions. -/
theorem scan_eq_some {hit : Int → Bool} {stride : Int} {steps : Nat} {start found : Int}
    (result : scan hit stride steps start = some found) :
    ∃ index : Nat, index < steps ∧ found = start + index * stride ∧ hit found = true ∧
      ∀ earlier : Nat, earlier < index → hit (start + earlier * stride) = false := by
  induction steps generalizing start with
  | zero => simp [scan] at result
  | succ steps ih =>
      simp only [scan] at result
      split at result
      · next here =>
          obtain rfl : start = found := by simpa using result
          exact ⟨0, by omega, by simp, here, by omega⟩
      · next miss =>
          obtain ⟨index, inside, place, here, earlierMiss⟩ := ih result
          refine ⟨index + 1, by omega, by rw [place]; push_cast; ring, here, ?_⟩
          intro earlier before
          cases earlier with
          | zero => simpa using miss
          | succ earlier =>
              have later := earlierMiss earlier (by omega)
              rw [← later]
              congr 1
              push_cast
              ring

/-- A map that takes strides to strides carries a scan along. -/
theorem scan_map {hit other : Int → Bool} {stride otherStride : Int} {place : Int → Int}
    (hits : ∀ position, other (place position) = hit position)
    (strides : ∀ position, place (position + stride) = place position + otherStride) (steps : Nat)
    (start : Int) : scan other otherStride steps (place start) = (scan hit stride steps start).map place := by
  induction steps generalizing start with
  | zero => rfl
  | succ steps ih =>
      rw [scan, scan, hits, ← strides, ih]
      split <;> rfl

end OrderEngine.Library
