import Mathlib.Algebra.BigOperators.Group.List.Basic
import Mathlib.Data.UInt
import Mathlib.Tactic

namespace OrderEngine.Library

/-- The smaller of two words is one of them. -/
theorem word_min_cases (first second : UInt64) :
    min first second = first ∧ first ≤ second ∨ min first second = second ∧ second < first := by
  by_cases less : first ≤ second
  · exact .inl ⟨if_pos less, less⟩
  · exact .inr ⟨if_neg less, UInt64.not_le.mp less⟩

theorem word_min_le (first second : UInt64) :
    min first second ≤ first ∧ min first second ≤ second := by
  rcases word_min_cases first second with ⟨same, less⟩ | ⟨same, less⟩
  · rw [same]
    exact ⟨UInt64.le_refl _, less⟩
  · rw [same]
    exact ⟨UInt64.le_of_lt less, UInt64.le_refl _⟩

theorem word_min_toNat (first second : UInt64) :
    (min first second).toNat = min first.toNat second.toNat := by
  rcases word_min_cases first second with ⟨same, less⟩ | ⟨same, less⟩
  · rw [same, min_eq_left (UInt64.le_iff_toNat_le.mp less)]
  · rw [same, min_eq_right (Nat.le_of_lt (UInt64.lt_iff_toNat_lt.mp less))]

section Bounded

variable {part amount whole : UInt64}

/-- An amount that fits in the rest of the whole does not wrap. -/
theorem toNat_add_of_fits (inside : part ≤ whole) (fits : amount ≤ whole - part) :
    (part + amount).toNat = part.toNat + amount.toNat := by
  rw [UInt64.le_iff_toNat_le] at inside fits
  rw [UInt64.toNat_sub_of_le _ _ (UInt64.le_iff_toNat_le.mpr inside)] at fits
  have bounded := whole.toNat_lt
  rw [UInt64.toNat_add]
  omega

theorem add_le_of_fits (inside : part ≤ whole) (fits : amount ≤ whole - part) :
    part + amount ≤ whole := by
  rw [UInt64.le_iff_toNat_le, toNat_add_of_fits inside fits]
  rw [UInt64.le_iff_toNat_le] at inside fits
  rw [UInt64.toNat_sub_of_le _ _ (UInt64.le_iff_toNat_le.mpr inside)] at fits
  omega

/-- A sum that does not wrap is no smaller than its first part. -/
theorem le_add_of_toNat_lt (exact : part.toNat + amount.toNat < 2 ^ 64) : part ≤ part + amount := by
  rw [UInt64.le_iff_toNat_le, UInt64.toNat_add, Nat.mod_eq_of_lt exact]
  exact Nat.le_add_right _ _

theorem le_add_of_fits (inside : part ≤ whole) (fits : amount ≤ whole - part) :
    part ≤ part + amount := by
  rw [UInt64.le_iff_toNat_le, toNat_add_of_fits inside fits]
  omega

/-- The rest shrinks by the amount that is taken from it. -/
theorem toNat_rest_of_fits (inside : part ≤ whole) (fits : amount ≤ whole - part) :
    (whole - (part + amount)).toNat = (whole - part).toNat - amount.toNat := by
  rw [UInt64.toNat_sub_of_le _ _ (add_le_of_fits inside fits), toNat_add_of_fits inside fits,
    UInt64.toNat_sub_of_le _ _ inside]
  omega

end Bounded

section Sums

open scoped UInt64.CommRing

variable {Item : Type} {value : Item → UInt64} {items : List Item} {item : Item}

/-- A sum of words is the sum of the numbers modulo the number of words. -/
theorem word_sum_toNat (value : Item → UInt64) (items : List Item) :
    (items.map value).sum.toNat = (items.map fun item => (value item).toNat).sum % 2 ^ 64 := by
  induction items with
  | nil => rfl
  | cons item items ih =>
      rw [List.map_cons, List.sum_cons, List.map_cons, List.sum_cons, UInt64.toNat_add, ih]
      omega

theorem word_sum_erase [DecidableEq Item] (member : item ∈ items) :
    ((items.erase item).map value).sum = (items.map value).sum - value item := by
  rw [← List.sum_map_erase value member]
  ring

theorem word_sum_append (value : Item → UInt64) (items : List Item) (item : Item) :
    ((items ++ [item]).map value).sum = (items.map value).sum + value item := by
  simp

/-- One item of a sum changes. -/
theorem word_sum_change [DecidableEq Item] {changed : Item → UInt64} (member : item ∈ items) (distinct : items.Nodup)
    (others : ∀ other ∈ items, other ≠ item → changed other = value other) :
    (items.map changed).sum = (items.map value).sum - value item + changed item := by
  have same : (items.erase item).map changed = (items.erase item).map value := by
    apply List.map_congr_left
    intro other inside
    exact others other (List.mem_of_mem_erase inside) (distinct.mem_erase_iff.mp inside).1
  rw [← List.sum_map_erase changed member, same, word_sum_erase member]
  ring

end Sums

end OrderEngine.Library
