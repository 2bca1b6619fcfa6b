import Mathlib.Logic.Function.Basic
import Mathlib.Tactic

namespace OrderEngine.Library

/-- A queue lists its entries by name and by what remains of each, the oldest first. -/
abbrev Queue (Name : Type) := List (Name × Nat)

/-- This is what a demand takes, where it takes it, and what it leaves. -/
structure Swept (Level Name : Type) where
  taken : List (Level × Name × Nat)
  queues : Level → Queue Name
  wanted : Nat

section Sweep

variable {Level Name : Type} [DecidableEq Level]

/-- A demand takes the entries of a queue in order, the last one perhaps in part. -/
def consume : Nat → Queue Name → List (Name × Nat) × Queue Name × Nat
  | wanted, [] => ([], [], wanted)
  | wanted, (name, remaining) :: rest =>
      if wanted = 0 then ([], (name, remaining) :: rest, 0)
      else if remaining ≤ wanted then
        let (taken, left, wanted) := consume (wanted - remaining) rest
        ((name, remaining) :: taken, left, wanted)
      else ([(name, wanted)], (name, remaining - wanted) :: rest, 0)

/-- A demand visits the levels in order and takes what it can from each. -/
def sweep (queues : Level → Queue Name) : List Level → Nat → Swept Level Name
  | [], wanted => ⟨[], queues, wanted⟩
  | level :: levels, wanted =>
      let (taken, left, wanted) := consume wanted (queues level)
      let later := sweep (Function.update queues level left) levels wanted
      { later with taken := taken.map (fun entry => (level, entry)) ++ later.taken }

variable {queues : Level → Queue Name} {level : Level} {levels before after : List Level}
  {wanted remaining : Nat} {name : Name} {rest : Queue Name}

@[simp] theorem consume_zero (queue : Queue Name) : consume 0 queue = ([], queue, 0) := by
  cases queue with
  | nil => rfl
  | cons entry rest => rfl

/-- A spent demand changes nothing. -/
@[simp] theorem sweep_zero (queues : Level → Queue Name) (levels : List Level) :
    sweep queues levels 0 = ⟨[], queues, 0⟩ := by
  induction levels with
  | nil => rfl
  | cons level levels ih => simp [sweep, ih]

/-- A demand passes over an empty level. -/
theorem sweep_cons_empty (empty : queues level = []) :
    sweep queues (level :: levels) wanted = sweep queues levels wanted := by
  have same : Function.update queues level [] = queues := by
    rw [← empty, Function.update_eq_self]
  simp [sweep, empty, consume, same]

theorem sweep_append_empty (empty : ∀ level ∈ before, queues level = []) :
    sweep queues (before ++ levels) wanted = sweep queues levels wanted := by
  induction before with
  | nil => rfl
  | cons level before ih =>
      rw [List.cons_append, sweep_cons_empty (empty level (by simp))]
      exact ih fun other member => empty other (by simp [member])

/-- A demand that finds only empty levels changes nothing. -/
theorem sweep_empty (empty : ∀ level ∈ levels, queues level = []) :
    sweep queues levels wanted = ⟨[], queues, wanted⟩ := by
  have whole : sweep queues (levels ++ []) wanted = sweep queues [] wanted := sweep_append_empty empty
  rw [List.append_nil] at whole
  exact whole

/-- The queue of a level after one trade with its first entry. -/
def tradeHead (wanted : Nat) (name : Name) (remaining : Nat) (rest : Queue Name) : Queue Name :=
  if remaining ≤ wanted then rest else (name, remaining - wanted) :: rest

/-- One trade with the first entry, then the rest of the demand, takes what the whole demand takes. -/
theorem consume_head (open_ : wanted ≠ 0) : consume wanted ((name, remaining) :: rest) =
    ((name, min remaining wanted) ::
        (consume (wanted - remaining) (tradeHead wanted name remaining rest)).1,
      (consume (wanted - remaining) (tradeHead wanted name remaining rest)).2) := by
  rw [consume, if_neg open_, tradeHead]
  by_cases covers : remaining ≤ wanted
  · rw [if_pos covers, if_pos covers, min_eq_left covers]
  · have spent : wanted - remaining = 0 := by omega
    rw [if_neg covers, if_neg covers, spent, consume_zero, min_eq_right (by omega)]

/-- A demand begins with the first entry of the first level that is not empty. -/
theorem sweep_head (open_ : wanted ≠ 0) (empty : ∀ other ∈ before, queues other = [])
    (apart : level ∉ before) (head : queues level = (name, remaining) :: rest) :
    sweep queues (before ++ level :: after) wanted =
      let later := sweep (Function.update queues level (tradeHead wanted name remaining rest))
        (before ++ level :: after) (wanted - remaining)
      { later with taken := (level, name, min remaining wanted) :: later.taken } := by
  have emptyAfter : ∀ other ∈ before,
      Function.update queues level (tradeHead wanted name remaining rest) other = [] := by
    intro other member
    rw [Function.update_of_ne]
    · exact empty other member
    · intro equal
      subst equal
      exact apart member
  simp only [sweep_append_empty empty, sweep_append_empty emptyAfter]
  simp only [sweep, head, consume_head open_, Function.update_self, Function.update_idem,
    List.map_cons, List.cons_append]

end Sweep

end OrderEngine.Library
