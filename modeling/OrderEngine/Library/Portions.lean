import OrderEngine.Library.PriceTime

namespace OrderEngine.Library

variable {Level Name : Type} {first second wanted remaining : Nat} {name : Name} {queue : Queue Name}

/-- This much stands in a queue. -/
def standing (queue : Queue Name) : Nat := (queue.map Prod.snd).sum

@[simp] theorem standing_nil : standing ([] : Queue Name) = 0 := rfl

@[simp] theorem standing_cons (entry : Name × Nat) (queue : Queue Name) :
    standing (entry :: queue) = entry.2 + standing queue := List.sum_cons

@[simp] theorem standing_append (queue other : Queue Name) :
    standing (queue ++ other) = standing queue + standing other := by
  unfold standing
  rw [List.map_append, List.sum_append]

section Consume

theorem consume_covers (open_ : wanted ≠ 0) (covers : remaining ≤ wanted) :
    consume wanted ((name, remaining) :: queue) =
      ((name, remaining) :: (consume (wanted - remaining) queue).1, (consume (wanted - remaining) queue).2) := by
  rw [consume, if_neg open_, if_pos covers]

theorem consume_short (open_ : wanted ≠ 0) (short : ¬ remaining ≤ wanted) :
    consume wanted ((name, remaining) :: queue) = ([(name, wanted)], (name, remaining - wanted) :: queue, 0) := by
  rw [consume, if_neg open_, if_neg short]

/-- A demand that is not met has emptied the queue. -/
theorem consume_unmet (unmet : (consume wanted queue).2.2 ≠ 0) : (consume wanted queue).2.1 = [] := by
  induction queue generalizing wanted with
  | nil => rfl
  | cons entry queue ih =>
      obtain ⟨name, remaining⟩ := entry
      by_cases open_ : wanted = 0
      · subst open_
        rw [consume_zero] at unmet
        exact absurd rfl unmet
      · by_cases covers : remaining ≤ wanted
        · rw [consume_covers open_ covers] at unmet ⊢
          exact ih unmet
        · rw [consume_short open_ covers] at unmet
          exact absurd rfl unmet

/-- What a demand takes and what it leaves in the queue are what stood there. -/
theorem consume_standing (wanted : Nat) (queue : Queue Name) :
    standing (consume wanted queue).1 + standing (consume wanted queue).2.1 = standing queue := by
  induction queue generalizing wanted with
  | nil => rfl
  | cons entry queue ih =>
      obtain ⟨name, remaining⟩ := entry
      by_cases open_ : wanted = 0
      · subst open_
        rw [consume_zero]
        exact Nat.zero_add _
      · by_cases covers : remaining ≤ wanted
        · have rest := ih (wanted - remaining)
          rw [consume_covers open_ covers]
          simp only [standing_cons]
          omega
        · rw [consume_short open_ covers]
          simp only [standing_cons, standing_nil]
          omega

/-- A demand leaves a queue as its two portions do in turn. What they still want adds up. -/
theorem consume_add (first second : Nat) (queue : Queue Name) :
    (consume (first + second) queue).2 = ((consume second (consume first queue).2.1).2.1,
      if (consume first queue).2.2 = 0 then (consume second (consume first queue).2.1).2.2
      else (consume first queue).2.2 + second) := by
  induction queue generalizing first with
  | nil =>
      show (([] : List (Name × Nat)), first + second) = ([], if first = 0 then second else first + second)
      split
      · next spent => rw [spent, Nat.zero_add]
      · rfl
  | cons entry queue ih =>
      obtain ⟨name, remaining⟩ := entry
      by_cases none_ : first = 0
      · subst none_
        rw [Nat.zero_add, consume_zero, if_pos rfl]
      · by_cases covers : remaining ≤ first
        · have rest := ih (first - remaining)
          have demand : first + second - remaining = first - remaining + second := by omega
          rw [consume_covers none_ covers, consume_covers (by omega) (by omega), demand]
          exact rest
        · rw [consume_short none_ covers, if_pos rfl]
          by_cases more : second = 0
          · subst more
            rw [Nat.add_zero, consume_short none_ covers, consume_zero]
          · by_cases enough : remaining ≤ first + second
            · have demand : first + second - remaining = second - (remaining - first) := by omega
              rw [consume_covers (by omega) enough, consume_covers more (by omega), demand]
            · have left : remaining - (first + second) = remaining - first - second := by omega
              rw [consume_short (by omega) enough, consume_short more (by omega), left]

end Consume

section Sweep

variable [DecidableEq Level] {queues : Level → Queue Name} {level : Level} {levels : List Level}

/-- A sweep serves its first level and goes on. -/
theorem sweep_cons {left : Queue Name} {more : Nat} (consumed : (consume wanted (queues level)).2 = (left, more)) :
    (sweep queues (level :: levels) wanted).queues = (sweep (Function.update queues level left) levels more).queues ∧
      (sweep queues (level :: levels) wanted).wanted =
        (sweep (Function.update queues level left) levels more).wanted := by
  obtain rfl : (consume wanted (queues level)).2.1 = left := congrArg Prod.fst consumed
  obtain rfl : (consume wanted (queues level)).2.2 = more := congrArg Prod.snd consumed
  exact ⟨rfl, rfl⟩

/-- A sweep fills no level. -/
theorem sweep_keeps_empty (empty : queues level = []) : (sweep queues levels wanted).queues level = [] := by
  induction levels generalizing queues wanted with
  | nil => exact empty
  | cons other levels ih =>
      rw [(sweep_cons rfl).1]
      apply ih
      by_cases same : level = other
      · subst same
        rw [Function.update_self, empty]
        rfl
      · rw [Function.update_of_ne same]
        exact empty

/-- Two sweeps with the portions of a demand leave what one sweep leaves. -/
theorem sweep_add (queues : Level → Queue Name) (levels : List Level) (first second : Nat) :
    let begun := sweep queues levels first
    let rest := sweep begun.queues levels second
    (sweep queues levels (first + second)).queues = rest.queues ∧
      (sweep queues levels (first + second)).wanted = begun.wanted + rest.wanted := by
  intro begun rest
  induction levels generalizing queues first with
  | nil => exact ⟨rfl, rfl⟩
  | cons level levels ih =>
      obtain ⟨start, startWanted⟩ : begun.queues = _ ∧ begun.wanted = _ := sweep_cons rfl
      obtain ⟨whole, wholeWanted⟩ :=
        @sweep_cons _ _ _ _ queues level levels _ _ (consume_add first second (queues level))
      obtain ⟨next, nextWanted⟩ : rest.queues = _ ∧ rest.wanted = _ := sweep_cons rfl
      by_cases spent : (consume first (queues level)).2.2 = 0
      · rw [if_pos spent] at whole wholeWanted
        rw [spent, sweep_zero] at start startWanted
        change begun.queues = Function.update queues level (consume first (queues level)).2.1 at start
        change begun.wanted = 0 at startWanted
        rw [start, Function.update_self, Function.update_idem] at next nextWanted
        rw [whole, wholeWanted, next, nextWanted, startWanted, Nat.zero_add]
        exact ⟨rfl, rfl⟩
      · have gone := consume_unmet spent
        rw [if_neg spent, gone] at whole wholeWanted
        rw [gone] at start startWanted
        have empty : begun.queues level = [] := start ▸ sweep_keeps_empty (Function.update_self ..)
        have kept : Function.update begun.queues level [] = begun.queues := by
          rw [← empty, Function.update_eq_self]
        have nothing : consume second ([] : Queue Name) = ([], [], second) := rfl
        rw [empty, nothing, kept, start] at next nextWanted
        obtain ⟨later, laterWanted⟩ := ih (Function.update queues level []) (consume first (queues level)).2.2
        change (sweep (Function.update queues level []) levels _).queues = _ at later
        rw [whole, wholeWanted, next, nextWanted, startWanted]
        exact ⟨later, laterWanted⟩

/-- A sweep takes from each level what is missing there afterwards. -/
theorem sweep_standing (queues : Level → Queue Name) (levels : List Level) (wanted : Nat) (level : Level) :
    let swept := sweep queues levels wanted
    ((swept.taken.filter fun trade => trade.1 = level).map fun trade => trade.2.2).sum +
      standing (swept.queues level) = standing (queues level) := by
  induction levels generalizing queues wanted with
  | nil => exact Nat.zero_add _
  | cons other levels ih =>
      intro swept
      have here := consume_standing wanted (queues other)
      have later := ih (Function.update queues other (consume wanted (queues other)).2.1)
        (consume wanted (queues other)).2.2
      have taken : swept.taken = (consume wanted (queues other)).1.map (fun entry => (other, entry)) ++ _ := rfl
      have left : swept.queues = _ := (sweep_cons rfl).1
      rw [taken, left, List.filter_append, List.map_append, List.sum_append, List.filter_map, List.map_map]
      by_cases same : other = level
      · subst same
        have all : (consume wanted (queues other)).1.filter
            ((fun trade : Level × Name × Nat => decide (trade.1 = other)) ∘ fun entry => (other, entry)) =
              (consume wanted (queues other)).1 := by
          rw [List.filter_eq_self]
          exact fun _ _ => decide_eq_true rfl
        rw [Function.update_self] at later
        rw [all, Nat.add_assoc, later]
        exact here
      · have none_ : (consume wanted (queues other)).1.filter
            ((fun trade : Level × Name × Nat => decide (trade.1 = level)) ∘ fun entry => (other, entry)) = [] := by
          rw [List.filter_eq_nil_iff]
          exact fun _ _ here => same (of_decide_eq_true here)
        rw [Function.update_of_ne (Ne.symm same)] at later
        rw [none_, List.map_nil, List.sum_nil, Nat.zero_add]
        exact later

end Sweep

end OrderEngine.Library
