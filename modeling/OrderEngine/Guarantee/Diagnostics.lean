import OrderEngine.Construction.Diagnostics
import OrderEngine.Refinement.Threads

namespace OrderEngine

open Library

namespace SPSCQueue

variable {T : Type} {capacity bits tail head : Nat}

/-- The wrapped subtraction reads the distance on the ring, since the capacity divides the range of `size_t`. -/
theorem sizeReading_eq (power : capacity = 2 ^ bits) (word : bits ≤ 64) (inside : head < capacity) :
    sizeReading capacity tail head = ringSize capacity head tail := by
  have divides : capacity ∣ 2 ^ 64 := power ▸ Nat.pow_dvd_pow 2 word
  have small : capacity ≤ 2 ^ 64 := Nat.le_of_dvd (Nat.two_pow_pos 64) divides
  have shift : tail + 2 ^ 64 - head + capacity = tail + capacity - head + 2 ^ 64 := by omega
  rw [sizeReading, and_kMask _ power, Nat.mod_mod_of_dvd _ divides, shift, ringSize]
  obtain ⟨times, whole⟩ := divides
  rw [whole, Nat.add_mul_mod_self_left]

end SPSCQueue

namespace Threads

open SPSCQueue

variable {T : Type} {capacity bits : Nat} {threads : Threads T capacity}

/-- The indices count the pops and the pushes on the ring. -/
structure Counts (threads : Threads T capacity) : Prop where
  head : threads.queue.head = threads.poppedItems.length % capacity
  tail : threads.queue.tail = threads.stored.length % capacity

/-- The next index is the remainder of the next count. -/
theorem next_index (power : capacity = 2 ^ bits) (count : Nat) :
    (count % capacity + 1) &&& kMask capacity = (count + 1) % capacity := by
  rw [and_kMask _ power, Nat.mod_add_mod]

theorem Counts.step (counts : threads.Counts) (inv : threads.Inv) (power : capacity = 2 ^ bits) (turn : Turn T) :
    (threads.step turn).Counts := by
  obtain ⟨head, tail⟩ := counts
  cases turn with
  | producer item =>
      have fits := inv.producer
      simp only [Threads.step, Threads.producerStep]
      split
      · exact ⟨head, tail⟩
      · split <;> exact ⟨head, tail⟩
      · exact ⟨head, tail⟩
      · next own index place =>
          rw [place] at fits
          obtain ⟨rfl, -⟩ := fits
          refine ⟨head, ?_⟩
          show (threads.queue.tail + 1) &&& kMask capacity = (threads.stored ++ [own]).length % capacity
          rw [tail, next_index power, List.length_append, List.length_singleton]
  | consumer =>
      have fits := inv.consumer
      simp only [Threads.step, Threads.consumerStep]
      split
      · exact ⟨head, tail⟩
      · split
        · refine ⟨?_, tail⟩
          simpa [poppedItems] using head
        · exact ⟨head, tail⟩
      · exact ⟨head, tail⟩
      · next index item place =>
          rw [place] at fits
          obtain ⟨rfl, -⟩ := fits
          refine ⟨?_, tail⟩
          show (threads.queue.head + 1) &&& kMask capacity =
            ((threads.popped ++ [some item]).filterMap id).length % capacity
          rw [head, next_index power, List.filterMap_append, List.length_append]
          rfl

theorem Counts.run (power : capacity = 2 ^ bits) (large : 2 ≤ capacity) (raw : T) (turns : List (Turn T)) :
    ((Threads.init raw : Threads T capacity).run turns).Counts := by
  induction turns using List.reverseRecOn with
  | nil => exact ⟨(Nat.zero_mod _).symm, (Nat.zero_mod _).symm⟩
  | append_singleton past turn ih =>
      rw [run_append]
      exact ih.step (Inv.run power large raw past) power turn

/-- The size that is read from two loads and the items popped in between make up, on the ring, what the queue held at
the first load. -/
theorem Counts.reading {first second : Threads T capacity} (power : capacity = 2 ^ bits) (word : bits ≤ 64)
    (inv : first.Inv) (counts : first.Counts) (invSecond : second.Inv) (countsSecond : second.Counts)
    (grown : first.poppedItems.length ≤ second.poppedItems.length) :
    (sizeReading capacity first.queue.tail second.queue.head +
      (second.poppedItems.length - first.poppedItems.length)) % capacity = first.queue.contents.length := by
  have held : first.stored.length = first.poppedItems.length + first.queue.contents.length := by
    rw [inv.stored, List.length_append]
  have fits : first.queue.contents.length < capacity := by
    rw [contents, ringItems_length]
    exact size_lt inv.valid
  have index := tail_eq invSecond.valid.head inv.valid.tail
  rw [sizeReading_eq power word invSecond.valid.head]
  generalize ringSize capacity second.queue.head first.queue.tail = size at index ⊢
  rw [countsSecond.head, counts.tail, Nat.mod_add_mod, held] at index
  have shifted : first.poppedItems.length + (size + (second.poppedItems.length - first.poppedItems.length)) ≡
      first.poppedItems.length + first.queue.contents.length [MOD capacity] := by
    rw [Nat.ModEq, ← index]
    congr 1
    omega
  have apart := Nat.ModEq.add_left_cancel' _ shifted
  rwa [Nat.ModEq, Nat.mod_eq_of_lt fits] at apart

end Threads

end OrderEngine
