import OrderEngine.Construction.Interleaving
import OrderEngine.Library.History
import OrderEngine.Refinement.Queue

namespace OrderEngine

open Library

variable {T : Type} {capacity bits : Nat}

/-- The producer's snapshots stay right while only the consumer moves the head. -/
def ProducerAt.Fits (queue : SPSCQueue T capacity) : ProducerAt T → Prop
  | .idle => True
  | .loadedTail _ tail => tail = queue.tail
  | .checkedHead _ tail => tail = queue.tail ∧ queue.size + 1 < capacity
  | .wroteItem item tail => tail = queue.tail ∧ queue.size + 1 < capacity ∧ queue.storage tail = item

/-- The consumer's snapshots stay right while only the producer moves the tail. -/
def ConsumerAt.Fits (queue : SPSCQueue T capacity) : ConsumerAt T → Prop
  | .idle => True
  | .loadedHead head => head = queue.head
  | .checkedTail head => head = queue.head ∧ queue.head ≠ queue.tail
  | .readItem head item => head = queue.head ∧ queue.head ≠ queue.tail ∧ queue.storage head = item

section Snapshots

open SPSCQueue

variable {queue : SPSCQueue T capacity} {producer : ProducerAt T} {consumer : ConsumerAt T}

/-- The producer writes the cell at the tail, and the consumer reads the one at the head. -/
theorem ConsumerAt.Fits.written (fits : consumer.Fits queue) (item : T) :
    consumer.Fits (queue.writeItem queue.tail item) := by
  cases consumer with
  | idle => trivial
  | loadedHead head => exact fits
  | checkedTail head => exact fits
  | readItem head taken =>
      obtain ⟨here, occupied, cell⟩ := fits
      refine ⟨here, occupied, ?_⟩
      rw [← cell]
      apply Function.update_of_ne
      rw [here]
      exact occupied

/-- A queue with items keeps them when the tail moves on. -/
theorem ConsumerAt.Fits.published (fits : consumer.Fits queue) {tail : Nat} (apart : tail ≠ queue.head) :
    consumer.Fits (queue.storeTail tail) := by
  cases consumer with
  | idle => trivial
  | loadedHead head => exact fits
  | checkedTail head => exact ⟨fits.1, apart.symm⟩
  | readItem head taken => exact ⟨fits.1, apart.symm, fits.2.2⟩

/-- A queue with room keeps it when the head moves on. -/
theorem ProducerAt.Fits.released (fits : producer.Fits queue) {head : Nat}
    (smaller : (queue.storeHead head).size ≤ queue.size) : producer.Fits (queue.storeHead head) := by
  cases producer with
  | idle => trivial
  | loadedTail item tail => exact fits
  | checkedHead item tail =>
      obtain ⟨here, room⟩ := fits
      exact ⟨here, by omega⟩
  | wroteItem item tail =>
      obtain ⟨here, room, cell⟩ := fits
      exact ⟨here, by omega, cell⟩

end Snapshots

namespace Threads

open SPSCQueue

variable {threads : Threads T capacity}

/-- The popped items and the queued ones are the items that were stored. -/
structure Inv (threads : Threads T capacity) : Prop where
  valid : threads.queue.Valid
  stored : threads.stored = threads.poppedItems ++ threads.queue.contents
  succeeded : threads.stored = threads.pushedItems
  producer : threads.producer.Fits threads.queue
  consumer : threads.consumer.Fits threads.queue

namespace Inv

theorem init (positive : 0 < capacity) (raw : T) : (Threads.init raw : Threads T capacity).Inv where
  valid := init_valid positive raw
  stored := (init_contents raw).symm
  succeeded := rfl
  producer := trivial
  consumer := trivial

section Steps

variable (inv : threads.Inv) (power : capacity = 2 ^ bits)

include inv power

/-- The tail that the producer is about to store does not meet the head. -/
theorem next_apart (room : threads.queue.size + 1 < capacity) :
    (threads.queue.tail + 1) &&& kMask capacity ≠ threads.queue.head := by
  intro blocked
  have full := (blocked_iff inv.valid power).mp blocked
  omega

theorem producerStep (item : T) : (threads.producerStep item).Inv := by
  have fits := inv.producer
  unfold Threads.producerStep
  split
  · exact { inv with producer := rfl }
  · next own tail place =>
      rw [place] at fits
      obtain rfl := fits
      split
      · exact { inv with
          succeeded := by simpa [pushedItems] using inv.succeeded
          producer := trivial }
      · next free =>
          have notFull := mt (blocked_iff inv.valid power).mpr free
          have room : threads.queue.size + 1 < capacity := Nat.lt_of_le_of_ne (size_lt inv.valid) notFull
          exact { inv with producer := ⟨rfl, room⟩ }
  · next own tail place =>
      rw [place] at fits
      obtain ⟨rfl, room⟩ := fits
      exact {
        valid := ⟨inv.valid.head, inv.valid.tail⟩
        stored := by
          show threads.stored = _ ++ (threads.queue.writeItem threads.queue.tail own).contents
          rw [writeItem_contents inv.valid]
          exact inv.stored
        succeeded := inv.succeeded
        producer := ⟨rfl, room, Function.update_self _ _ _⟩
        consumer := inv.consumer.written own }
  · next own tail place =>
      rw [place] at fits
      obtain ⟨rfl, room, cell⟩ := fits
      exact {
        valid := storeTail_valid inv.valid power threads.queue.tail
        stored := by
          show threads.stored ++ [own] = threads.poppedItems ++ _
          rw [storeTail_contents inv.valid power room, cell, inv.stored, List.append_assoc]
        succeeded := by
          simpa [pushedItems] using inv.succeeded
        producer := trivial
        consumer := inv.consumer.published (inv.next_apart power room) }

theorem consumerStep : threads.consumerStep.Inv := by
  have fits := inv.consumer
  unfold Threads.consumerStep
  split
  · exact { inv with consumer := rfl }
  · next head place =>
      rw [place] at fits
      obtain rfl := fits
      split
      · exact { inv with
          stored := by
            show threads.stored = (threads.popped ++ [none]).filterMap id ++ threads.queue.contents
            rw [List.filterMap_append, show [none].filterMap (id : Option T → Option T) = [] from rfl,
              List.append_nil]
            exact inv.stored
          consumer := trivial }
      · next occupied => exact { inv with consumer := ⟨rfl, occupied⟩ }
  · next head place =>
      rw [place] at fits
      exact { inv with consumer := ⟨fits.1, fits.2, rfl⟩ }
  · next head item place =>
      rw [place] at fits
      obtain ⟨rfl, occupied, cell⟩ := fits
      have taken := storeHead_contents inv.valid power occupied
      have lengths := congrArg List.length taken
      rw [contents, ringItems_length, List.length_cons, contents, ringItems_length] at lengths
      exact {
        valid := storeHead_valid inv.valid power threads.queue.head
        stored := by
          show threads.stored = (threads.popped ++ [some item]).filterMap id ++ _
          rw [List.filterMap_append, inv.stored, taken, cell, List.append_assoc]
          rfl
        succeeded := inv.succeeded
        producer := inv.producer.released (by omega)
        consumer := trivial }

end Steps

theorem run (power : capacity = 2 ^ bits) (large : 2 ≤ capacity) (raw : T) (turns : List (Turn T)) :
    ((Threads.init raw : Threads T capacity).run turns).Inv := by
  induction turns using List.reverseRecOn with
  | nil => exact init (by omega) raw
  | append_singleton past turn ih =>
      rw [run_append]
      cases turn with
      | producer item => exact ih.producerStep power item
      | consumer => exact ih.consumerStep power

end Inv

section Results

variable (inv : threads.Inv) (power : capacity = 2 ^ bits)

include inv

/-- The producer does not write the cell that the consumer is about to read. -/
theorem Inv.write_apart {item : T} {tail head : Nat} (writes : threads.producer = .checkedHead item tail)
    (reads : threads.consumer = .checkedTail head ∨ ∃ taken, threads.consumer = .readItem head taken) :
    tail ≠ head := by
  have producer := inv.producer
  have consumer := inv.consumer
  rw [writes] at producer
  rw [producer.1]
  rcases reads with reads | ⟨taken, reads⟩
  · rw [reads] at consumer
    rw [consumer.1]
    exact consumer.2.symm
  · rw [reads] at consumer
    rw [consumer.1]
    exact consumer.2.1.symm

include power

/-- A push fails at the load of the head, and only when one cell is left. -/
theorem Inv.push_failed {turn : Turn T} {item : T}
    (failed : (threads.step turn).pushed = threads.pushed ++ [(item, false)]) :
    (∃ other tail, turn = .producer other ∧ threads.producer = .loadedTail item tail) ∧
      threads.queue.contents.length + 1 = capacity := by
  have fits := inv.producer
  have longer : threads.pushed ≠ threads.pushed ++ [(item, false)] := by simp
  cases turn with
  | consumer =>
      have same : threads.consumerStep.pushed = threads.pushed := by
        unfold Threads.consumerStep
        split <;> (try split) <;> rfl
      exact absurd (same.symm.trans failed) longer
  | producer other =>
      change (threads.producerStep other).pushed = _ at failed
      unfold Threads.producerStep at failed
      split at failed
      · exact absurd failed longer
      · next own tail place =>
          rw [place] at fits
          obtain rfl := fits
          split at failed
          · next blocked =>
              obtain rfl : own = item := by simpa using List.append_cancel_left failed
              refine ⟨⟨other, _, rfl, place⟩, ?_⟩
              rw [contents, ringItems_length]
              exact (blocked_iff inv.valid power).mp blocked
          · exact absurd failed longer
      · exact absurd failed longer
      · exact absurd (List.append_cancel_left failed) (by simp)

omit power in
/-- A pop fails at the load of the tail, and only when no item is stored. -/
theorem Inv.pop_failed {turn : Turn T}
    (failed : (threads.step turn).popped = threads.popped ++ [none]) :
    (turn = .consumer ∧ ∃ head, threads.consumer = .loadedHead head) ∧ threads.queue.contents = [] := by
  have fits := inv.consumer
  have longer : threads.popped ≠ threads.popped ++ [none] := by simp
  cases turn with
  | producer own =>
      have same : (threads.producerStep own).popped = threads.popped := by
        unfold Threads.producerStep
        split <;> (try split) <;> rfl
      exact absurd (same.symm.trans failed) longer
  | consumer =>
      change threads.consumerStep.popped = _ at failed
      unfold Threads.consumerStep at failed
      split at failed
      · exact absurd failed longer
      · next head place =>
          rw [place] at fits
          obtain rfl := fits
          split at failed
          · next empty => exact ⟨⟨rfl, _, place⟩, (contents_eq_nil inv.valid).mpr empty⟩
          · exact absurd failed longer
      · exact absurd failed longer
      · exact absurd (List.append_cancel_left failed) (by simp)

end Results

/-- The queue is first in, first out under every order of the two threads' steps. -/
theorem fifo_interleaved (power : capacity = 2 ^ bits) (large : 2 ≤ capacity) (raw : T) (turns : List (Turn T)) :
    let threads := (Threads.init raw : Threads T capacity).run turns
    threads.poppedItems <+: threads.stored ∧ threads.stored = threads.pushedItems ∧
      threads.queue.contents = threads.stored.drop threads.poppedItems.length ∧
      threads.queue.contents.length ≤ capacity - 1 ∧
      (∀ item tail head, threads.producer = .checkedHead item tail →
        (threads.consumer = .checkedTail head ∨ ∃ taken, threads.consumer = .readItem head taken) →
          tail ≠ head) ∧
      (∀ turn item, (threads.step turn).pushed = threads.pushed ++ [(item, false)] →
        (∃ other tail, turn = .producer other ∧ threads.producer = .loadedTail item tail) ∧
          threads.queue.contents.length = capacity - 1) ∧
      ∀ turn, (threads.step turn).popped = threads.popped ++ [none] →
        (turn = .consumer ∧ ∃ head, threads.consumer = .loadedHead head) ∧ threads.queue.contents = [] := by
  intro threads
  have inv : threads.Inv := Inv.run power large raw turns
  have bound := size_lt inv.valid
  refine ⟨?_, inv.succeeded, ?_, ?_, ?_, ?_, ?_⟩
  · rw [inv.stored]
    exact List.prefix_append _ _
  · rw [inv.stored, List.drop_left]
  · rw [contents, ringItems_length]
    omega
  · intro item tail head writes reads
    exact inv.write_apart writes reads
  · intro turn item failed
    obtain ⟨loaded, full⟩ := inv.push_failed power failed
    exact ⟨loaded, by omega⟩
  · intro turn failed
    exact inv.pop_failed failed

/-- The producer meets a full ring of two cells while the consumer reads the only item. -/
def crowded : Threads Nat 2 :=
  (Threads.init 0).run [.producer 7, .consumer, .producer 7, .producer 7, .producer 7, .producer 8, .consumer,
    .producer 8, .consumer, .producer 9, .consumer, .producer 9]

theorem fifo_interleaved_crowded :
    crowded.poppedItems = [7] ∧ crowded.pushed = [(7, true), (8, false)] ∧
      crowded.poppedItems <+: crowded.stored ∧ crowded.stored = crowded.pushedItems := by
  have whole := @fifo_interleaved Nat 2 1 rfl (by decide) 0
    [.producer 7, .consumer, .producer 7, .producer 7, .producer 7, .producer 8, .consumer, .producer 8,
      .consumer, .producer 9, .consumer, .producer 9]
  exact ⟨by decide, by decide, whole.1, whole.2.1⟩

end Threads

end OrderEngine
