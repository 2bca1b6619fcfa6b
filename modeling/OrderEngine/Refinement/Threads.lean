import Mathlib.Logic.Relation
import OrderEngine.Construction.Machine
import OrderEngine.Guarantee.Interleaving

namespace OrderEngine

open Library

variable {T : Type} {capacity bits : Nat}

/-- A producer inside a push carries the item that it was given. -/
def ProducerAt.Holds (item : T) : ProducerAt T → Prop
  | .idle => True
  | .loadedTail own _ => own = item
  | .checkedHead own _ => own = item
  | .wroteItem own _ => own = item

namespace Threads

open SPSCQueue

variable {threads : Threads T capacity}

section Frames

variable (threads) (item : T)

@[simp] theorem producerStep_consumer : (threads.producerStep item).consumer = threads.consumer := by
  unfold producerStep
  split <;> (try split) <;> rfl

@[simp] theorem producerStep_popped : (threads.producerStep item).popped = threads.popped := by
  unfold producerStep
  split <;> (try split) <;> rfl

@[simp] theorem producerStep_poppedItems : (threads.producerStep item).poppedItems = threads.poppedItems := by
  simp [poppedItems]

@[simp] theorem consumerStep_producer : threads.consumerStep.producer = threads.producer := by
  unfold consumerStep
  split <;> (try split) <;> rfl

@[simp] theorem consumerStep_stored : threads.consumerStep.stored = threads.stored := by
  unfold consumerStep
  split <;> (try split) <;> rfl

@[simp] theorem consumerStep_pushed : threads.consumerStep.pushed = threads.pushed := by
  unfold consumerStep
  split <;> (try split) <;> rfl

end Frames

section Alone

/-- A push that no other thread interrupts does what `try_push` does. -/
def wholePush (threads : Threads T capacity) (item : T) : Threads T capacity :=
  { threads with
    queue := (threads.queue.tryPush item).2
    stored := threads.stored ++ if (threads.queue.tryPush item).1 then [item] else []
    pushed := threads.pushed ++ [(item, (threads.queue.tryPush item).1)] }

def wholePop (threads : Threads T capacity) : Threads T capacity :=
  { threads with
    queue := threads.queue.tryPop.2
    popped := threads.popped ++ [threads.queue.tryPop.1] }

@[simp] theorem wholePop_poppedItems (threads : Threads T capacity) :
    threads.wholePop.poppedItems = threads.poppedItems ++ threads.queue.tryPop.1.toList := by
  unfold wholePop poppedItems
  cases threads.queue.tryPop.1 <;> simp

/-- A step inside a push gives no answer yet. -/
def Pushes (item : T) (threads after : Threads T capacity) : Prop :=
  threads.pushResult = none ∧ threads.producerStep item = after

def Pops (threads after : Threads T capacity) : Prop := threads.popResult = none ∧ threads.consumerStep = after

theorem producer_alone (idle : threads.producer = .idle) (item : T) :
    ∃ before, Relation.ReflTransGen (Pushes item) threads before ∧
      before.pushResult = some (threads.queue.tryPush item).1 ∧
        before.producerStep item = threads.wholePush item := by
  obtain ⟨queue, producer, consumer, stored, pushed, popped⟩ := threads
  obtain rfl : producer = .idle := idle
  let stands (place : ProducerAt T) (queue : SPSCQueue T capacity) : Threads T capacity :=
    ⟨queue, place, consumer, stored, pushed, popped⟩
  have loads : Pushes item (stands .idle queue) (stands (.loadedTail item queue.tail) queue) := ⟨rfl, rfl⟩
  by_cases blocked : (queue.tail + 1) &&& kMask capacity = queue.head
  · refine ⟨stands (.loadedTail item queue.tail) queue, .single loads, ?_, ?_⟩
    · simp [stands, Threads.pushResult, tryPush, blocked]
    · simp [stands, Threads.producerStep, wholePush, tryPush, blocked]
  · have checks : Pushes item (stands (.loadedTail item queue.tail) queue)
        (stands (.checkedHead item queue.tail) queue) := by
      simp [stands, Pushes, Threads.pushResult, Threads.producerStep, blocked]
    have writes : Pushes item (stands (.checkedHead item queue.tail) queue)
        (stands (.wroteItem item queue.tail) (queue.writeItem queue.tail item)) := ⟨rfl, rfl⟩
    refine ⟨_, ((Relation.ReflTransGen.single loads).tail checks).tail writes, ?_, ?_⟩
    · simp [stands, Threads.pushResult, tryPush, blocked]
    · simp [stands, Threads.producerStep, wholePush, tryPush, blocked, writeItem, storeTail]

theorem consumer_alone (idle : threads.consumer = .idle) :
    ∃ before, Relation.ReflTransGen Pops threads before ∧ before.popResult = some threads.queue.tryPop.1 ∧
      before.consumerStep = threads.wholePop := by
  obtain ⟨queue, producer, consumer, stored, pushed, popped⟩ := threads
  obtain rfl : consumer = .idle := idle
  let stands (place : ConsumerAt T) : Threads T capacity := ⟨queue, producer, place, stored, pushed, popped⟩
  have loads : Pops (stands .idle) (stands (.loadedHead queue.head)) := ⟨rfl, rfl⟩
  by_cases empty : queue.head = queue.tail
  · refine ⟨stands (.loadedHead queue.head), .single loads, ?_, ?_⟩
    · simp [stands, Threads.popResult, tryPop, empty]
    · simp [stands, Threads.consumerStep, wholePop, tryPop, empty]
  · have checks : Pops (stands (.loadedHead queue.head)) (stands (.checkedTail queue.head)) := by
      simp [stands, Pops, Threads.popResult, Threads.consumerStep, empty]
    have reads : Pops (stands (.checkedTail queue.head)) (stands (.readItem queue.head (queue.storage queue.head))) :=
      ⟨rfl, rfl⟩
    refine ⟨_, ((Relation.ReflTransGen.single loads).tail checks).tail reads, ?_, ?_⟩
    · simp [stands, Threads.popResult, tryPop, empty]
    · simp [stands, Threads.consumerStep, wholePop, tryPop, empty, storeHead]

end Alone

/-- A push that ends has put its item behind the others exactly when one more cell was free. -/
structure Ended (threads : Threads T capacity) (item : T) (answer : Bool) (after : Threads T capacity) : Prop where
  producer : after.producer = .idle
  pushed : after.pushed = threads.pushed ++ [(item, answer)]
  room : answer = decide (threads.queue.contents.length + 1 < capacity)
  contents : after.queue.contents = threads.queue.contents ++ if answer then [item] else []
  stored : after.stored = threads.stored ++ if answer then [item] else []

/-- A step inside a push changes nothing that the consumer can pop. -/
structure Pushing (threads : Threads T capacity) (item : T) (after : Threads T capacity) : Prop where
  producer : after.producer.Holds item
  pushed : after.pushed = threads.pushed
  contents : after.queue.contents = threads.queue.contents
  stored : after.stored = threads.stored

/-- A push takes effect whole at the step that ends it. -/
theorem Inv.push_cases (inv : threads.Inv) (power : capacity = 2 ^ bits) {item : T}
    (holds : threads.producer.Holds item) :
    (threads.pushResult = none ∧ threads.Pushing item (threads.producerStep item)) ∨
      ∃ answer, threads.pushResult = some answer ∧ threads.Ended item answer (threads.producerStep item) := by
  have fits := inv.producer
  have length : threads.queue.contents.length = threads.queue.size := ringItems_length
  unfold Threads.pushResult Threads.producerStep
  cases place : threads.producer with
  | idle => exact .inl ⟨rfl, rfl, rfl, rfl, rfl⟩
  | loadedTail own tail =>
      rw [place] at fits holds
      obtain rfl : own = item := holds
      obtain rfl : tail = threads.queue.tail := fits
      by_cases blocked : (threads.queue.tail + 1) &&& kMask capacity = threads.queue.head
      · have full := (blocked_iff inv.valid power).mp blocked
        simp only [if_pos blocked]
        refine .inr ⟨false, rfl, rfl, rfl, ?_, (List.append_nil _).symm, (List.append_nil _).symm⟩
        rw [length]
        exact (decide_eq_false (by omega)).symm
      · simp only [if_neg blocked]
        exact .inl ⟨trivial, rfl, rfl, rfl, rfl⟩
  | checkedHead own tail =>
      rw [place] at fits holds
      obtain rfl : own = item := holds
      obtain ⟨rfl, -⟩ := fits
      exact .inl ⟨rfl, rfl, rfl, writeItem_contents inv.valid own, rfl⟩
  | wroteItem own tail =>
      rw [place] at fits holds
      obtain rfl : own = item := holds
      obtain ⟨rfl, room, cell⟩ := fits
      refine .inr ⟨true, rfl, rfl, rfl, ?_, ?_, rfl⟩
      · rw [length]
        exact (decide_eq_true room).symm
      · exact (storeTail_contents inv.valid power room).trans (by rw [cell]; rfl)

/-- A pop takes effect whole at the step that ends it. -/
theorem Inv.pop_cases (inv : threads.Inv) (power : capacity = 2 ^ bits) :
    ((threads.popResult = none ∨ threads.popResult = some none ∧ threads.queue.contents = []) ∧
        threads.consumerStep.queue.contents = threads.queue.contents ∧
        threads.consumerStep.poppedItems = threads.poppedItems) ∨
      ∃ item, threads.popResult = some (some item) ∧
        threads.queue.contents = item :: threads.consumerStep.queue.contents ∧
        threads.consumerStep.poppedItems = threads.poppedItems ++ [item] := by
  have fits := inv.consumer
  unfold Threads.popResult Threads.consumerStep
  cases place : threads.consumer with
  | idle => exact .inl ⟨.inl rfl, rfl, rfl⟩
  | loadedHead head =>
      rw [place] at fits
      obtain rfl : head = threads.queue.head := fits
      by_cases empty : threads.queue.head = threads.queue.tail
      · simp only [if_pos empty]
        refine .inl ⟨.inr ⟨trivial, (contents_eq_nil inv.valid).mpr empty⟩, trivial, ?_⟩
        simp [poppedItems]
      · simp only [if_neg empty]
        exact .inl ⟨.inl trivial, trivial, rfl⟩
  | checkedTail head => exact .inl ⟨.inl rfl, rfl, rfl⟩
  | readItem head item =>
      rw [place] at fits
      obtain ⟨rfl, occupied, rfl⟩ := fits
      refine .inr ⟨_, rfl, storeHead_contents inv.valid power occupied, ?_⟩
      simp [poppedItems]

end Threads

end OrderEngine
