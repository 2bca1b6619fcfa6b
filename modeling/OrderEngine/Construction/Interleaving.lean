import OrderEngine.Construction.SpscQueue

namespace OrderEngine

/-- The producer stands between two atomic steps of `try_push`. -/
inductive ProducerAt (T : Type) where
  | idle
  | loadedTail (item : T) (tail : Nat)
  | checkedHead (item : T) (tail : Nat)
  | wroteItem (item : T) (tail : Nat)
  deriving DecidableEq

/-- The consumer stands between two atomic steps of `try_pop`. -/
inductive ConsumerAt (T : Type) where
  | idle
  | loadedHead (head : Nat)
  | checkedTail (head : Nat)
  | readItem (head : Nat) (item : T)
  deriving DecidableEq

/-- One thread takes its next step, and an idle producer starts to push this item. -/
inductive Turn (T : Type) where
  | producer (item : T)
  | consumer

/-- The logs list the items whose push has stored the tail, the results of the finished pushes and
the results of the finished pops. -/
structure Threads (T : Type) (capacity : Nat) where
  queue : SPSCQueue T capacity
  producer : ProducerAt T
  consumer : ConsumerAt T
  stored : List T
  pushed : List (T × Bool)
  popped : List (Option T)

namespace Threads

open SPSCQueue

variable {T : Type} {capacity : Nat}

def init (raw : T) : Threads T capacity where
  queue := SPSCQueue.init raw
  producer := .idle
  consumer := .idle
  stored := []
  pushed := []
  popped := []

/-- The producer loads the tail, loads the head, writes the item and stores the tail. -/
def producerStep (threads : Threads T capacity) (item : T) : Threads T capacity :=
  match threads.producer with
  | .idle => { threads with producer := .loadedTail item threads.queue.tail }
  | .loadedTail item tail =>
      if (tail + 1) &&& kMask capacity = threads.queue.head then
        { threads with producer := .idle, pushed := threads.pushed ++ [(item, false)] }
      else { threads with producer := .checkedHead item tail }
  | .checkedHead item tail =>
      { threads with queue := threads.queue.writeItem tail item, producer := .wroteItem item tail }
  | .wroteItem item tail =>
      { threads with
        queue := threads.queue.storeTail ((tail + 1) &&& kMask capacity)
        producer := .idle
        stored := threads.stored ++ [item]
        pushed := threads.pushed ++ [(item, true)] }

/-- The consumer loads the head, loads the tail, reads the item and stores the head. -/
def consumerStep (threads : Threads T capacity) : Threads T capacity :=
  match threads.consumer with
  | .idle => { threads with consumer := .loadedHead threads.queue.head }
  | .loadedHead head =>
      if head = threads.queue.tail then
        { threads with consumer := .idle, popped := threads.popped ++ [none] }
      else { threads with consumer := .checkedTail head }
  | .checkedTail head => { threads with consumer := .readItem head (threads.queue.storage head) }
  | .readItem head item =>
      { threads with
        queue := threads.queue.storeHead ((head + 1) &&& kMask capacity)
        consumer := .idle
        popped := threads.popped ++ [some item] }

def step (threads : Threads T capacity) : Turn T → Threads T capacity
  | .producer item => threads.producerStep item
  | .consumer => threads.consumerStep

def run (threads : Threads T capacity) (turns : List (Turn T)) : Threads T capacity :=
  turns.foldl step threads

theorem run_append (threads : Threads T capacity) (past : List (Turn T)) (turn : Turn T) :
    threads.run (past ++ [turn]) = (threads.run past).step turn := by
  simp [run]

/-- These are the items of the pushes that returned true. -/
def pushedItems (threads : Threads T capacity) : List T :=
  (threads.pushed.filter Prod.snd).map Prod.fst

/-- These are the items that the pops returned. -/
def poppedItems (threads : Threads T capacity) : List T := threads.popped.filterMap id

end Threads

end OrderEngine
