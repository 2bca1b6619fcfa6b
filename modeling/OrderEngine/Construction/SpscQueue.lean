import Mathlib.Logic.Function.Basic
import Mathlib.Tactic

namespace OrderEngine

/-- The head is written by the consumer, and the tail is written by the producer. -/
structure SPSCQueue (T : Type) (capacity : Nat) where
  head : Nat
  tail : Nat
  storage : Nat → T

namespace SPSCQueue

variable {T : Type} {capacity : Nat}

/-- The capacity is a power of two, so this mask wraps an index. -/
def kMask (capacity : Nat) : Nat := capacity - 1

def init (raw : T) : SPSCQueue T capacity where
  head := 0
  tail := 0
  storage := fun _ => raw

/-- A push fails when the next tail meets the head. -/
def tryPush (queue : SPSCQueue T capacity) (item : T) : Bool × SPSCQueue T capacity :=
  let nextTail := (queue.tail + 1) &&& kMask capacity
  if nextTail = queue.head then (false, queue)
  else
    (true, { queue with
      storage := Function.update queue.storage queue.tail item
      tail := nextTail })

/-- A pop fails when the head meets the tail. -/
def tryPop (queue : SPSCQueue T capacity) : Option T × SPSCQueue T capacity :=
  if queue.head = queue.tail then (none, queue)
  else (some (queue.storage queue.head), { queue with head := (queue.head + 1) &&& kMask capacity })

def writeItem (queue : SPSCQueue T capacity) (index : Nat) (item : T) : SPSCQueue T capacity :=
  { queue with storage := Function.update queue.storage index item }

def storeTail (queue : SPSCQueue T capacity) (tail : Nat) : SPSCQueue T capacity :=
  { queue with tail := tail }

def storeHead (queue : SPSCQueue T capacity) (head : Nat) : SPSCQueue T capacity :=
  { queue with head := head }

def full (queue : SPSCQueue T capacity) : Bool := (queue.tail + 1) &&& kMask capacity = queue.head

end SPSCQueue

end OrderEngine
