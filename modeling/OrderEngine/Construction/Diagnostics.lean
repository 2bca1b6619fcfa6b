import OrderEngine.Construction.Interleaving

namespace OrderEngine

namespace SPSCQueue

/-- `size` loads the tail before the head, and its subtraction wraps as that of a `size_t` does. -/
def sizeReading (capacity tail head : Nat) : Nat := (tail + 2 ^ 64 - head + capacity) % 2 ^ 64 &&& kMask capacity

end SPSCQueue

/-- A push is under way only in the producer's turns, and a pop only in the consumer's. -/
def Turn.byConsumer {T : Type} : Turn T → Bool
  | .producer _ => false
  | .consumer => true

end OrderEngine
