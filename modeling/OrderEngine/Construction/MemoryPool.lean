import OrderEngine.Construction.Types
import OrderEngine.Library.ArrayStack

namespace OrderEngine

/-- The free stack holds the free slots in its first `freeTop` cells. -/
structure MemoryPool (T : Type) where
  slots : Ptr → T
  freeStack : Nat → Ptr
  freeTop : Nat

/-- The slots lie one after the other in the storage. -/
def slotAddress (slotSize index : Nat) : Ptr := slotSize * index

/-- The constructor stacks the slots in reverse, so the first slot is served first. -/
def MemoryPool.init {T : Type} (capacity slotSize : Nat) (raw : T) : MemoryPool T where
  slots := fun _ => raw
  freeStack := fun index => slotAddress slotSize (capacity - 1 - index)
  freeTop := capacity

def MemoryPool.available {T : Type} (pool : MemoryPool T) : Nat := pool.freeTop

def MemoryPool.acquire {T : Type} (pool : MemoryPool T) : Option Ptr × MemoryPool T :=
  if pool.freeTop = 0 then (none, pool)
  else
    (some (pool.freeStack (pool.freeTop - 1)), { pool with freeTop := pool.freeTop - 1 })

/-- A release build compiles the three asserts of this function out. -/
def MemoryPool.release {T : Type} (pool : MemoryPool T) (slot : Ptr) : MemoryPool T :=
  { pool with
    freeStack := Function.update pool.freeStack pool.freeTop slot
    freeTop := pool.freeTop + 1 }

def MemoryPool.construct {T : Type} (pool : MemoryPool T) (value : T) :
    Option Ptr × MemoryPool T :=
  match pool.acquire with
  | (none, pool) => (none, pool)
  | (some slot, pool) => (some slot, { pool with slots := Function.update pool.slots slot value })

/-- The destructor of an order is trivial, so the bytes of the slot stay as they are. -/
def MemoryPool.destroy {T : Type} (pool : MemoryPool T) (slot : Ptr) : MemoryPool T :=
  pool.release slot

/-- This list shows the free slots, the next one to serve first. -/
def MemoryPool.free {T : Type} (pool : MemoryPool T) : List Ptr :=
  Library.stack pool.freeStack pool.freeTop

/-- The storage starts at address zero and ends behind the last slot. -/
def MemoryPool.owns {T : Type} (_ : MemoryPool T) (capacity slotSize : Nat) (ptr : Ptr) : Bool :=
  0 ≤ ptr ∧ ptr < slotSize * capacity

/-- These are the three asserts of `release`. -/
def MemoryPool.releaseChecks {T : Type} (pool : MemoryPool T) (capacity slotSize : Nat) : Option Ptr → Bool
  | none => false
  | some ptr => pool.freeTop < capacity && pool.owns capacity slotSize ptr

/-- The compiler gives a type a size and an alignment, and no type is empty. -/
structure TypeLayout where
  size : Nat
  align : Nat
  sized : 0 < size

def kCacheLine : Nat := 64

def TypeLayout.kSlotAlign (layout : TypeLayout) : Nat :=
  if layout.align > kCacheLine then layout.align else kCacheLine

/-- The size of a slot is the size of its value, rounded up to the alignment of the slot. -/
def TypeLayout.slotSize (layout : TypeLayout) : Nat :=
  (layout.size + layout.kSlotAlign - 1) / layout.kSlotAlign * layout.kSlotAlign

/-- A client of the pool makes one of these calls at a time. -/
inductive PoolCall (T : Type) where
  | acquire
  | construct (value : T)
  | release (slot : Ptr)
  | destroy (slot : Ptr)

def MemoryPool.call {T : Type} (pool : MemoryPool T) : PoolCall T → Option Ptr × MemoryPool T
  | .acquire => pool.acquire
  | .construct value => pool.construct value
  | .release slot => (none, pool.release slot)
  | .destroy slot => (none, pool.destroy slot)

/-- The client holds the pointers that it was given and has not given back. -/
structure Lending (T : Type) where
  pool : MemoryPool T
  outstanding : List Ptr

namespace Lending

variable {T : Type}

def init (capacity slotSize : Nat) (raw : T) : Lending T where
  pool := MemoryPool.init capacity slotSize raw
  outstanding := []

def step (lending : Lending T) (call : PoolCall T) : Lending T where
  pool := (lending.pool.call call).2
  outstanding :=
    match call with
    | .acquire | .construct _ => (lending.pool.call call).1.toList ++ lending.outstanding
    | .release slot | .destroy slot => lending.outstanding.erase slot

def run (lending : Lending T) (calls : List (PoolCall T)) : Lending T := calls.foldl step lending

/-- The asserts stop the program at a call that gives back a pointer they refuse. -/
def Checked (capacity slotSize : Nat) (lending : Lending T) : PoolCall T → Prop
  | .release ptr | .destroy ptr => lending.pool.releaseChecks capacity slotSize (some ptr) = true
  | _ => True

instance (capacity slotSize : Nat) (lending : Lending T) : DecidablePred (lending.Checked capacity slotSize)
  | .acquire => isTrue trivial
  | .construct _ => isTrue trivial
  | .release _ => inferInstanceAs (Decidable (_ = _))
  | .destroy _ => inferInstanceAs (Decidable (_ = _))

/-- The client gives back only a pointer that it holds. -/
def Proper (lending : Lending T) : PoolCall T → Prop
  | .release slot | .destroy slot => slot ∈ lending.outstanding
  | _ => True

theorem run_append (lending : Lending T) (past : List (PoolCall T)) (call : PoolCall T) :
    lending.run (past ++ [call]) = (lending.run past).step call := by
  simp [run]

end Lending

end OrderEngine
