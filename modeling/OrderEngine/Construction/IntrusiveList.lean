import Mathlib.Logic.Function.Basic
import Mathlib.Tactic

namespace OrderEngine

/-- A pointer of a list leads to a sentinel of one of the lists or to a node of the client. -/
inductive Place (Owner Node : Type) where
  | head (list : Owner)
  | tail (list : Owner)
  | node (node : Node)
  deriving DecidableEq

/-- The two links of a node use `none` for the null pointer. -/
@[ext] structure Links (Owner Node : Type) where
  next : Option (Place Owner Node) := none
  prev : Option (Place Owner Node) := none

/-- The lists of all owners link nodes of one memory, and each list counts its own nodes. -/
structure IntrusiveLists (Owner Node : Type) where
  links : Place Owner Node → Links Owner Node
  size : Owner → Nat

/-- An iterator also carries the tail sentinel of its list, which no operation of it reads. -/
structure Iterator (Owner Node : Type) where
  cur : Option (Place Owner Node)
  sentinelTail : Place Owner Node

/-- Only a node can be read as an element of the client's type. -/
def Iterator.deref {Owner Node : Type} (iterator : Iterator Owner Node) : Option Node :=
  match iterator.cur with
  | some (.node node) => some node
  | _ => none

/-- A client makes one of these calls at a time. -/
inductive ListCall (Owner Node : Type) where
  | insertFront (list : Owner) (node : Node)
  | insertBack (list : Owner) (node : Node)
  | remove (list : Owner) (node : Node)
  deriving DecidableEq

namespace IntrusiveLists

variable {Owner Node : Type} [DecidableEq Owner] [DecidableEq Node]

/-- The constructor of each list links its two sentinels, and the nodes hold any links. -/
def init (raw : Node → Links Owner Node) : IntrusiveLists Owner Node where
  links
    | .head list => { next := some (.tail list), prev := none }
    | .tail list => { next := none, prev := some (.head list) }
    | .node node => raw node
  size := fun _ => 0

def setNext (lists : IntrusiveLists Owner Node) (place : Place Owner Node) (next : Option (Place Owner Node)) :
    IntrusiveLists Owner Node :=
  { lists with links := Function.update lists.links place { lists.links place with next := next } }

def setPrev (lists : IntrusiveLists Owner Node) (place : Place Owner Node) (prev : Option (Place Owner Node)) :
    IntrusiveLists Owner Node :=
  { lists with links := Function.update lists.links place { lists.links place with prev := prev } }

def setSize (lists : IntrusiveLists Owner Node) (list : Owner) (size : Nat) : IntrusiveLists Owner Node :=
  { lists with size := Function.update lists.size list size }

/-- A call returns nothing where the program follows a null pointer or an assert fails. -/
def insertBack (lists : IntrusiveLists Owner Node) (list : Owner) (node : Node) :
    Option (IntrusiveLists Owner Node) := do
  let prevNode ← (lists.links (.tail list)).prev
  let lists := lists.setNext prevNode (some (.node node))
  let lists := lists.setPrev (.node node) (some prevNode)
  let lists := lists.setNext (.node node) (some (.tail list))
  let lists := lists.setPrev (.tail list) (some (.node node))
  return lists.setSize list (lists.size list + 1)

def insertFront (lists : IntrusiveLists Owner Node) (list : Owner) (node : Node) :
    Option (IntrusiveLists Owner Node) := do
  let nextNode := (lists.links (.head list)).next
  let lists := lists.setNext (.head list) (some (.node node))
  let lists := lists.setPrev (.node node) (some (.head list))
  let lists := lists.setNext (.node node) nextNode
  let lists := lists.setPrev (← nextNode) (some (.node node))
  return lists.setSize list (lists.size list + 1)

/-- The links of the node are read again for each of the two writes to its neighbours. -/
def remove (lists : IntrusiveLists Owner Node) (list : Owner) (node : Node) :
    Option (IntrusiveLists Owner Node) := do
  guard (0 < lists.size list)
  let place := Place.node node
  guard ((lists.links place).prev ≠ none ∧ (lists.links place).next ≠ none)
  let lists := lists.setNext (← (lists.links place).prev) (lists.links place).next
  let lists := lists.setPrev (← (lists.links place).next) (lists.links place).prev
  let lists := lists.setPrev place none
  let lists := lists.setNext place none
  return lists.setSize list (lists.size list - 1)

def empty (lists : IntrusiveLists Owner Node) (list : Owner) : Bool := lists.size list = 0

def front (lists : IntrusiveLists Owner Node) (list : Owner) : Option (Place Owner Node) :=
  if lists.empty list then none else (lists.links (.head list)).next

def back (lists : IntrusiveLists Owner Node) (list : Owner) : Option (Place Owner Node) :=
  if lists.empty list then none else (lists.links (.tail list)).prev

def «begin» (lists : IntrusiveLists Owner Node) (list : Owner) : Iterator Owner Node :=
  ⟨(lists.links (.head list)).next, .tail list⟩

def «end» (_ : IntrusiveLists Owner Node) (list : Owner) : Iterator Owner Node :=
  ⟨some (.tail list), .tail list⟩

/-- The increment follows a link of the place where the iterator stands. -/
def advance (lists : IntrusiveLists Owner Node) (follow : Links Owner Node → Option (Place Owner Node))
    (iterator : Iterator Owner Node) : Option (Iterator Owner Node) :=
  iterator.cur.map fun place => { iterator with cur := follow (lists.links place) }

/-- A range loop visits the element of each iterator before the last one. It returns nothing when it
reads what is no element or when its fuel is spent. -/
def visit (lists : IntrusiveLists Owner Node) (follow : Links Owner Node → Option (Place Owner Node))
    (last : Option (Place Owner Node)) : Nat → Iterator Owner Node → Option (List Node)
  | 0, iterator => if iterator.cur = last then some [] else none
  | fuel + 1, iterator =>
    if iterator.cur = last then some []
    else do
      let node ← iterator.deref
      let rest ← lists.visit follow last fuel (← lists.advance follow iterator)
      return node :: rest

def forward (lists : IntrusiveLists Owner Node) (list : Owner) (fuel : Nat) : Option (List Node) :=
  lists.visit Links.next (lists.end list).cur fuel (lists.begin list)

/-- The walk along `prev` starts at the tail sentinel and ends at the head sentinel. -/
def backward (lists : IntrusiveLists Owner Node) (list : Owner) (fuel : Nat) : Option (List Node) :=
  lists.visit Links.prev (some (.head list)) fuel ⟨(lists.links (.tail list)).prev, .tail list⟩

def call (lists : IntrusiveLists Owner Node) : ListCall Owner Node → Option (IntrusiveLists Owner Node)
  | .insertFront list node => lists.insertFront list node
  | .insertBack list node => lists.insertBack list node
  | .remove list node => lists.remove list node

def run (lists : IntrusiveLists Owner Node) (calls : List (ListCall Owner Node)) :
    Option (IntrusiveLists Owner Node) := calls.foldlM call lists

theorem run_append (lists : IntrusiveLists Owner Node) (past : List (ListCall Owner Node))
    (call : ListCall Owner Node) :
    lists.run (past ++ [call]) = (lists.run past).bind fun after => after.call call := by
  simp [run, List.foldlM_append]

end IntrusiveLists

end OrderEngine
