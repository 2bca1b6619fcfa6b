import OrderEngine.Construction.IntrusiveList
import OrderEngine.Library.Segment

namespace OrderEngine

open Library

namespace ListCall

variable {Owner Node : Type} [DecidableEq Owner] [DecidableEq Node]

/-- On plain sequences an insert prepends or appends its node, and a remove deletes it. -/
def applied (sequences : Owner → List Node) : ListCall Owner Node → Owner → List Node
  | .insertFront list node => Function.update sequences list (node :: sequences list)
  | .insertBack list node => Function.update sequences list (sequences list ++ [node])
  | .remove list node => Function.update sequences list ((sequences list).erase node)

/-- The sequences start empty. -/
def sequences (calls : List (ListCall Owner Node)) : Owner → List Node := calls.foldl applied fun _ => []

/-- The client inserts a node that no list links, and it removes a node from the list that links it. -/
def Proper (sequences : Owner → List Node) : ListCall Owner Node → Prop
  | .insertFront _ node | .insertBack _ node => ∀ other, node ∉ sequences other
  | .remove list node => node ∈ sequences list

theorem sequences_append (past : List (ListCall Owner Node)) (call : ListCall Owner Node) :
    sequences (past ++ [call]) = call.applied (sequences past) := by
  simp [sequences]

end ListCall

namespace IntrusiveLists

variable {Owner Node : Type}

/-- Following `next` from the null pointer leads nowhere. -/
def next (lists : IntrusiveLists Owner Node) (place : Option (Place Owner Node)) : Option (Place Owner Node) :=
  place.bind fun place => (lists.links place).next

def prev (lists : IntrusiveLists Owner Node) (place : Option (Place Owner Node)) : Option (Place Owner Node) :=
  place.bind fun place => (lists.links place).prev

/-- These are the pointers to the nodes of a sequence. -/
def cells (nodes : List Node) : List (Option (Place Owner Node)) := nodes.map fun node => some (.node node)

section Cells

variable {nodes : List Node} {list : Owner} {node : Node}

theorem mem_cells {place : Option (Place Owner Node)} :
    place ∈ cells nodes ↔ ∃ node ∈ nodes, place = some (.node node) := by
  simp [cells, eq_comm]

@[simp] theorem node_mem_cells : some (Place.node node) ∈ (cells nodes : List (Option (Place Owner Node))) ↔
    node ∈ nodes := by
  simp [cells]

@[simp] theorem head_not_mem_cells : some (Place.head list) ∉ (cells nodes : List (Option (Place Owner Node))) := by
  simp [cells]

@[simp] theorem tail_not_mem_cells : some (Place.tail list) ∉ (cells nodes : List (Option (Place Owner Node))) := by
  simp [cells]

theorem cells_nodup (distinct : nodes.Nodup) : (cells nodes : List (Option (Place Owner Node))).Nodup := by
  apply distinct.map
  intro first second same
  simpa using same

/-- No pointer on the way from the head sentinel is null. -/
theorem place_of_mem_front {place : Option (Place Owner Node)}
    (member : place ∈ some (.head list) :: cells nodes) : ∃ found, place = some found := by
  rcases List.mem_cons.mp member with first | inside
  · exact ⟨_, first⟩
  · obtain ⟨node, -, found⟩ := mem_cells.mp inside
    exact ⟨_, found⟩

theorem place_of_mem_rear {place : Option (Place Owner Node)}
    (member : place ∈ cells nodes ++ [some (.tail list)]) : ∃ found, place = some found := by
  rcases List.mem_append.mp member with inside | last
  · obtain ⟨node, -, found⟩ := mem_cells.mp inside
    exact ⟨_, found⟩
  · exact ⟨_, List.mem_singleton.mp last⟩

end Cells

/-- The links of every list spell its sequence between its two sentinels, and no two lists share a node. -/
structure Spells (lists : IntrusiveLists Owner Node) (sequences : Owner → List Node) : Prop where
  linked : ∀ list, Segment lists.next lists.prev (some (.head list)) (cells (sequences list)) (some (.tail list))
  distinct : ∀ list, (sequences list).Nodup
  apart : ∀ {list other node}, node ∈ sequences list → node ∈ sequences other → list = other
  size : ∀ list, lists.size list = (sequences list).length

/-- A call may write to the sentinels of its list, to the nodes of the list and to its own node. -/
def Near (sequences : Owner → List Node) (list : Owner) (node : Node) (place : Option (Place Owner Node)) : Prop :=
  place = some (.head list) ∨ place = some (.tail list) ∨ place ∈ cells (node :: sequences list)

section Near

variable {sequences : Owner → List Node} {list : Owner} {node : Node} {nodes : List Node}
  {place : Option (Place Owner Node)}

theorem Near.own : Near sequences list node (some (.node node)) := .inr (.inr List.mem_cons_self)

/-- The places between the head sentinel and the node of a call are near it. -/
theorem Near.of_front (member : place ∈ some (.head list) :: cells nodes) (inside : nodes ⊆ sequences list) :
    Near sequences list node place := by
  rcases List.mem_cons.mp member with first | found
  · exact .inl first
  · exact .inr (.inr (List.mem_cons_of_mem _ (List.map_subset _ inside found)))

theorem Near.of_rear (member : place ∈ cells nodes ++ [some (.tail list)]) (inside : nodes ⊆ sequences list) :
    Near sequences list node place := by
  rcases List.mem_append.mp member with found | last
  · exact .inr (.inr (List.mem_cons_of_mem _ (List.map_subset _ inside found)))
  · exact .inr (.inl (List.mem_singleton.mp last))

theorem Near.ne {other : Option (Place Owner Node)} (near : Near sequences list node other)
    (far : ¬ Near sequences list node place) : place ≠ other := by
  rintro rfl
  exact far near

end Near

/-- A call links its own list anew, counts its nodes and changes no links far from it. -/
structure Relinked [DecidableEq Owner] (lists : IntrusiveLists Owner Node) (sequences : Owner → List Node)
    (list : Owner) (node : Node) (nodes : List Node) (after : IntrusiveLists Owner Node) : Prop where
  linked : Segment after.next after.prev (some (.head list)) (cells nodes) (some (.tail list))
  size : after.size = Function.update lists.size list nodes.length
  kept : ∀ place, ¬ Near sequences list node place →
    after.next place = lists.next place ∧ after.prev place = lists.prev place

/-- A node that the call leaves unlinked was unlinked, and it keeps its links. -/
theorem Relinked.untouched [DecidableEq Owner] {lists after : IntrusiveLists Owner Node}
    {sequences : Owner → List Node} {list : Owner} {node other : Node} {nodes : List Node}
    (relinked : Relinked lists sequences list node nodes after)
    (stays : other ∈ node :: sequences list → other ∈ nodes)
    (unlinked : ∀ owner, other ∉ Function.update sequences list nodes owner) :
    (∀ owner, other ∉ sequences owner) ∧ after.links (.node other) = lists.links (.node other) := by
  have outside : other ∉ nodes := by simpa using unlinked list
  have was (owner : Owner) : other ∉ sequences owner := by
    intro member
    by_cases here : owner = list
    · subst here
      exact outside (stays (List.mem_cons_of_mem _ member))
    · apply unlinked owner
      rw [Function.update_of_ne here]
      exact member
  have far : ¬ Near sequences list node (some (.node other)) := by
    simpa [Near] using fun member => outside (stays member)
  refine ⟨was, ?_⟩
  obtain ⟨onward, back⟩ := relinked.kept _ far
  exact Links.ext onward back

/-- New lists link only their sentinels. -/
theorem Spells.init (raw : Node → Links Owner Node) :
    (IntrusiveLists.init raw : IntrusiveLists Owner Node).Spells fun _ => [] where
  linked := fun _ => ⟨rfl, rfl⟩
  distinct := fun _ => List.nodup_nil
  apart := fun member => absurd member List.not_mem_nil
  size := fun _ => rfl

variable [DecidableEq Owner]

section Size

variable (lists : IntrusiveLists Owner Node) (list : Owner) (size : Nat)

@[simp] theorem setSize_next : (lists.setSize list size).next = lists.next := rfl

@[simp] theorem setSize_prev : (lists.setSize list size).prev = lists.prev := rfl

@[simp] theorem setSize_size : (lists.setSize list size).size = Function.update lists.size list size := rfl

end Size

namespace Spells

variable {lists after : IntrusiveLists Owner Node} {sequences : Owner → List Node} {list : Owner} {node : Node}
  {nodes : List Node}

/-- The other lists stay as they are. -/
theorem relink (same : lists.Spells sequences) (relinked : Relinked lists sequences list node nodes after)
    (distinct : nodes.Nodup)
    (members : ∀ other ∈ nodes, other ∈ sequences list ∨ ∀ owner, other ∉ sequences owner)
    (fresh : ∀ owner, node ∈ sequences owner → owner = list) :
    after.Spells (Function.update sequences list nodes) where
  linked := by
    intro other
    by_cases here : other = list
    · rw [here, Function.update_self]
      exact relinked.linked
    · rw [Function.update_of_ne here]
      have far {place : Option (Place Owner Node)} (inside : place ∈ cells (sequences other)) :
          ¬ Near sequences list node place := by
        obtain ⟨member, own, rfl⟩ := mem_cells.mp inside
        rintro (first | last | inList)
        · simp at first
        · simp at last
        · rcases List.mem_cons.mp (node_mem_cells.mp inList) with itself | theirs
          · exact here (fresh other (itself ▸ own))
          · exact here (same.apart own theirs)
      apply (same.linked other).frame
      · intro place member
        rcases List.mem_cons.mp member with rfl | inside
        · exact (relinked.kept _ (by simp [Near, here])).1
        · exact (relinked.kept _ (far inside)).1
      · intro place member
        rcases List.mem_append.mp member with inside | last
        · exact (relinked.kept _ (far inside)).2
        · rw [List.mem_singleton.mp last]
          exact (relinked.kept _ (by simp [Near, here])).2
  distinct := by
    intro other
    by_cases here : other = list
    · rw [here, Function.update_self]
      exact distinct
    · rw [Function.update_of_ne here]
      exact same.distinct other
  apart := by
    intro first second member here there
    have split {owner : Owner} (inside : member ∈ Function.update sequences list nodes owner) :
        owner = list ∧ member ∈ nodes ∨ owner ≠ list ∧ member ∈ sequences owner := by
      by_cases own : owner = list
      · rw [own, Function.update_self] at inside
        exact .inl ⟨own, inside⟩
      · rw [Function.update_of_ne own] at inside
        exact .inr ⟨own, inside⟩
    rcases split here with ⟨rfl, inFirst⟩ | ⟨otherFirst, inFirst⟩
    · rcases split there with ⟨rfl, -⟩ | ⟨otherSecond, inSecond⟩
      · rfl
      · rcases members member inFirst with old | never
        · exact same.apart old inSecond
        · exact absurd inSecond (never second)
    · rcases split there with ⟨rfl, inSecond⟩ | ⟨otherSecond, inSecond⟩
      · rcases members member inSecond with old | never
        · exact same.apart inFirst old
        · exact absurd inFirst (never first)
      · exact same.apart inFirst inSecond
  size := by
    intro other
    rw [relinked.size, Function.update_apply, Function.update_apply]
    split
    · rfl
    · exact same.size other

end Spells

variable [DecidableEq Node]

section Writes

variable (lists : IntrusiveLists Owner Node) (place : Place Owner Node) (link : Option (Place Owner Node))

/-- A write changes what the links show at its own place only. -/
theorem follow_update (links : Place Owner Node → Links Owner Node) (written : Links Owner Node)
    (follow : Links Owner Node → Option (Place Owner Node)) :
    (fun other : Option (Place Owner Node) =>
        other.bind fun other => follow (Function.update links place written other)) =
      Function.update (fun other => other.bind fun other => follow (links other)) (some place) (follow written) := by
  funext other
  cases other with
  | none => rfl
  | some other =>
      by_cases same : other = place
      · rw [same, Function.update_self, Option.bind_some, Function.update_self]
      · rw [Function.update_of_ne (by simpa using same), Option.bind_some, Function.update_of_ne same,
          Option.bind_some]

@[simp] theorem setNext_next : (lists.setNext place link).next = Function.update lists.next (some place) link :=
  follow_update place lists.links _ Links.next

@[simp] theorem setNext_prev : (lists.setNext place link).prev = lists.prev :=
  (follow_update place lists.links _ Links.prev).trans (Function.update_eq_self (some place) lists.prev)

@[simp] theorem setPrev_prev : (lists.setPrev place link).prev = Function.update lists.prev (some place) link :=
  follow_update place lists.links _ Links.prev

@[simp] theorem setPrev_next : (lists.setPrev place link).next = lists.next :=
  (follow_update place lists.links _ Links.next).trans (Function.update_eq_self (some place) lists.next)

@[simp] theorem setNext_size : (lists.setNext place link).size = lists.size := rfl

@[simp] theorem setPrev_size : (lists.setPrev place link).size = lists.size := rfl

end Writes

namespace Spells

variable {lists : IntrusiveLists Owner Node} {sequences : Owner → List Node} {list : Owner} {node : Node}

section Insert

variable (same : lists.Spells sequences) (fresh : ∀ other, node ∉ sequences other)

include same fresh

/-- The new node stands between the old last place and the tail sentinel. -/
theorem insertBack : ∃ after, lists.insertBack list node = some after ∧
    Relinked lists sequences list node (sequences list ++ [node]) after := by
  have linked := same.linked list
  have inside : lists.prev (some (.tail list)) ∈ some (.head list) :: cells (sequences list) :=
    linked.prev_last ▸ List.getLast_mem _
  obtain ⟨before, found⟩ := place_of_mem_front inside
  have joined := linked.insertLast (some (.node node)) (by simpa using cells_nodup (same.distinct list))
    (by simp) (by simp) (by simpa using fresh list) (by simp)
  rw [found] at inside joined
  have beside : some before ≠ some (Place.node node) := by
    intro equal
    rw [equal] at inside
    simp [fresh list] at inside
  have start : (lists.links (.tail list)).prev = some before := found
  refine ⟨_, by rw [IntrusiveLists.insertBack, start]; rfl, ?_⟩
  constructor
  · simp only [setSize_next, setSize_prev, setPrev_next, setPrev_prev, setNext_next, setNext_prev]
    rw [Function.update_comm beside]
    simpa [cells] using joined
  · simp [same.size]
  · intro place far
    have notBefore : place ≠ some before := (Near.of_front inside (List.Subset.refl _)).ne far
    have notNode : place ≠ some (.node node) := Near.own.ne far
    have notTail : place ≠ some (.tail list) := Near.ne (.inr (.inl rfl)) far
    simp [notBefore, notNode, notTail]

/-- The new node stands between the head sentinel and the old first place. -/
theorem insertFront : ∃ after, lists.insertFront list node = some after ∧
    Relinked lists sequences list node (node :: sequences list) after := by
  have linked := same.linked list
  have inside : lists.next (some (.head list)) ∈ cells (sequences list) ++ [some (.tail list)] :=
    linked.next_first ▸ List.head_mem _
  obtain ⟨following, found⟩ := place_of_mem_rear inside
  have joined := linked.insertFirst (some (.node node)) (by simpa using cells_nodup (same.distinct list))
    (by simp) (by simp) (by simpa using fresh list) (by simp)
  rw [found] at inside joined
  have start : (lists.links (.head list)).next = some following := found
  refine ⟨_, by rw [IntrusiveLists.insertFront, start]; rfl, ?_⟩
  constructor
  · simp only [setSize_next, setSize_prev, setPrev_next, setPrev_prev, setNext_next, setNext_prev]
    rw [Function.update_comm (by simp : some (Place.head list) ≠ some (Place.node node))]
    exact joined
  · simp [same.size]
  · intro place far
    have notFollowing : place ≠ some following := (Near.of_rear inside (List.Subset.refl _)).ne far
    have notNode : place ≠ some (.node node) := Near.own.ne far
    have notHead : place ≠ some (.head list) := Near.ne (.inl rfl) far
    simp [notFollowing, notNode, notHead]

end Insert

/-- The neighbours of the node become neighbours, and the node keeps no link. -/
theorem remove (same : lists.Spells sequences) (member : node ∈ sequences list) :
    ∃ after, lists.remove list node = some after ∧
      Relinked lists sequences list node ((sequences list).erase node) after ∧
        after.links (.node node) = {} := by
  have linked := same.linked list
  have distinct := same.distinct list
  obtain ⟨front, rear, parts⟩ := List.append_of_mem member
  have shape : (cells (sequences list) : List (Option (Place Owner Node))) =
      cells front ++ some (.node node) :: cells rear := by simp [cells, parts]
  rw [parts, List.nodup_middle, List.nodup_cons, List.mem_append, not_or] at distinct
  obtain ⟨⟨notFront, notRear⟩, -⟩ := distinct
  have erased : (sequences list).erase node = front ++ rear := by
    rw [parts, List.erase_append_right _ notFront, List.erase_cons_head]
  have whole : (cells (sequences list) : List (Option (Place Owner Node))).Nodup :=
    cells_nodup (same.distinct list)
  rw [shape] at linked whole
  obtain ⟨toNode, fromNode⟩ := Segment.split.mp linked
  have backInside : lists.prev (some (.node node)) ∈ some (.head list) :: cells front :=
    toNode.prev_last ▸ List.getLast_mem _
  have onInside : lists.next (some (.node node)) ∈ cells rear ++ [some (.tail list)] :=
    fromNode.next_first ▸ List.head_mem _
  obtain ⟨before, back⟩ := place_of_mem_front backInside
  obtain ⟨following, onward⟩ := place_of_mem_rear onInside
  have unlinked := linked.unlink (List.nodup_cons.mpr ⟨by simp, whole⟩) (by simp)
  rw [back] at backInside
  rw [onward] at onInside
  rw [back, onward] at unlinked
  have besideBefore : before ≠ .node node := by
    rintro rfl
    simp [notFront] at backInside
  have besideFollowing : following ≠ .node node := by
    rintro rfl
    simp [notRear] at onInside
  have positive : 0 < lists.size list := by
    rw [same.size]
    exact List.length_pos_of_mem member
  have backLink : (lists.links (.node node)).prev = some before := back
  have onLink : (lists.links (.node node)).next = some following := onward
  -- The first write leaves the links of the node itself as they were.
  have again : (lists.setNext before (some following)).links (.node node) = lists.links (.node node) :=
    Function.update_of_ne besideBefore.symm _ _
  have done : lists.remove list node = some
      (((((lists.setNext before (some following)).setPrev following (some before)).setPrev (.node node) none).setNext
        (.node node) none).setSize list (lists.size list - 1)) := by
    simp [IntrusiveLists.remove, positive, backLink, onLink, again]
  refine ⟨_, done, ⟨?_, ?_, ?_⟩, ?_⟩
  · simp only [setSize_next, setSize_prev, setPrev_next, setPrev_prev, setNext_next, setNext_prev]
    rw [erased]
    simpa [cells] using unlinked.frame_outside (by simp [notFront, notRear]) (by simp [notFront, notRear]) none none
  · simp [List.length_erase_of_mem member, same.size]
  · intro place far
    have notBefore : place ≠ some before := (Near.of_front backInside (by simp [parts])).ne far
    have notFollowing : place ≠ some following := (Near.of_rear onInside (by simp [parts])).ne far
    have notNode : place ≠ some (.node node) := Near.own.ne far
    simp [notBefore, notFollowing, notNode]
  · simp [setSize, setNext, setPrev]

/-- Each call succeeds and does what it does to the sequences. It leaves the links of an unlinked node
alone, and the node that it removes gets null links. -/
theorem call {call : ListCall Owner Node} (same : lists.Spells sequences) (proper : call.Proper sequences) :
    ∃ after, lists.call call = some after ∧ after.Spells (call.applied sequences) ∧
      ∀ other, (∀ owner, other ∉ call.applied sequences owner) →
        (∃ list, call = .remove list other) ∧ after.links (.node other) = {} ∨
          (∀ owner, other ∉ sequences owner) ∧ after.links (.node other) = lists.links (.node other) := by
  cases call with
  | insertFront list node =>
      obtain ⟨after, done, relinked⟩ := same.insertFront proper
      refine ⟨after, done, ?_, fun other unlinked => .inr ?_⟩
      · apply same.relink relinked
        · exact List.nodup_cons.mpr ⟨proper list, same.distinct list⟩
        · intro other member
          rcases List.mem_cons.mp member with rfl | old
          · exact .inr proper
          · exact .inl old
        · intro owner member
          exact absurd member (proper owner)
      · exact relinked.untouched id unlinked
  | insertBack list node =>
      obtain ⟨after, done, relinked⟩ := same.insertBack proper
      refine ⟨after, done, ?_, fun other unlinked => .inr ?_⟩
      · apply same.relink relinked
        · rw [List.nodup_append_comm]
          exact List.nodup_cons.mpr ⟨proper list, same.distinct list⟩
        · intro other member
          rcases List.mem_append.mp member with old | new
          · exact .inl old
          · rw [List.mem_singleton.mp new]
            exact .inr proper
        · intro owner member
          exact absurd member (proper owner)
      · exact relinked.untouched (by simp [or_comm]) unlinked
  | remove list node =>
      obtain ⟨after, done, relinked, cleared⟩ := same.remove proper
      refine ⟨after, done, ?_, fun other unlinked => ?_⟩
      · apply same.relink relinked
        · exact (same.distinct list).erase node
        · intro other member
          exact .inl (List.mem_of_mem_erase member)
        · intro owner member
          exact same.apart member proper
      · by_cases here : other = node
        · subst here
          exact .inl ⟨⟨list, rfl⟩, cleared⟩
        · refine .inr (relinked.untouched (fun member => ?_) unlinked)
          have inside := (List.mem_cons.mp member).resolve_left here
          exact (List.mem_erase_of_ne here).mpr inside

end Spells

end IntrusiveLists

end OrderEngine
