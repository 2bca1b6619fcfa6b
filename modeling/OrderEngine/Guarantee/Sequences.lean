import OrderEngine.Library.History
import OrderEngine.Refinement.Lists

namespace OrderEngine

open Library

namespace IntrusiveLists

variable {Owner Node : Type} [DecidableEq Owner] [DecidableEq Node]

section Walks

variable {lists : IntrusiveLists Owner Node} {follow : Links Owner Node → Option (Place Owner Node)}
  {back : Option (Place Owner Node) → Option (Place Owner Node)} {first last : Option (Place Owner Node)}
  {nodes : List Node} {fuel : Nat}

/-- A loop with enough fuel visits the nodes of a segment and stops behind them. -/
theorem visit_of_segment (sentinel : Place Owner Node)
    (linked : Segment (fun place => place.bind fun place => follow (lists.links place)) back first (cells nodes) last)
    (outside : last ∉ cells nodes) (enough : nodes.length ≤ fuel) :
    lists.visit follow last fuel ⟨first.bind fun place => follow (lists.links place), sentinel⟩ = some nodes := by
  induction nodes generalizing first fuel with
  | nil =>
      have arrived : (first.bind fun place => follow (lists.links place)) = last := linked.1
      cases fuel <;> simp [visit, arrived]
  | cons node rest ih =>
      obtain ⟨forward, -, tail⟩ := linked
      simp only [cells, List.map_cons, List.mem_cons, not_or] at outside
      obtain ⟨different, outside⟩ := outside
      cases fuel with
      | zero => simp at enough
      | succ fuel =>
          have later := ih tail outside (by simpa using enough)
          simp only [Option.bind_some] at later
          simp [visit, forward, Ne.symm different, Iterator.deref, advance, later]

end Walks

/-- What the client can observe of each list is the sequence. -/
structure Refines (lists : IntrusiveLists Owner Node) (sequences : Owner → List Node) : Prop where
  forward : ∀ list fuel, (sequences list).length ≤ fuel → lists.forward list fuel = some (sequences list)
  backward : ∀ list fuel, (sequences list).length ≤ fuel → lists.backward list fuel = some (sequences list).reverse
  size : ∀ list, lists.size list = (sequences list).length
  empty : ∀ list, lists.empty list = (sequences list).isEmpty
  front : ∀ list, lists.front list = (sequences list).head?.map Place.node
  back : ∀ list, lists.back list = (sequences list).getLast?.map Place.node

theorem Spells.refines {lists : IntrusiveLists Owner Node} {sequences : Owner → List Node}
    (same : lists.Spells sequences) : lists.Refines sequences := by
  have empty (list : Owner) : lists.empty list = (sequences list).isEmpty := by
    rw [IntrusiveLists.empty, same.size]
    cases sequences list <;> rfl
  constructor
  · intro list fuel enough
    exact visit_of_segment _ (same.linked list) (by simp) enough
  · intro list fuel enough
    have backward := (same.linked list).reverse
    rw [cells, ← List.map_reverse] at backward
    exact visit_of_segment _ backward (by simp) (by simpa using enough)
  · exact same.size
  · exact empty
  · intro list
    have first : (lists.links (.head list)).next = _ := (same.linked list).next_first
    rw [IntrusiveLists.front, empty, first]
    cases sequences list <;> rfl
  · intro list
    have last : (lists.links (.tail list)).prev = _ := (same.linked list).prev_last
    rw [IntrusiveLists.back, empty, last]
    rcases List.eq_nil_or_concat (sequences list) with none | ⟨front, node, parts⟩
    · rw [none]
      rfl
    · simp [parts, cells]

/-- After these calls the links spell the sequences, and the removed nodes that stand in no list have null links. -/
def Tracked (raw : Node → Links Owner Node) (calls : List (ListCall Owner Node)) : Prop :=
  ∃ lists, (init raw).run calls = some lists ∧ lists.Spells (ListCall.sequences calls) ∧
    ∀ list node, ListCall.remove list node ∈ calls → (∀ owner, node ∉ ListCall.sequences calls owner) →
      lists.links (.node node) = {}

theorem tracked_run (raw : Node → Links Owner Node) {calls past : List (ListCall Owner Node)}
    (proper : ∀ past call, past ++ [call] <+: calls → call.Proper (ListCall.sequences past))
    (earlier : past <+: calls) : Tracked raw past := by
  refine always_of_step ?_ ?_ earlier
  · exact ⟨_, rfl, Spells.init raw, by simp⟩
  · rintro past call inside ⟨lists, done, same, cleared⟩
    obtain ⟨after, next, sameAfter, unlinked⟩ := same.call (proper past call inside)
    rw [Tracked, run_append, done, ListCall.sequences_append]
    refine ⟨after, next, sameAfter, fun list node member nowhere => ?_⟩
    rcases unlinked node nowhere with ⟨-, null⟩ | ⟨was, kept⟩
    · exact null
    · rw [kept]
      rcases List.mem_append.mp member with earlier | now
      · exact cleared list node earlier was
      · rw [← List.mem_singleton.mp now] at inside
        exact absurd (proper past _ inside) (was list)

/-- Every list of a client that follows the rules is the sequence of its calls, and a removed node has null
links and may join a list again. -/
theorem lists_refine_sequences (raw : Node → Links Owner Node) (calls : List (ListCall Owner Node))
    (proper : ∀ past call, past ++ [call] <+: calls → call.Proper (ListCall.sequences past)) :
    ∃ lists, (init raw).run calls = some lists ∧ lists.Refines (ListCall.sequences calls) ∧
      (∀ list node, .remove list node ∈ calls → (∀ owner, node ∉ ListCall.sequences calls owner) →
        lists.links (.node node) = {}) ∧
      ∀ past list node, past ++ [.remove list node] <+: calls →
        ∀ owner, node ∉ ListCall.sequences (past ++ [.remove list node]) owner := by
  obtain ⟨lists, done, same, cleared⟩ := tracked_run raw proper List.prefix_rfl
  refine ⟨lists, done, same.refines, cleared, fun past list node inside owner member => ?_⟩
  obtain ⟨before, -, spells, -⟩ := tracked_run raw proper ((List.prefix_append _ _).trans inside)
  rw [ListCall.sequences_append, ListCall.applied] at member
  by_cases here : owner = list
  · subst here
    rw [Function.update_self] at member
    exact (spells.distinct owner).not_mem_erase member
  · rw [Function.update_of_ne here] at member
    exact here (spells.apart member (proper past _ inside))

/-- The only node of one list leaves it and comes back before a new node. -/
theorem lists_refine_sequences_return :
    let calls : List (ListCall Unit Nat) :=
      [.insertBack () 7, .remove () 7, .insertBack () 9, .insertFront () 7]
    ∃ lists, (init fun _ => {}).run calls = some lists ∧ lists.Refines (ListCall.sequences calls) ∧
      (∀ list node, .remove list node ∈ calls → (∀ owner, node ∉ ListCall.sequences calls owner) →
        lists.links (.node node) = {}) ∧
      ∀ past list node, past ++ [.remove list node] <+: calls →
        ∀ owner, node ∉ ListCall.sequences (past ++ [.remove list node]) owner := by
  intro calls
  have first : ListCall.Proper (ListCall.sequences []) (.insertBack () 7) := by
    simp [ListCall.Proper, ListCall.sequences]
  have second : ListCall.Proper (ListCall.sequences [.insertBack () 7]) (.remove () 7) := by
    simp [ListCall.Proper, ListCall.sequences, ListCall.applied]
  have third : ListCall.Proper (ListCall.sequences [.insertBack () 7, .remove () 7]) (.insertBack () 9) := by
    simp [ListCall.Proper, ListCall.sequences, ListCall.applied]
  have fourth : ListCall.Proper (ListCall.sequences [.insertBack () 7, .remove () 7, .insertBack () 9])
      (.insertFront () 7) := by
    simp [ListCall.Proper, ListCall.sequences, ListCall.applied]
  refine lists_refine_sequences (fun _ => {}) calls ?_
  refine forall_past_cons first ?_
  refine forall_past_cons second ?_
  refine forall_past_cons third ?_
  exact forall_past_cons fourth forall_past_nil

end IntrusiveLists

end OrderEngine
