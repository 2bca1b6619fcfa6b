import Mathlib.Data.List.Nodup
import Mathlib.Logic.Function.Basic
import Mathlib.Tactic

namespace OrderEngine.Library

/-- The links `next` and `prev` lead from `first` through the listed nodes to `last` and back. -/
def Segment {Node : Type} (next prev : Node → Node) : Node → List Node → Node → Prop
  | first, [], last => next first = last ∧ prev last = first
  | first, node :: rest, last =>
      next first = node ∧ prev node = first ∧ Segment next prev node rest last

namespace Segment

variable {Node : Type} {next prev next' prev' : Node → Node} {first last node : Node}
  {before nodes after : List Node}

/-- A segment only reads the successors of its first nodes and the predecessors of its last nodes. -/
theorem frame (segment : Segment next prev first nodes last)
    (nextSame : ∀ other ∈ first :: nodes, next' other = next other)
    (prevSame : ∀ other ∈ nodes ++ [last], prev' other = prev other) :
    Segment next' prev' first nodes last := by
  induction nodes generalizing first with
  | nil =>
      obtain ⟨forward, backward⟩ := segment
      exact ⟨(nextSame first (by simp)).trans forward, (prevSame last (by simp)).trans backward⟩
  | cons node rest ih =>
      obtain ⟨forward, backward, tail⟩ := segment
      refine ⟨(nextSame first (by simp)).trans forward, (prevSame node (by simp)).trans backward, ?_⟩
      exact ih tail (fun other member => nextSame other (List.mem_cons_of_mem _ member))
        (fun other member => prevSame other (List.mem_cons_of_mem _ member))

/-- The links of a node that stands in no segment are free to change. -/
theorem frame_outside [DecidableEq Node] (segment : Segment next prev first nodes last)
    (notFirst : node ∉ first :: nodes) (notLast : node ∉ nodes ++ [last]) (forward backward : Node) :
    Segment (Function.update next node forward) (Function.update prev node backward) first nodes last := by
  apply segment.frame
  · intro other member
    apply Function.update_of_ne
    intro equal
    subst equal
    exact notFirst member
  · intro other member
    apply Function.update_of_ne
    intro equal
    subst equal
    exact notLast member

/-- The first successor is the head of the listed nodes. -/
theorem next_first (segment : Segment next prev first nodes last) :
    next first = (nodes ++ [last]).head (by simp) := by
  cases nodes with
  | nil => exact segment.1
  | cons node rest => exact segment.1

/-- The last predecessor is the end of the listed nodes. -/
theorem prev_last (segment : Segment next prev first nodes last) :
    prev last = (first :: nodes).getLast (by simp) := by
  induction nodes generalizing first with
  | nil => exact segment.2
  | cons node rest ih =>
      rw [List.getLast_cons (by simp)]
      exact ih segment.2.2

/-- A segment splits at each of its nodes. -/
theorem split : Segment next prev first (before ++ node :: after) last ↔
    Segment next prev first before node ∧ Segment next prev node after last := by
  induction before generalizing first with
  | nil => simp [Segment, and_assoc]
  | cons head rest ih => simp only [List.cons_append, Segment, ih, and_assoc]

variable (node) in
/-- A fresh node joins the segment before `last`. -/
theorem insertLast [DecidableEq Node] (segment : Segment next prev first nodes last)
    (distinct : (first :: nodes).Nodup) (lastOutside : last ∉ nodes)
    (freshFirst : node ≠ first) (freshNodes : node ∉ nodes) (freshLast : node ≠ last) :
    Segment (Function.update (Function.update next node last) (prev last) node)
      (Function.update (Function.update prev node (prev last)) last node)
      first (nodes ++ [node]) last := by
  have tailEnd := segment.prev_last
  induction nodes generalizing first with
  | nil =>
      obtain ⟨-, backward⟩ := segment
      simp [Segment, backward, freshFirst, freshLast]
  | cons head rest ih =>
      obtain ⟨forward, backward, tail⟩ := segment
      rw [List.getLast_cons (by simp)] at tailEnd
      have inside : prev last ∈ head :: rest := tailEnd ▸ List.getLast_mem _
      have firstOutside : first ∉ head :: rest := (List.nodup_cons.mp distinct).1
      have firstOther : first ≠ prev last := fun equal => firstOutside (equal ▸ inside)
      have headOther : head ≠ last := fun equal => lastOutside (by simp [equal])
      refine ⟨?_, ?_, ?_⟩
      · rw [Function.update_of_ne firstOther, Function.update_of_ne (Ne.symm freshFirst), forward]
      · rw [Function.update_of_ne headOther,
          Function.update_of_ne (fun equal => freshNodes (by simp [equal])), backward]
      · exact ih tail (List.nodup_cons.mp distinct).2 (fun member => lastOutside (by simp [member]))
          (fun equal => freshNodes (by simp [equal])) (fun member => freshNodes (by simp [member]))
          tailEnd

/-- Read against its links, a segment lists its nodes in reverse. -/
theorem reverse (segment : Segment next prev first nodes last) :
    Segment prev next last nodes.reverse first := by
  induction nodes generalizing first with
  | nil => exact ⟨segment.2, segment.1⟩
  | cons node rest ih =>
      obtain ⟨forward, backward, tail⟩ := segment
      rw [List.reverse_cons]
      exact split.mpr ⟨ih tail, backward, forward⟩

variable (node) in
/-- A fresh node joins the segment after `first`. -/
theorem insertFirst [DecidableEq Node] (segment : Segment next prev first nodes last)
    (distinct : (last :: nodes).Nodup) (firstOutside : first ∉ nodes)
    (freshFirst : node ≠ first) (freshNodes : node ∉ nodes) (freshLast : node ≠ last) :
    Segment (Function.update (Function.update next node (next first)) first node)
      (Function.update (Function.update prev node first) (next first) node)
      first (node :: nodes) last := by
  have joined := segment.reverse.insertLast node (by simpa using distinct) (by simpa using firstOutside)
    freshLast (by simpa using freshNodes) freshFirst
  simpa using joined.reverse

/-- A node leaves the segment, and its neighbours become neighbours. -/
theorem unlink [DecidableEq Node] (segment : Segment next prev first (before ++ node :: after) last)
    (distinct : (first :: (before ++ node :: after)).Nodup)
    (lastOutside : last ∉ before ++ node :: after) :
    Segment (Function.update next (prev node) (next node))
      (Function.update prev (next node) (prev node)) first (before ++ after) last := by
  induction before generalizing first with
  | nil =>
      obtain ⟨forward, backward, rest⟩ := segment
      rw [backward]
      simp only [List.nil_append, List.nodup_cons, List.mem_cons, not_or] at distinct lastOutside ⊢
      cases after with
      | nil =>
          obtain ⟨onward, -⟩ := rest
          simp [Segment, onward]
      | cons head rest' =>
          obtain ⟨onward, -, tail⟩ := rest
          simp only [List.mem_cons, not_or, List.nodup_cons] at distinct lastOutside
          rw [onward]
          refine ⟨Function.update_self .., Function.update_self .., tail.frame ?_ ?_⟩
          · intro other member
            refine Function.update_of_ne ?_ _ _
            intro equal
            subst equal
            simp only [List.mem_cons] at member
            tauto
          · intro other member
            refine Function.update_of_ne ?_ _ _
            intro equal
            subst equal
            simp only [List.mem_append, List.mem_singleton] at member
            tauto
  | cons head rest ih =>
      obtain ⟨forward, backward, tail⟩ := segment
      simp only [List.cons_append, List.nodup_cons, List.mem_cons, List.mem_append, not_or]
        at distinct lastOutside
      obtain ⟨⟨firstHead, firstRest, firstNode, firstAfter⟩, ⟨headRest, headNode, headAfter⟩, restDistinct⟩ :=
        distinct
      obtain ⟨lastHead, lastRest, lastNode, lastAfter⟩ := lastOutside
      have parts := split.mp tail
      have nodeBack : prev node ∈ head :: rest := parts.1.prev_last ▸ List.getLast_mem _
      have nodeOn : next node ∈ after ++ [last] := parts.2.next_first ▸ List.head_mem _
      refine ⟨?_, ?_, ?_⟩
      · rw [Function.update_of_ne, forward]
        intro equal
        subst equal
        simp only [List.mem_cons] at nodeBack
        tauto
      · rw [Function.update_of_ne, backward]
        intro equal
        subst equal
        simp only [List.mem_append, List.mem_singleton] at nodeOn
        rcases nodeOn with inside | atEnd
        · exact headAfter inside
        · exact lastHead atEnd.symm
      · apply ih tail
        · simp only [List.nodup_cons, List.mem_append, List.mem_cons, not_or]
          exact ⟨⟨headRest, headNode, headAfter⟩, restDistinct⟩
        · simp only [List.mem_append, List.mem_cons, not_or]
          exact ⟨lastRest, lastNode, lastAfter⟩

/-- The successor of the node at one position is the node at the next position. -/
theorem next_getElem (segment : Segment next prev first nodes last) {index : Nat}
    (inside : index < nodes.length) :
    next nodes[index] = (nodes[index + 1]?).getD last := by
  induction nodes generalizing first index with
  | nil => simp at inside
  | cons node rest ih =>
      cases index with
      | succ index => simpa using ih segment.2.2 (by simpa using inside)
      | zero =>
          have forward := segment.2.2.next_first
          cases rest <;> simpa using forward

/-- The predecessor of the first node is `first`, and every other one is the node before. -/
theorem prev_getElem (segment : Segment next prev first nodes last) {index : Nat}
    (inside : index < nodes.length) :
    prev nodes[index] = if index = 0 then first else (nodes[index - 1]?).getD first := by
  induction nodes generalizing first index with
  | nil => simp at inside
  | cons node rest ih =>
      cases index with
      | zero => exact segment.2.1
      | succ index =>
          have earlier := ih segment.2.2 (by simpa using inside)
          simp only [List.getElem_cons_succ, earlier]
          cases index with
          | zero => simp
          | succ index =>
              have before : index < rest.length := by
                simp only [List.length_cons] at inside
                omega
              simp [List.getElem?_eq_getElem before]

end Segment

end OrderEngine.Library
