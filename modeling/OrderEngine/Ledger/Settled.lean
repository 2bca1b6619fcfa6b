import OrderEngine.Ledger.Calls

namespace OrderEngine

open Library

namespace Ledger

/-- The best prices are exact, and no buy reaches a sell. -/
structure Quoted (ledger : Ledger) : Prop where
  named : ∀ slot, (ledger.data slot).side = Side.buy ∨ (ledger.data slot).side = Side.sell
  tight : ∀ wing, ledger.Tight wing
  uncrossed : ∀ {buyer seller buy sell}, buyer ∈ ledger.queue .bid buy →
    seller ∈ ledger.queue .ask sell → buy < sell

/-- The book is settled between two calls. -/
structure Settled (ledger : Ledger) : Prop extends ledger.Inv none, ledger.Quoted

section Match

variable {incoming slot : Ptr} {ledger next : Ledger} {wing : Wing} {price : Int}

theorem MatchStep.mem_of_mem (step : MatchStep incoming ledger next) (shelved : ledger.Shelved)
    (member : slot ∈ next.queue wing price) : slot ∈ ledger.queue wing price := by
  cases step with
  | @trade resting rest crosses head =>
      exact ((mem_fill_queue shelved (head_linked shelved head).1).mp member).1
  | rescan valid empty => exact member

/-- A match adds no order to a queue. -/
theorem MatchRun.mem_of_mem (run : MatchRun incoming ledger next) (inv : ledger.Inv (some incoming))
    (member : slot ∈ next.queue wing price) : slot ∈ ledger.queue wing price := by
  induction run with
  | refl => exact member
  | @tail middle next earlier step ih =>
      exact ih (step.mem_of_mem (MatchRun.inv earlier inv).toShelved member)

/-- An order that does not cross a tight wing is not matched. -/
theorem MatchRun.eq_of_not_crosses (run : MatchRun incoming ledger next)
    (stopped : ¬ ledger.Crosses incoming) (tight : ledger.Tight (ledger.facing incoming)) :
    next = ledger := by
  rcases Relation.ReflTransGen.cases_head run with same | ⟨middle, step, -⟩
  · exact same.symm
  · cases step with
    | trade crosses head => exact absurd crosses stopped
    | rescan valid empty => exact absurd empty (tight.resolve_left valid)

/-- When the match stops, an open order is worse than every order it faces. -/
theorem Inv.not_crosses (inv : ledger.Inv (some incoming)) (stopped : ¬ ledger.Crosses incoming)
    (unfilled : (ledger.data incoming).unfilled)
    (occupied : ledger.queue (ledger.facing incoming) price ≠ []) :
    (ledger.facing incoming).rank (ledger.price incoming) < (ledger.facing incoming).rank price := by
  obtain ⟨valid, bound⟩ := inv.bestBound occupied
  by_contra behind
  exact stopped ⟨valid, by omega, unfilled⟩

end Match

namespace Settled

variable {ledger after : Ledger} {slot : Ptr} {msg : OrderMessage}

/-- Emptying a queue leaves both wings tight when the best price follows. -/
theorem withdraw (settled : ledger.Settled) (linked : ledger.Linked slot) :
    (ledger.withdraw slot).Settled := by
  have inv := settled.toInv
  have member {wing : Wing} {price : Int} {other : Ptr}
      (here : other ∈ (ledger.withdraw slot).queue wing price) : other ∈ ledger.queue wing price := by
    rw [withdraw_queue, inv.mem_erase linked] at here
    exact here.1
  have bound := inv.bestBound (List.ne_nil_of_mem linked)
  have inside := inv.bestInTicks bound.1
  exact {
    toInv := inv.withdraw linked
    named := fun other => by
      rw [withdraw_side]
      exact settled.named other
    uncrossed := fun buyer seller => settled.uncrossed (member buyer) (member seller)
    tight := fun wing => by
      have kept : (ledger.expunge slot).best wing = ledger.best wing := rfl
      have queue : (ledger.expunge slot).queue = setCell ledger.queue (ledger.wing slot)
        (ledger.price slot) ((ledger.queue (ledger.wing slot) (ledger.price slot)).erase slot) := rfl
      by_cases here : wing = ledger.wing slot
      · subst here
        rw [withdraw_eq]
        split
        · exact rescan_tight inside
        · next hidden =>
            right
            rw [kept, queue, setCell_apply]
            split
            · next best =>
                intro empty
                exact hidden ⟨empty, settled.named slot, best.2.symm⟩
            · exact (settled.tight _).resolve_left bound.1
      · have other : (ledger.withdraw slot).best wing = ledger.best wing := by
          rw [withdraw_eq]
          split
          · rw [rescan_best, if_neg here, kept]
          · exact kept
        rw [Tight, other, withdraw_queue, setCell_of_ne _ _ (fun both => here both.1)]
        exact settled.tight wing }

/-- A smaller quantity moves no order. -/
theorem shrink (settled : ledger.Settled) (linked : ledger.Linked slot) {qty : Quantity}
    (fits : qty ≤ (ledger.data slot).remaining) : (ledger.shrink slot qty).Settled := by
  have queue : (ledger.shrink slot qty).queue = ledger.queue := setCell_same ..
  exact {
    toInv := settled.toInv.shrink linked fits
    named := fun other => by
      rw [shrink_side]
      exact settled.named other
    uncrossed := by simpa only [queue] using @settled.uncrossed
    tight := fun wing => by
      rw [Tight, queue]
      exact settled.tight wing }

/-- A match that has stopped leaves the quotes as exact as they were. -/
theorem matched {rest : List Ptr} (settled : ledger.Settled) (free : ledger.free = slot :: rest)
    (side : msg.side = Side.buy ∨ msg.side = Side.sell) (inside : InTicks msg.price)
    (positive : 0 < msg.quantity) (run : MatchRun slot (ledger.enroll slot rest msg) after)
    (tight : (ledger.enroll slot rest msg).Tight ((ledger.enroll slot rest msg).facing slot) →
      after.Tight ((ledger.enroll slot rest msg).facing slot)) : after.Quoted where
  named := fun other => by
    rw [(run.same_order other).2.1]
    by_cases here : other = slot
    · subst here
      rw [enroll_data_self]
      exact side
    · rw [enroll_data_other _ _ _ here]
      exact settled.named other
  tight := fun wing => by
    have enrolled := settled.toInv.enroll free inside positive
    have before (wing : Wing) : (ledger.enroll slot rest msg).Tight wing := by
      rw [Tight, enroll_best]
      exact settled.tight wing
    have own := run.own_wing enrolled
    by_cases here : wing = (ledger.enroll slot rest msg).facing slot
    · subst here
      exact tight (before _)
    · have same : wing = (ledger.enroll slot rest msg).wing slot := by
        revert here
        unfold facing
        cases wing <;> cases (ledger.enroll slot rest msg).wing slot <;> simp [Wing.opposite]
      rw [same, Tight, own.2, own.1]
      exact before _
  uncrossed := fun buyer seller => by
    have enrolled := settled.toInv.enroll free inside positive
    exact settled.uncrossed (run.mem_of_mem enrolled buyer) (run.mem_of_mem enrolled seller)

end Settled

/-- An order that no longer crosses may rest, and it becomes the best price or stays behind it. -/
theorem Quoted.rest {ledger : Ledger} {incoming : Ptr} (quoted : ledger.Quoted)
    (inv : ledger.Inv (some incoming)) (stopped : ¬ ledger.Crosses incoming)
    (unfilled : (ledger.data incoming).unfilled) : (ledger.rest incoming).Quoted where
  named := by
    rw [rest_data]
    exact quoted.named
  tight := fun wing => by
    rw [Tight, rest_best, rest_queue]
    split
    · next moved =>
        right
        rw [moved.1, setCell_self]
        simp
    · next stays =>
        by_cases here : wing = ledger.wing incoming
        · have valid : ledger.best wing ≠ kInvalidPrice := fun invalid => stays ⟨here, .inl invalid⟩
          right
          have occupied := (quoted.tight wing).resolve_left valid
          rw [setCell_apply]
          split
          · simp
          · exact occupied
        · rw [setCell_of_ne _ _ (fun both => here both.1)]
          exact quoted.tight wing
  uncrossed := fun {buyer seller buy sell} buyMember sellMember => by
    rw [mem_rest_queue] at buyMember sellMember
    have beyond {price : Int} {slot : Ptr} (member : slot ∈ ledger.queue (ledger.facing incoming) price) :=
      inv.not_crosses stopped unfilled (List.ne_nil_of_mem member)
    rcases buyMember with buyOld | ⟨rfl, wing, rfl⟩
    · rcases sellMember with sellOld | ⟨rfl, wing, rfl⟩
      · exact quoted.uncrossed buyOld sellOld
      · have facing : ledger.facing seller = .bid := by rw [facing, wing]; rfl
        rw [facing] at beyond
        have farther := beyond buyOld
        simpa [Wing.rank] using farther
    · rcases sellMember with sellOld | ⟨-, other, -⟩
      · have facing : ledger.facing buyer = .ask := by rw [facing, wing]; rfl
        rw [facing] at beyond
        exact beyond sellOld
      · rw [wing] at other
        exact absurd other (by decide)

namespace Settled

variable {ledger after : Ledger} {slot : Ptr} {msg : OrderMessage}

/-- An added order leaves the book settled. -/
theorem add {placed : Option Ptr} (settled : ledger.Settled)
    (side : msg.side = Side.buy ∨ msg.side = Side.sell) (inside : InTicks msg.price)
    (positive : 0 < msg.quantity) (run : ledger.AddRun msg placed after) : after.Settled := by
  cases run with
  | full free => exact settled
  | @filled slot rest after free run stopped tight done =>
      have inv := run.inv (settled.toInv.enroll free inside positive)
      exact ⟨inv.complete done, settled.matched free side inside positive run tight⟩
  | @rested slot rest after free run stopped tight left =>
      have inv := run.inv (settled.toInv.enroll free inside positive)
      have arrived := inv.arrived rfl
      exact ⟨inv.rest (arrived.live_of_open left),
        (settled.matched free side inside positive run tight).rest inv stopped
          (arrived.unfilled_of_open left)⟩

theorem ticked (settled : ledger.Settled) : ledger.ticked.Settled :=
  ⟨settled.toInv.ticked, settled.named, settled.tight, settled.uncrossed⟩

/-- The replacement of a linked order is as sound as an admissible add. -/
theorem replacement_admissible (settled : ledger.Settled) (linked : ledger.Linked slot) {id : OrderId}
    {newQty : Quantity} (larger : ¬ newQty ≤ (ledger.data slot).remaining) :
    (Call.add ((ledger.withdraw slot).replacement slot id newQty)).Admissible := by
  refine ⟨?_, ?_, UInt64.lt_of_le_of_lt UInt64.zero_le (UInt64.not_le.mp larger)⟩
  · rw [replacement, withdraw_side]
    exact settled.named slot
  · rw [replacement, withdraw_price]
    exact settled.inTicks linked

/-- Each admissible call leaves the book settled. -/
theorem call {call : Call} {answer : Bool} (settled : ledger.Settled) (admissible : call.Admissible)
    (run : ledger.CallRun call answer after) : after.Settled := by
  cases run with
  | add run => exact settled.add admissible.1 admissible.2.1 admissible.2.2 run
  | cancelMissing missing => exact settled
  | cancel found => exact settled.withdraw (settled.toInv.found_linked found).1
  | modifyMissing missing => exact settled
  | shrink found fits => exact settled.shrink (settled.toInv.found_linked found).1 fits
  | replace found larger run =>
      have linked := (settled.toInv.found_linked found).1
      obtain ⟨side, inside, positive⟩ := settled.replacement_admissible linked larger
      exact (settled.withdraw linked).ticked.add side inside positive run

end Settled

end Ledger

end OrderEngine
