import OrderEngine.Guarantee.Schedule
import OrderEngine.Ledger.Normal

namespace OrderEngine

open Library

def OrderMessage.normal (msg : OrderMessage) : OrderMessage := { msg with side := msg.side.normal }

namespace MatchingEngine

/-- The engine dispatches these messages. -/
def serve (engine : MatchingEngine) (msgs : List OrderMessage) : MatchingEngine := msgs.foldl dispatch engine

/-- This is what the operation of a message returns. -/
def result (engine : MatchingEngine) (msg : OrderMessage) : Option Result := msg.route.map engine.book.result

/-- Nobody who reads the reports, the levels and the best prices can tell two engines apart. -/
structure Indistinct (engine other : MatchingEngine) : Prop where
  reports : engine.book.reports = other.book.reports
  outbound : engine.outbound = other.outbound
  queue : ∀ wing price, engine.book.queue wing price = other.book.queue wing price
  id : ∀ slot, (engine.book.order slot).id = (other.book.order slot).id
  remaining : ∀ slot, engine.book.remaining slot = other.book.remaining slot
  total : ∀ wing price, (engine.book.level wing price).totalQuantity = (other.book.level wing price).totalQuantity
  bestBid : engine.book.bestBid = other.book.bestBid
  bestAsk : engine.book.bestAsk = other.book.bestAsk

/-- A message does not cancel an order of an unnamed side that stands alone at the best ask. -/
def SideSafe (engine : MatchingEngine) (msg : OrderMessage) : Prop :=
  ∀ id slot, msg.route = some (.cancel id) → engine.book.findLive id = some slot →
    ¬ (engine.book.order slot).side.Named →
    engine.book.queue .ask (engine.book.order slot).price = [slot] →
      (engine.book.order slot).price ≠ engine.book.bestAsk

end MatchingEngine

namespace Symmetry

theorem normal_empty (tradeCb : Bool) (clock : Nat → Nanos) :
    normal.ledger (.empty tradeCb clock) = .empty tradeCb clock := by
  apply normal_same
  intro slot
  rfl

theorem normal_route {msg : OrderMessage} : msg.normal.route = msg.route.map normal.call := by
  have action : msg.normal.action = msg.action := rfl
  unfold OrderMessage.route
  rw [action]
  split
  · rfl
  · split
    · rfl
    · split
      · rfl
      · split <;> rfl

end Symmetry

namespace MatchingEngine

/-- The ledger of one engine has the normal sides of the ledger of the other. -/
def Normalised (engine other : MatchingEngine) : Prop :=
  engine.outbound = other.outbound ∧ ∃ ledger, Represents engine.book ledger ∧ ledger.Inv none ∧
    Represents other.book (Symmetry.normal.ledger ledger) ∧ (Symmetry.normal.ledger ledger).Settled

variable {engine other : MatchingEngine} {msg : OrderMessage}

theorem init_normalised (clock : Nat → Nanos) : (init clock).Normalised (init clock) := by
  have same : Represents (init clock).book (Ledger.empty true clock) := .empty true clock
  refine ⟨rfl, Ledger.empty true clock, same, Ledger.empty_settled.toInv, ?_⟩
  rw [Symmetry.normal_empty]
  exact ⟨same, Ledger.empty_settled⟩

theorem Normalised.indistinct (normalised : engine.Normalised other) : engine.Indistinct other := by
  obtain ⟨outbound, ledger, same, inv, otherSame, settled⟩ := normalised
  have core : engine.book.toBookCore = other.book.toBookCore := by
    rw [same.core, otherSame.core, Symmetry.ledger_core, Symmetry.normal_core]
  constructor
  · rw [core]
  · exact outbound
  · intro wing price
    rw [same.queue_eq inv, otherSame.queue_eq settled.toInv]
    exact (Symmetry.normal.ledger_queue ledger wing price).symm
  · intro slot
    rw [same.id_eq, otherSame.id_eq]
    rfl
  · intro slot
    rw [same.remaining_eq, otherSame.remaining_eq]
    rfl
  · intro wing price
    rw [same.total, otherSame.total]
    exact (Symmetry.normal.ledger_total ledger wing price).symm
  · rw [core]
  · rw [core]

theorem Normalised.sideSafe_iff {ledger : Ledger} (same : Represents engine.book ledger) (inv : ledger.Inv none) :
    engine.SideSafe msg ↔ ∀ id slot, msg.route = some (.cancel id) → ledger.findLive id = some slot →
      ¬ ledger.Hides slot := by
  have best : engine.book.bestAsk = ledger.best .ask := same.best_eq .ask
  unfold SideSafe
  constructor
  · intro safe id slot routed found hidden
    obtain ⟨unnamed, queue, price⟩ := (Ledger.hides_iff (inv.found_linked found).1).mp hidden
    apply safe id slot routed
    · rw [same.findLive_eq, found]
    · rw [same.side_eq]
      exact unnamed
    · rw [same.price_eq, same.queue_eq inv, queue]
    · rw [same.price_eq, best, price]
  · intro safe id slot routed found unnamed queue price
    rw [same.findLive_eq] at found
    rw [same.side_eq] at unnamed
    rw [same.price_eq, same.queue_eq inv] at queue
    rw [same.price_eq, best] at price
    exact safe id slot routed found ((Ledger.hides_iff (inv.found_linked found).1).mpr ⟨unnamed, queue, price⟩)

theorem Normalised.result (normalised : engine.Normalised other) (sound : msg.Sound) :
    other.result msg.normal = engine.result msg := by
  obtain ⟨-, ledger, same, inv, otherSame, settled⟩ := normalised
  unfold MatchingEngine.result
  rw [Symmetry.normal_route, Option.map_map]
  cases routed : msg.route with
  | none => rfl
  | some call =>
      have first := sound.route routed
      have second := (Symmetry.normal_admissible first).sound
      rw [Option.map_some, Option.map_some, Function.comp, same.result_eq inv first,
        otherSame.result_eq settled.toInv second]
      cases call <;> rfl

/-- A safe message keeps the sides normalised. -/
theorem Normalised.dispatch (normalised : engine.Normalised other) (sound : msg.Sound) (safe : engine.SideSafe msg) :
    (engine.dispatch msg).Normalised (other.dispatch msg.normal) := by
  have before := normalised.indistinct
  obtain ⟨outbound, ledger, same, inv, otherSame, settled⟩ := normalised
  rw [sideSafe_iff same inv] at safe
  have book := engine.dispatch_book msg
  have otherBook := other.dispatch_book msg.normal
  have kept : ∃ after, Represents (engine.dispatch msg).book after ∧ after.Inv none ∧
      Represents (other.dispatch msg.normal).book (Symmetry.normal.ledger after) ∧
      (Symmetry.normal.ledger after).Settled := by
    rw [Symmetry.normal_route] at otherBook
    rw [book, otherBook]
    cases routed : msg.route with
    | none => exact ⟨ledger, same, inv, otherSame, settled⟩
    | some call =>
        have first := sound.route routed
        have second := Symmetry.normal_admissible first
        obtain ⟨after, run, represents, invAfter⟩ := same.call inv first
        obtain ⟨otherAfter, otherRun, otherRepresents, -⟩ := otherSame.call settled.toInv second.sound
        have equal : Symmetry.normal.ledger after = otherAfter := by
          apply Symmetry.normal_call_eq inv settled first run otherRun
          intro id slot cancels found
          exact safe id slot (routed.trans (congrArg some cancels)) found
        subst equal
        exact ⟨after, represents, invAfter, otherRepresents, settled.call second otherRun⟩
  obtain ⟨pushed, -⟩ := engine.dispatch_outbound msg
  obtain ⟨otherPushed, -⟩ := other.dispatch_outbound msg.normal
  obtain ⟨after, represents, invAfter, otherRepresents, settledAfter⟩ := kept
  refine ⟨?_, after, represents, invAfter, otherRepresents, settledAfter⟩
  have reports : (engine.dispatch msg).book.reports = (other.dispatch msg.normal).book.reports := by
    rw [represents.core, otherRepresents.core, Symmetry.ledger_core, Symmetry.normal_core]
  rw [pushed, otherPushed, outbound, Monitor.newReports, Monitor.newReports, reports, before.reports]

/-- A cancel that hides the best ask shows on the best ask. -/
theorem Normalised.exposed (normalised : engine.Normalised other)
    (same : (engine.dispatch msg).book.bestAsk = (other.dispatch msg.normal).book.bestAsk) :
    engine.SideSafe msg := by
  obtain ⟨-, ledger, represents, inv, otherRepresents, settled⟩ := normalised
  rw [sideSafe_iff represents inv]
  intro id slot routed found hidden
  obtain ⟨linked, named⟩ := inv.found_linked found
  obtain ⟨otherLinked, otherNamed⟩ := settled.toInv.found_linked (by exact found)
  have unscanned : ledger.withdraw slot = ledger.expunge slot := by
    rw [Ledger.withdraw_eq]
    exact if_neg fun exposes => hidden.2.1 exposes.2.1
  have wing : ledger.wing slot = .ask := if_neg fun buy => hidden.2.1 (.inl buy)
  have valid := Symmetry.valid_of_inTicks (inv.inTicks linked)
  have moved := settled.toInv.withdraw_best_ne otherLinked
    ((Symmetry.normal_exposes inv linked).mpr ⟨hidden.1, hidden.2.2⟩)
  have cancelled := (represents.cancel inv found linked named).2
  have otherCancelled := (otherRepresents.cancel settled.toInv (by exact found) otherLinked otherNamed).2
  have best : (engine.book.cancelOrder id).2.bestAsk = ledger.price slot := by
    rw [hidden.2.2, wing]
    apply (cancelled.best_eq .ask).trans
    rw [unscanned]
    rfl
  have otherBest : (other.book.cancelOrder id).2.bestAsk = ((Symmetry.normal.ledger ledger).withdraw slot).best .ask :=
    otherCancelled.best_eq .ask
  rw [dispatch_book, dispatch_book, Symmetry.normal_route, routed] at same
  rw [Symmetry.normal.ledger_wing valid, Symmetry.normal.ledger_price valid, wing] at moved
  apply moved
  exact otherBest.symm.trans (same.symm.trans best)

theorem serve_append (engine : MatchingEngine) (past : List OrderMessage) (msg : OrderMessage) :
    engine.serve (past ++ [msg]) = (engine.serve past).dispatch msg := by
  simp [serve]

end MatchingEngine

open MatchingEngine in
/-- The run with arbitrary side bytes and the run with the two named sides agree throughout exactly when no
message cancels an order of an unnamed side that stands alone at the best ask. -/
theorem side_bytes_agree_iff (clock : Nat → Nanos) (msgs : List OrderMessage) (sound : ∀ msg ∈ msgs, msg.Sound) :
    ((∀ past, past <+: msgs →
        ((init clock).serve past).Indistinct ((init clock).serve (past.map OrderMessage.normal))) ∧
      ∀ past msg, past ++ [msg] <+: msgs →
        ((init clock).serve (past.map OrderMessage.normal)).result msg.normal =
          ((init clock).serve past).result msg) ↔
      ∀ past msg, past ++ [msg] <+: msgs → ((init clock).serve past).SideSafe msg := by
  have grown (past : List OrderMessage) (msg : OrderMessage) :
      (init clock).serve ((past ++ [msg]).map OrderMessage.normal) =
        ((init clock).serve (past.map OrderMessage.normal)).dispatch msg.normal := by
    rw [List.map_append, List.map_singleton, serve_append]
  have start : ((init clock).serve []).Normalised ((init clock).serve ([].map OrderMessage.normal)) :=
    init_normalised clock
  have normalised (safe : ∀ past msg, past ++ [msg] <+: msgs →
        ((init clock).serve past).Normalised ((init clock).serve (past.map OrderMessage.normal)) →
          ((init clock).serve past).SideSafe msg) {past : List OrderMessage} (inside : past <+: msgs) :
      ((init clock).serve past).Normalised ((init clock).serve (past.map OrderMessage.normal)) := by
    apply @always_of_step _ msgs (fun past => ((init clock).serve past).Normalised
      ((init clock).serve (past.map OrderMessage.normal))) start _ past inside
    intro past msg within before
    rw [grown, serve_append]
    exact before.dispatch (sound msg (mem_of_past within)) (safe past msg within before)
  constructor
  · rintro ⟨agree, -⟩
    -- The next best ask shows the first message that is not safe.
    have exposed (past : List OrderMessage) (msg : OrderMessage) (within : past ++ [msg] <+: msgs)
        (before : ((init clock).serve past).Normalised ((init clock).serve (past.map OrderMessage.normal))) :
        ((init clock).serve past).SideSafe msg := by
      have same := (agree (past ++ [msg]) within).bestAsk
      rw [grown, serve_append] at same
      exact before.exposed same
    intro past msg inside
    exact exposed past msg inside (normalised exposed ((List.prefix_append past [msg]).trans inside))
  · intro safe
    have always {past : List OrderMessage} (inside : past <+: msgs) := @normalised
      (fun past msg within _ => safe past msg within) past inside
    constructor
    · intro past inside
      exact (always inside).indistinct
    · intro past msg inside
      exact (always ((List.prefix_append past [msg]).trans inside)).result (sound msg (mem_of_past inside))

open MatchingEngine in
/-- Two orders of an unnamed side rest in one level, and a cancel takes one of them. -/
theorem side_bytes_agree_iff_of_two_sells :
    let msgs : List OrderMessage := [{ side := ⟨2⟩, orderId := 1, price := 65535, quantity := 5 },
      { side := ⟨9⟩, orderId := 2, price := 65535, quantity := 4 },
      { action := .cancel, originalOrderId := 1, price := 65535, quantity := 5 }]
    ((∀ past, past <+: msgs → ((init fun _ => 1).serve past).Indistinct
        ((init fun _ => 1).serve (past.map OrderMessage.normal))) ∧
      ∀ past msg, past ++ [msg] <+: msgs →
        ((init fun _ => 1).serve (past.map OrderMessage.normal)).result msg.normal =
          ((init fun _ => 1).serve past).result msg) ↔
      ∀ past msg, past ++ [msg] <+: msgs → ((init fun _ => 1).serve past).SideSafe msg :=
  side_bytes_agree_iff (fun _ => 1) _ (by decide)

open MatchingEngine in
/-- The cancel of the only sell leaves its price behind as the best ask when the side byte is two. -/
theorem side_byte_leaves_best_ask :
    let msgs : List OrderMessage := [{ side := ⟨2⟩, orderId := 1, price := 65535, quantity := 5 },
      { action := .cancel, originalOrderId := 1, price := 65535, quantity := 5 }]
    (∀ msg ∈ msgs, InTicks msg.price ∧ 1 ≤ msg.quantity) ∧
      ¬ ∀ past, past <+: msgs → ((init fun _ => 1).serve past).Indistinct
        ((init fun _ => 1).serve (past.map OrderMessage.normal)) := by
  intro msgs
  have raw : ((init fun _ => 1).serve msgs).book.bestAsk = 65535 := by decide +kernel
  have normal : ((init fun _ => 1).serve (msgs.map OrderMessage.normal)).book.bestAsk = -1 := by decide +kernel
  constructor
  · decide
  · intro agree
    have same := (agree msgs List.prefix_rfl).bestAsk
    rw [raw, normal] at same
    exact absurd same (by decide)

end OrderEngine
