import OrderEngine.Construction.Pipeline
import OrderEngine.Refinement.Queue
import OrderEngine.Refinement.Runs

namespace OrderEngine

open Library

/-- A message that the engine sends to `add_order` satisfies what `add_order` asserts. -/
def OrderMessage.Sound (msg : OrderMessage) : Prop :=
  msg.action = OrderAction.add ∨ msg.action = OrderAction.execute →
    InTicks msg.price ∧ 0 < msg.quantity

instance : DecidablePred OrderMessage.Sound := fun _ => inferInstanceAs (Decidable (_ → _))

namespace OrderMessage

variable {msg : OrderMessage} {call : Call}

theorem Sound.route (sound : msg.Sound) (routed : msg.route = some call) : call.Sound := by
  unfold OrderMessage.route at routed
  split at routed
  · next add =>
      obtain rfl := Option.some.inj routed
      exact sound (.inl add)
  · split at routed
    · obtain rfl := Option.some.inj routed
      trivial
    · split at routed
      · obtain rfl := Option.some.inj routed
        trivial
      · split at routed
        · next execute =>
            obtain rfl := Option.some.inj routed
            exact sound (.inr execute)
        · exact absurd routed (by simp)

end OrderMessage

namespace MatchingEngine

variable {engine : MatchingEngine}

/-- The callback touches neither the book nor the inbound queue. -/
theorem foldl_onTrade (reports : List TradeReport) (engine : MatchingEngine) :
    (reports.foldl onTrade engine).book = engine.book ∧
      (reports.foldl onTrade engine).inbound = engine.inbound := by
  induction reports generalizing engine with
  | nil => exact ⟨rfl, rfl⟩
  | cons report reports ih => exact ih (engine.onTrade report)

/-- A dispatch leaves the book as its routed call does. -/
theorem dispatch_book (engine : MatchingEngine) (msg : OrderMessage) :
    (engine.dispatch msg).book = (match msg.route with
      | none => engine.book
      | some call => (engine.book.call call).2) := by
  unfold dispatch
  cases msg.route with
  | none => rfl
  | some call => exact (foldl_onTrade _ _).1

theorem dispatch_inbound (engine : MatchingEngine) (msg : OrderMessage) :
    (engine.dispatch msg).inbound = engine.inbound := by
  unfold dispatch
  cases msg.route with
  | none => rfl
  | some call => exact (foldl_onTrade _ _).2

/-- Every queued message is sound, and the book is in a state that sound calls reach. -/
structure Guarded (engine : MatchingEngine) : Prop where
  valid : engine.inbound.Valid
  queued : ∀ msg ∈ engine.inbound.contents, msg.Sound
  book : ∃ ledger, Represents engine.book ledger ∧ ledger.Inv none

namespace Guarded

theorem inboundPower : kInboundQueueSize = 2 ^ 16 := rfl

theorem init (clock : Nat → Nanos) : (MatchingEngine.init clock).Guarded where
  valid := by
    apply SPSCQueue.init_valid
    decide
  queued := by
    intro msg member
    change msg ∈ (SPSCQueue.init {} : InboundQueue).contents at member
    rw [SPSCQueue.init_contents] at member
    exact absurd member List.not_mem_nil
  book := ⟨_, .empty true clock, Ledger.empty_settled.toInv⟩

/-- A guarded engine has left no array. -/
theorem indexed (guarded : engine.Guarded) (price : Int) : Fault.levelIndex price ∉ engine.book.faults := by
  obtain ⟨ledger, same, inv⟩ := guarded.book
  rw [same.core, inv.faults]
  exact List.not_mem_nil

/-- The message that a guarded engine pops next is sound. -/
theorem popped (guarded : engine.Guarded) {msg : OrderMessage}
    (next : engine.inbound.tryPop.1 = some msg) : msg.Sound := by
  rcases SPSCQueue.tryPop_cases inboundPower guarded.valid with ⟨empty, -⟩ | ⟨item, first, -, items⟩
  · rw [empty] at next
    exact absurd next (by simp)
  · rw [first] at next
    obtain rfl := Option.some.inj next
    exact guarded.queued item (by rw [items]; exact List.mem_cons_self)

theorem dispatch (guarded : engine.Guarded) {msg : OrderMessage} (sound : msg.Sound) :
    (engine.dispatch msg).Guarded where
  valid := by
    rw [dispatch_inbound]
    exact guarded.valid
  queued := by
    rw [dispatch_inbound]
    exact guarded.queued
  book := by
    obtain ⟨ledger, same, inv⟩ := guarded.book
    rw [dispatch_book]
    cases routed : msg.route with
    | none => exact ⟨ledger, same, inv⟩
    | some call =>
        obtain ⟨after, -, represents, invAfter⟩ := same.call inv (sound.route routed)
        exact ⟨after, represents, invAfter⟩

theorem poll (guarded : engine.Guarded) : engine.poll.2.Guarded := by
  unfold MatchingEngine.poll
  rcases SPSCQueue.tryPop_cases inboundPower guarded.valid with ⟨empty, -⟩ | ⟨item, first, valid, items⟩
  · rw [empty]
    exact guarded
  · have sound := guarded.popped first
    have popped : engine.inbound.tryPop = (some item, engine.inbound.tryPop.2) := by rw [← first]
    rw [popped]
    have waiting : ({ engine with inbound := engine.inbound.tryPop.2 } : MatchingEngine).Guarded := {
      valid := valid
      queued := fun msg member => guarded.queued msg (by rw [items]; exact List.mem_cons_of_mem _ member)
      book := guarded.book }
    exact waiting.dispatch sound

/-- The gateway queues a message, or it drops the message and leaves the queue as it was. -/
theorem enqueue (guarded : engine.Guarded) (gateway : MarketDataGateway) {msg : OrderMessage}
    (sound : engine.inbound.full = false → msg.Sound) :
    ({ engine with inbound := (gateway.enqueue engine.inbound msg).2.2 } : MatchingEngine).Guarded := by
  unfold MarketDataGateway.enqueue
  rcases SPSCQueue.tryPush_cases inboundPower guarded.valid msg with
    ⟨blocked, -⟩ | ⟨pushed, room, valid, items⟩
  · rw [blocked]
    exact guarded
  · have accepted : engine.inbound.tryPush msg = (true, (engine.inbound.tryPush msg).2) := by
      rw [← pushed]
    rw [accepted]
    exact {
      valid := valid
      queued := fun other member => by
        change other ∈ (engine.inbound.tryPush msg).2.contents at member
        rw [items] at member
        rcases List.mem_append.mp member with old | new
        · exact guarded.queued other old
        · rw [List.mem_singleton.mp new]
          apply sound
          rw [← Bool.not_eq_true, SPSCQueue.full_iff inboundPower guarded.valid]
          omega
      book := guarded.book }

end Guarded

end MatchingEngine

namespace Pipeline

/-- A frame or a message that the queue has room for is sound. -/
def Screened (pipeline : Pipeline) : Event → Prop
  | .frame buf _ => (Proto.decode buf {}).1 = true → pipeline.engine.inbound.full = false →
      (Proto.decode buf {}).2.Sound
  | .inject msg _ => pipeline.engine.inbound.full = false → msg.Sound
  | _ => True

/-- A step calls `add_order` only with a price and a quantity that it asserts, and it leaves no level
array. -/
structure Guarded (pipeline : Pipeline) (event : Event) : Prop where
  dispatched : event = .poll → ∀ msg, pipeline.engine.inbound.tryPop.1 = some msg →
    ∀ order, msg.route = some (.add order) → InTicks order.price ∧ 0 < order.quantity
  indexed : ∀ price, Fault.levelIndex price ∉ (pipeline.step event).engine.book.faults

variable {pipeline : Pipeline} {event : Event}

theorem Screened.step (screened : pipeline.Screened event) (guarded : pipeline.engine.Guarded) :
    (pipeline.step event).engine.Guarded := by
  cases event with
  | frame buf arrival =>
      show ({ pipeline.engine with inbound := (pipeline.gateway.processFrame pipeline.engine.inbound
        buf arrival).2.2 } : MatchingEngine).Guarded
      unfold MarketDataGateway.processFrame
      cases decoded : Proto.decode buf {} with
      | mk valid msg =>
          cases valid with
          | false => exact guarded
          | true =>
              rw [Screened, decoded] at screened
              apply guarded.enqueue pipeline.gateway
              exact screened rfl
  | inject msg arrival =>
      apply guarded.enqueue pipeline.gateway
      intro room
      have sound := screened room
      split
      · exact sound
      · exact sound
  | poll => exact guarded.poll
  | consume =>
      exact {
        valid := guarded.valid
        queued := guarded.queued
        book := guarded.book }

/-- A guarded engine takes a guarded step. -/
theorem Screened.guarded (screened : pipeline.Screened event) (guarded : pipeline.engine.Guarded) :
    pipeline.Guarded event where
  dispatched := by
    intro _ msg next order routed
    exact ((guarded.popped next).route routed : (Call.add order).Sound)
  indexed := (screened.step guarded).indexed

end Pipeline

/-- A pipeline whose accepted frames are screened never breaks what the book asserts. -/
theorem frames_guarded (clock : Nat → Nanos) (events : List Event)
    (screened : ∀ past event, past ++ [event] <+: events →
      ((Pipeline.init clock).run past).Screened event) :
    ∀ past event, past ++ [event] <+: events → ((Pipeline.init clock).run past).Guarded event := by
  intro past event inside
  have before : past <+: events := (List.prefix_append past [event]).trans inside
  have guarded : ((Pipeline.init clock).run past).engine.Guarded := by
    refine @always_of_step _ events (fun past => ((Pipeline.init clock).run past).engine.Guarded)
      (MatchingEngine.Guarded.init clock) ?_ past before
    intro earlier next within kept
    rw [Pipeline.run_append]
    exact (screened earlier next within).step kept
  exact (screened past event inside).guarded guarded

theorem frames_guarded_of_orders :
    let room := List.replicate Proto.kFrameSize 0
    let events := [Event.frame (Proto.encode (.sell 1 65535 5) 0 room) 7, .poll,
      .frame (Proto.encode { OrderMessage.buy 2 65535 3 with action := .execute } 0 room) 8, .poll]
    ∀ past event, past ++ [event] <+: events →
      ((Pipeline.init fun _ => 1).run past).Guarded event := by
  intro room events
  have first : ∀ pipeline : Pipeline,
      pipeline.Screened (.frame (Proto.encode (.sell 1 65535 5) 0 room) 7) :=
    fun _ _ _ _ => by decide +kernel
  have second : ∀ pipeline : Pipeline, pipeline.Screened
      (.frame (Proto.encode { OrderMessage.buy 2 65535 3 with action := .execute } 0 room) 8) :=
    fun _ _ _ _ => by decide +kernel
  have poll : ∀ pipeline : Pipeline, pipeline.Screened .poll := fun _ => trivial
  refine frames_guarded (fun _ => 1) events ?_
  refine forall_past_cons (first _) ?_
  refine forall_past_cons (poll _) ?_
  refine forall_past_cons (second _) ?_
  exact forall_past_cons (poll _) forall_past_nil

/-- A market order at the highest price reaches the book from the wire, and it rests outside the levels. -/
theorem hostile_frame_leaves_levels :
    let market := { OrderMessage.buy 1 9223372036854775807 5 with action := .execute }
    let frame := Event.frame (Proto.encode market 0 (List.replicate Proto.kFrameSize 0)) 7
    ((Pipeline.init fun _ => 1).run [frame, .poll]).engine.book.faults =
        [.levelIndex 9223372036854775807] ∧
      ¬ ((Pipeline.init fun _ => 1).run [frame]).Guarded .poll := by
  intro market frame
  have faults : ((Pipeline.init fun _ => 1).run [frame, .poll]).engine.book.faults =
      [.levelIndex 9223372036854775807] := by decide +kernel
  have stepped : ((Pipeline.init fun _ => 1).run [frame]).step .poll =
      (Pipeline.init fun _ => 1).run [frame, .poll] :=
    (Pipeline.run_append (Pipeline.init fun _ => 1) [frame] .poll).symm
  constructor
  · exact faults
  · intro guarded
    have inside := guarded.indexed 9223372036854775807
    rw [stepped, faults] at inside
    exact inside List.mem_cons_self

end OrderEngine
