import OrderEngine.Refinement.Walk

namespace OrderEngine

open Library

/-- The inner loop stands at a ledger that the match reaches at the same best price. -/
structure Walking (incoming : Ptr) (ledger : Ledger) (left : Nat) (state : OrderBook × Option Ptr)
    (now : Ledger) : Prop where
  same : Represents state.1 now
  inv : now.Inv (some incoming)
  run : Ledger.MatchRun incoming ledger now
  best : now.best (ledger.facing incoming) = ledger.best (ledger.facing incoming)
  cursor : (now.data incoming).unfilled →
    state.2 = (now.queue (ledger.facing incoming) (ledger.best (ledger.facing incoming))).head?
  bound : left = (now.queue (ledger.facing incoming) (ledger.best (ledger.facing incoming))).length +
    if (now.data incoming).unfilled then 1 else 0

namespace Walking

variable {incoming : Ptr} {ledger now : Ledger} {left : Nat} {state : OrderBook × Option Ptr}

/-- While the inner loop goes on, it stands at the oldest order of its level. -/
theorem head {book : OrderBook} {cursor : Option Ptr} (walking : Walking incoming ledger left (book, cursor) now)
    (going : (cursor.isSome && book.hasRemaining incoming) = true) :
    ∃ resting rest, cursor = some resting ∧ (now.data incoming).unfilled ∧
      now.queue (ledger.facing incoming) (ledger.best (ledger.facing incoming)) = resting :: rest := by
  rw [Bool.and_eq_true] at going
  have unfilled := (walking.same.hasRemaining_iff incoming).mp going.2
  have here : cursor = _ := walking.cursor unfilled
  cases queue : now.queue (ledger.facing incoming) (ledger.best (ledger.facing incoming)) with
  | nil =>
      rw [queue] at here
      rw [here] at going
      exact absurd going.1 (by simp)
  | cons resting rest =>
      rw [queue] at here
      exact ⟨resting, rest, here, unfilled, rfl⟩

/-- Each round of the inner loop is one trade, and it shortens the queue or ends the match. -/
theorem next (walking : Walking incoming ledger left state now)
    (valid : ledger.best (ledger.facing incoming) ≠ kInvalidPrice)
    (behind : (ledger.facing incoming).rank (ledger.best (ledger.facing incoming)) ≤
      (ledger.facing incoming).rank (ledger.price incoming))
    (going : (state.2.isSome && state.1.hasRemaining incoming) = true) :
    ∃ smaller after, smaller < left ∧
      Walking incoming ledger smaller (OrderBook.fillNext incoming state) after := by
  obtain ⟨book, cursor⟩ := state
  obtain ⟨resting, rest, rfl, unfilled, head⟩ := walking.head going
  have facing := walking.run.facing_eq
  have bound := walking.bound
  rw [if_pos unfilled, head] at bound
  have crosses : now.Crosses incoming := by
    refine ⟨?_, ?_, unfilled⟩
    · rw [facing, walking.best]
      exact valid
    · rw [facing, walking.best, (walking.run.same_order incoming).2.2.1]
      exact behind
  have step : Ledger.MatchStep incoming now (now.trade resting incoming) :=
    .trade crosses (by rw [facing, walking.best]; exact head)
  have cases := Ledger.trade_head_cases walking.inv (by rw [facing]; exact head)
  rw [facing] at cases
  have cursorNext : (book.order resting).next = rest.head? := walking.same.next_of_head head
  refine ⟨_, now.trade resting incoming, ?_, {
    same := walking.same.fill_head walking.inv (by rw [facing]; exact head)
    inv := step.inv walking.inv
    run := walking.run.tail step
    best := (Ledger.fill_best ..).trans walking.best
    cursor := fun still => ?_
    bound := rfl }⟩
  · rcases cases with gone | ⟨stays, done⟩
    · rw [gone, bound]
      split <;> simp
    · rw [stays, if_neg done, bound]
      exact Nat.lt_succ_self _
  · rcases cases with gone | ⟨-, done⟩
    · rw [gone]
      exact cursorNext
    · exact absurd still done

end Walking

namespace Represents

variable {book : OrderBook} {ledger : Ledger} {incoming : Ptr}

/-- The inner loop starts at the oldest order with enough rounds for the whole level. -/
theorem walking (same : Represents book ledger) (inv : ledger.Inv (some incoming)) :
    ∃ left ≤ kMaxOrders + 1, Walking incoming ledger left
      (book, (book.level (ledger.facing incoming) (ledger.best (ledger.facing incoming))).head) ledger := by
  have short := inv.queue_length_le (ledger.facing incoming) (ledger.best (ledger.facing incoming))
  refine ⟨_, ?_, {
    same := same
    inv := inv
    run := .refl
    best := rfl
    cursor := fun _ => same.head_eq ..
    bound := rfl }⟩
  split <;> omega

/-- The inner loop ends, and it leaves the level empty or the incoming order filled. -/
theorem walkLevel (same : Represents book ledger) (inv : ledger.Inv (some incoming))
    (valid : ledger.best (ledger.facing incoming) ≠ kInvalidPrice)
    (behind : (ledger.facing incoming).rank (ledger.best (ledger.facing incoming)) ≤
      (ledger.facing incoming).rank (ledger.price incoming)) :
    ∃ after, Represents (book.walkLevel incoming
        (book.level (ledger.facing incoming) (ledger.best (ledger.facing incoming))).head) after ∧
      after.Inv (some incoming) ∧ Ledger.MatchRun incoming ledger after ∧
      after.best (ledger.facing incoming) = ledger.best (ledger.facing incoming) ∧
      ((after.data incoming).unfilled →
        after.queue (ledger.facing incoming) (ledger.best (ledger.facing incoming)) = []) := by
  obtain ⟨bound, enough, start⟩ := same.walking inv
  obtain ⟨⟨left, after, walking⟩, stopped⟩ := @whileLoop_rule _ _ _
    (fun state => (state.1.markEndless, state.2))
    (fun left state => ∃ now, Walking incoming ledger left state now)
    (fun left state ⟨now, walking⟩ going => by
      obtain ⟨smaller, after, less, next⟩ := walking.next valid behind going
      exact ⟨smaller, less, after, next⟩) _ _ _ enough ⟨ledger, start⟩
  refine ⟨after, walking.same, walking.inv, walking.run, walking.best, fun unfilled => ?_⟩
  have remaining := (walking.same.hasRemaining_iff incoming).mpr unfilled
  rw [remaining, Bool.and_true, walking.cursor unfilled] at stopped
  simpa using stopped

end Represents

namespace OrderBook

/-- Both branches of `match` do the same on their own wings. -/
def updateBest (book : OrderBook) : Wing → Int → OrderBook
  | .bid => book.updateBestBid
  | .ask => book.updateBestAsk

def matchBody (wing : Wing) (incoming : Ptr) (book : OrderBook) : OrderBook :=
  let best := book.best wing
  let book := book.touch best
  if (book.level wing best).empty then book.updateBest wing (book.best wing)
  else
    let book := book.walkLevel incoming (book.level wing best).head
    if (book.level wing best).empty then book.updateBest wing (book.best wing) else book

def crosses (wing : Wing) (incoming : Ptr) (book : OrderBook) : Bool :=
  book.best wing ≠ kInvalidPrice ∧ wing.rank (book.best wing) ≤ wing.rank (book.order incoming).price ∧
    book.hasRemaining incoming

/-- The bid side crosses from above. -/
theorem crosses_bid (book : OrderBook) (incoming : Ptr) : crosses .bid incoming book =
    decide (book.bestBid ≠ kInvalidPrice ∧ book.bestBid ≥ (book.order incoming).price ∧
      book.hasRemaining incoming) := by
  simp only [crosses, Wing.rank, BookCore.best, neg_le_neg_iff, ge_iff_le]

theorem match_eq (book : OrderBook) (incoming : Ptr) : book.match incoming =
    whileLoop (crosses (book.order incoming).side.wing.opposite incoming)
      (matchBody (book.order incoming).side.wing.opposite incoming) markEndless (kMaxPriceTicks + 1) book := by
  by_cases buy : (book.order incoming).side = Side.buy
  · simp only [«match», Side.wing, if_pos buy]
    rfl
  · have guard := funext fun book => crosses_bid book incoming
    simp only [«match», Side.wing, if_neg buy, Wing.opposite, guard]
    rfl

end OrderBook

namespace Represents

variable {book : OrderBook} {ledger : Ledger} {incoming : Ptr}

/-- The scan of the book reads the same occupied ticks as the scan of the ledger. -/
theorem updateBest (same : Represents book ledger) (wing : Wing) (inside : InTicks (ledger.best wing)) :
    Represents (book.updateBest wing (book.best wing)) (ledger.rescan wing) := by
  have found : (scan (fun price => !(book.level wing price).empty) wing.stride
      (wing.reach (book.best wing)) (book.best wing)).getD kInvalidPrice =
      nextBest wing (fun price => !(ledger.queue wing price).isEmpty) (ledger.best wing) := by
    simp only [same.empty_eq, same.best_eq]
    rfl
  have within : InTicks (book.best wing) := same.best_eq wing ▸ inside
  have core : book.toBookCore.setBest wing ((scan (fun price => !(book.level wing price).empty)
      wing.stride (wing.reach (book.best wing)) (book.best wing)).getD kInvalidPrice) =
      ledger.toBookCore.setBest wing
        (nextBest wing (fun price => !(ledger.queue wing price).isEmpty) (ledger.best wing)) := by
    rw [found, same.core]
  cases wing with
  | bid =>
      have touched : (if 0 ≤ book.bestBid then book.touch book.bestBid else book) = book := by
        split
        · exact OrderBook.touch_of_inTicks within
        · rfl
      show Represents (book.updateBestBid book.bestBid) _
      rw [OrderBook.updateBestBid, touched]
      exact same.setCore core
  | ask =>
      have touched : (if book.bestAsk < kMaxPriceTicks then book.touch book.bestAsk else book) = book := by
        split
        · exact OrderBook.touch_of_inTicks within
        · rfl
      show Represents (book.updateBestAsk book.bestAsk) _
      rw [OrderBook.updateBestAsk, touched]
      exact same.setCore core

theorem crosses_iff (same : Represents book ledger) :
    book.crosses (ledger.facing incoming) incoming = true ↔ ledger.Crosses incoming := by
  rw [OrderBook.crosses, decide_eq_true_iff, same.best_eq, same.price_eq, same.hasRemaining_iff]
  rfl

end Represents

namespace Ledger

/-- A wing without a price has no tick left, and no other wing has more ticks than the array. -/
def ticksLeft (ledger : Ledger) (wing : Wing) : Nat :=
  if ledger.best wing = kInvalidPrice then 0 else wing.reach (ledger.best wing)

theorem Inv.ticksLeft_le {ledger : Ledger} {pending : Option Ptr} (inv : ledger.Inv pending)
    (wing : Wing) : ledger.ticksLeft wing ≤ kMaxPriceTicks := by
  unfold ticksLeft
  split
  · exact Nat.zero_le _
  · next valid =>
      obtain ⟨low, high⟩ := inv.bestInTicks valid
      cases wing <;> simp only [Wing.reach] <;> omega

/-- A scan that starts at an empty level leaves fewer ticks. -/
theorem Inv.rescan_ticksLeft {ledger : Ledger} {pending : Option Ptr} (inv : ledger.Inv pending)
    {wing : Wing} (valid : ledger.best wing ≠ kInvalidPrice)
    (empty : ledger.queue wing (ledger.best wing) = []) :
    (ledger.rescan wing).ticksLeft wing < ledger.ticksLeft wing := by
  have inside := inv.bestInTicks valid
  have here : ledger.ticksLeft wing = wing.reach (ledger.best wing) := if_neg valid
  have positive : 0 < wing.reach (ledger.best wing) := by
    obtain ⟨low, high⟩ := inside
    cases wing <;> simp only [Wing.reach] <;> omega
  rw [here, ticksLeft, rescan_best, if_pos rfl]
  split
  · exact positive
  · next found =>
      rcases nextBest_cases wing (fun price => !(ledger.queue wing price).isEmpty) inside with
        ⟨none, -⟩ | ⟨within, occupied, behind, -⟩
      · exact absurd none found
      · have moved : nextBest wing (fun price => !(ledger.queue wing price).isEmpty)
            (ledger.best wing) ≠ ledger.best wing := by
          intro stays
          rw [stays, empty] at occupied
          exact absurd occupied (by simp)
        have farther := lt_of_le_of_ne behind fun equal => moved (Wing.rank_injective equal).symm
        obtain ⟨low, high⟩ := inside
        obtain ⟨low', high'⟩ := within
        cases wing <;> simp only [Wing.reach, Wing.rank] at farther ⊢ <;> omega

end Ledger

/-- The outer loop stands at a ledger that the match reaches. -/
structure Sweeping (incoming : Ptr) (ledger : Ledger) (left : Nat) (book : OrderBook) (now : Ledger) :
    Prop where
  same : Represents book now
  inv : now.Inv (some incoming)
  run : Ledger.MatchRun incoming ledger now
  tight : ledger.Tight (ledger.facing incoming) → now.Tight (ledger.facing incoming)
  bound : left = now.ticksLeft (ledger.facing incoming) + if (now.data incoming).unfilled then 1 else 0

namespace Sweeping

variable {incoming : Ptr} {ledger now : Ledger} {left : Nat} {book : OrderBook}

/-- An empty best level is passed over. -/
theorem rescan (same : Represents book now) (inv : now.Inv (some incoming))
    (run : Ledger.MatchRun incoming ledger now)
    (valid : now.best (ledger.facing incoming) ≠ kInvalidPrice)
    (empty : now.queue (ledger.facing incoming) (now.best (ledger.facing incoming)) = []) :
    ∃ smaller, smaller < now.ticksLeft (ledger.facing incoming) +
        (if (now.data incoming).unfilled then 1 else 0) ∧
      Sweeping incoming ledger smaller
        (book.updateBest (ledger.facing incoming) (book.best (ledger.facing incoming)))
        (now.rescan (ledger.facing incoming)) := by
  have facing := run.facing_eq
  have step : Ledger.MatchStep incoming now (now.rescan (now.facing incoming)) :=
    .rescan (by rw [facing]; exact valid) (by rw [facing]; exact empty)
  rw [facing] at step
  refine ⟨_, ?_, {
    same := same.updateBest _ (inv.bestInTicks valid)
    inv := step.inv inv
    run := run.tail step
    tight := fun _ => Ledger.rescan_tight (inv.bestInTicks valid)
    bound := rfl }⟩
  exact Nat.add_lt_add_right (inv.rescan_ticksLeft valid empty) _

/-- Each round of the outer loop is a part of the match, and it leaves fewer ticks or ends the match. -/
theorem next (sweeping : Sweeping incoming ledger left book now)
    (going : book.crosses (ledger.facing incoming) incoming = true) :
    ∃ smaller after, smaller < left ∧
      Sweeping incoming ledger smaller (book.matchBody (ledger.facing incoming) incoming) after := by
  have facing := sweeping.run.facing_eq
  obtain ⟨valid, behind, unfilled⟩ := sweeping.same.crosses_iff.mp (facing ▸ going)
  have touched : book.touch (book.best (ledger.facing incoming)) = book := by
    rw [sweeping.same.best_eq, ← facing]
    exact OrderBook.touch_of_inTicks (sweeping.inv.bestInTicks valid)
  have walked := sweeping.same.walkLevel sweeping.inv valid behind
  rw [facing] at valid walked
  rw [sweeping.bound, if_pos unfilled, OrderBook.matchBody, touched]
  simp only [sweeping.same.empty_eq, sweeping.same.best_eq, List.isEmpty_iff]
  by_cases empty : now.queue (ledger.facing incoming) (now.best (ledger.facing incoming)) = []
  · obtain ⟨smaller, less, after⟩ :=
      rescan sweeping.same sweeping.inv sweeping.run valid empty
    rw [if_pos unfilled] at less
    rw [sweeping.same.best_eq] at after
    exact ⟨smaller, _, less, by rw [if_pos empty]; exact after⟩
  · obtain ⟨after, same, inv, run, best, done⟩ := walked
    have further := sweeping.run.trans run
    have ticks : after.ticksLeft (ledger.facing incoming) = now.ticksLeft (ledger.facing incoming) := by
      rw [Ledger.ticksLeft, Ledger.ticksLeft, best]
    simp only [same.empty_eq, List.isEmpty_iff]
    rw [if_neg empty]
    by_cases emptied : after.queue (ledger.facing incoming) (now.best (ledger.facing incoming)) = []
    · obtain ⟨smaller, less, moved⟩ := rescan same inv further (by rw [best]; exact valid)
        (by rw [best]; exact emptied)
      rw [ticks] at less
      refine ⟨smaller, _, lt_of_lt_of_le less ?_, by rw [if_pos emptied]; exact moved⟩
      split <;> omega
    · have filled : ¬ (after.data incoming).unfilled := fun still => emptied (done still)
      refine ⟨_, after, ?_, by
        rw [if_neg emptied]
        exact {
          same := same
          inv := inv
          run := further
          tight := fun _ => .inr (by rw [best]; exact emptied)
          bound := rfl }⟩
      rw [ticks, if_neg filled]
      exact Nat.lt_succ_self _

end Sweeping

namespace Represents

variable {book : OrderBook} {ledger : Ledger} {incoming : Ptr}

/-- The outer loop starts with enough rounds for all ticks. -/
theorem sweeping (same : Represents book ledger) (inv : ledger.Inv (some incoming)) :
    ∃ left ≤ kMaxPriceTicks + 1, Sweeping incoming ledger left book ledger := by
  have ticks := inv.ticksLeft_le (ledger.facing incoming)
  refine ⟨_, ?_, {
    same := same
    inv := inv
    run := .refl
    tight := id
    bound := rfl }⟩
  split <;> omega

/-- The match of the book is a whole match of the ledger: it stops only where nothing crosses. -/
theorem «match» (same : Represents book ledger) (inv : ledger.Inv (some incoming)) :
    ∃ after, Represents (book.match incoming) after ∧ after.Inv (some incoming) ∧
      Ledger.MatchRun incoming ledger after ∧ ¬ after.Crosses incoming ∧
      (ledger.Tight (ledger.facing incoming) → after.Tight (ledger.facing incoming)) := by
  obtain ⟨bound, enough, start⟩ := same.sweeping inv
  have wing : (book.order incoming).side.wing.opposite = ledger.facing incoming := by
    rw [same.wing_eq]
    rfl
  rw [OrderBook.match_eq, wing]
  obtain ⟨⟨left, after, sweeping⟩, stopped⟩ := @whileLoop_rule _ _ _ OrderBook.markEndless
    (fun left book => ∃ now, Sweeping incoming ledger left book now)
    (fun left book ⟨now, sweeping⟩ going => by
      obtain ⟨smaller, after, less, next⟩ := sweeping.next going
      exact ⟨smaller, less, after, next⟩) _ _ _ enough ⟨ledger, start⟩
  refine ⟨after, sweeping.same, sweeping.inv, sweeping.run, fun crosses => ?_, sweeping.tight⟩
  have going := sweeping.same.crosses_iff.mpr crosses
  rw [sweeping.run.facing_eq] at going
  rw [going] at stopped
  exact absurd stopped (by simp)

end Represents

end OrderEngine
