import OrderEngine.Refinement.Arrival

namespace OrderEngine

open Library

/-- Something is left of the order, and its status tells whether some of it is filled. -/
def OrderData.Genuine (data : OrderData) : Prop :=
  data.filledQuantity < data.quantity ∧
    data.status = if data.filledQuantity = 0 then .active else .partiallyFilled

/-- No fill and no report is empty, the counter counts the fills, and a callback receives a report
of each. -/
structure BookCore.TradesReal (core : BookCore) : Prop where
  fills : ∀ fill ∈ core.fills, 1 ≤ fill.quantity
  reports : ∀ report ∈ core.reports, 1 ≤ report.quantity
  counted : core.matchCount = UInt64.ofNat core.fills.length
  reported : core.tradeCb = true →
    core.reports.map TradeReport.quantity = core.fills.map Fill.quantity

namespace OrderBook

/-- No linked order is empty, and no trade is. -/
structure Genuine (book : OrderBook) : Prop where
  orders : ∀ slot, book.Linked slot → (book.order slot).toOrderData.Genuine
  trades : book.TradesReal

/-- A modify to zero is harmless only when it names no linked order that the map holds. -/
def GenuineSafe (book : OrderBook) : Call → Prop
  | .modify id newQty => newQty = 0 → ∀ slot, book.orderMap (mapSlot id) = some slot →
      (book.order slot).id = id → ¬ book.Linked slot
  | _ => True

end OrderBook

namespace OrderData

variable {data : OrderData} {qty : Quantity}

/-- A fill that leaves something of the order leaves it genuine. -/
theorem filledBy_genuine (filledLe : data.filledQuantity ≤ data.quantity) (fits : qty ≤ data.remaining)
    (positive : 0 < qty) (left : ¬ data.completedBy qty) : (data.filledBy qty).Genuine := by
  have some_ : data.filledQuantity + qty ≠ 0 := by
    rw [← UInt64.toNat_inj.ne, toNat_add_of_fits filledLe fits]
    have counted := UInt64.lt_iff_toNat_lt.mp positive
    change 0 < _ at counted
    show _ ≠ 0
    omega
  constructor
  · exact UInt64.not_le.mp left
  · rw [filledBy_filledQuantity, if_neg some_, filledBy, if_neg left]

/-- A genuine order has a positive quantity left. -/
theorem remaining_pos (left : data.filledQuantity < data.quantity) : 0 < data.remaining := by
  rw [UInt64.lt_iff_toNat_lt] at left ⊢
  rw [remaining, UInt64.toNat_sub_of_le _ _ (UInt64.le_iff_toNat_le.mpr (Nat.le_of_lt left))]
  show 0 < _
  omega

end OrderData

/-- A step that records no trade keeps the trades real. -/
theorem BookCore.TradesReal.congr {core other : BookCore} (real : core.TradesReal)
    (fills : other.fills = core.fills) (reports : other.reports = core.reports)
    (matchCount : other.matchCount = core.matchCount) (tradeCb : other.tradeCb = core.tradeCb) :
    other.TradesReal where
  fills := by rw [fills]; exact real.fills
  reports := by rw [reports]; exact real.reports
  counted := by rw [matchCount, fills]; exact real.counted
  reported := by rw [tradeCb, reports, fills]; exact real.reported

namespace Ledger

/-- No linked order is empty, and neither is the arrived order while it is open. -/
structure Genuine (ledger : Ledger) (pending : Option Ptr) : Prop where
  orders : ∀ slot, ledger.Linked slot → (ledger.data slot).Genuine
  arrived : ∀ slot, pending = some slot → (ledger.data slot).unfilled → (ledger.data slot).Genuine
  trades : ledger.TradesReal

variable {ledger next after : Ledger} {pending : Option Ptr} {incoming resting slot : Ptr}
  {rest : List Ptr} {price : Int}

/-- A fill of a positive quantity is a real trade. -/
theorem fill_tradesReal (real : ledger.TradesReal) {qty : Quantity} (positive : 1 ≤ qty) :
    (ledger.fill resting incoming qty).TradesReal where
  fills := fun fill member => by
    rw [fill_fills] at member
    rcases List.mem_append.mp member with old | new
    · exact real.fills fill old
    · rw [List.mem_singleton.mp new]
      exact positive
  reports := fun report member => by
    rw [fill_reports] at member
    split at member
    · rcases List.mem_append.mp member with old | new
      · exact real.reports report old
      · rw [List.mem_singleton.mp new]
        exact positive
    · exact real.reports report member
  counted := by
    rw [fill_matchCount, fill_fills, real.counted, List.length_append, List.length_singleton]
    simp
  reported := fun callback => by
    rw [fill_tradeCb] at callback
    rw [fill_reports, if_pos callback, fill_fills, List.map_append, List.map_append, real.reported callback]
    rfl

theorem Genuine.trade (genuine : ledger.Genuine (some incoming)) (inv : ledger.Inv (some incoming))
    (unfilled : (ledger.data incoming).unfilled)
    (head : ledger.queue (ledger.facing incoming) price = resting :: rest) :
    (ledger.trade resting incoming).Genuine (some incoming) := by
  have linked := (head_linked inv.toShelved head).1
  have arrived := inv.arrived rfl
  have different : resting ≠ incoming := arrived.ne linked
  have fits := word_min_le (ledger.data resting).remaining (ledger.data incoming).remaining
  have positive : 0 < min (ledger.data resting).remaining (ledger.data incoming).remaining := by
    rcases word_min_cases (ledger.data resting).remaining (ledger.data incoming).remaining with
      ⟨same, -⟩ | ⟨same, -⟩
    · rw [same]
      exact OrderData.remaining_pos (genuine.orders resting linked).1
    · rw [same]
      exact OrderData.remaining_pos unfilled
  exact {
    orders := fun slot here => by
      obtain ⟨was, stays⟩ := (fill_linked inv.toShelved linked).mp here
      by_cases first : slot = resting
      · subst first
        rw [Ledger.trade, fill_data_resting _ _ different]
        exact OrderData.filledBy_genuine (inv.filledLe linked) fits.1 positive fun full => stays full rfl
      · have second : slot ≠ incoming := arrived.ne was
        rw [Ledger.trade, fill_data_other _ _ first second]
        exact genuine.orders slot was
    arrived := fun slot isPending open_ => by
      obtain rfl := Option.some.inj isPending
      rw [Ledger.trade, fill_data_aggressor] at open_ ⊢
      exact OrderData.filledBy_genuine arrived.filledLe fits.2 positive (UInt64.not_le.mpr open_)
    trades := fill_tradesReal genuine.trades
      (UInt64.le_iff_toNat_le.mpr (UInt64.lt_iff_toNat_lt.mp positive)) }

/-- A match trades real quantities and leaves the open orders genuine. -/
theorem MatchRun.genuine (run : MatchRun incoming ledger after) (inv : ledger.Inv (some incoming))
    (genuine : ledger.Genuine (some incoming)) : after.Genuine (some incoming) := by
  induction run with
  | refl => exact genuine
  | @tail middle next earlier step ih =>
      cases step with
      | trade crosses head => exact ih.trade (MatchRun.inv earlier inv) crosses.2.2 head
      | rescan valid empty =>
          exact {
            orders := ih.orders
            arrived := ih.arrived
            trades := ih.trades.congr (rescan_fills ..) (rescan_reports ..) (rescan_matchCount ..)
              (rescan_tradeCb ..) }

theorem Genuine.enroll (genuine : ledger.Genuine none) (inv : ledger.Inv none)
    (free : ledger.free = slot :: rest) {msg : OrderMessage} (positive : 0 < msg.quantity) :
    (ledger.enroll slot rest msg).Genuine (some slot) where
  orders := fun other here => by
    have was := (inv.enroll_linked (by simp [free]) rest msg).mp here
    rw [enroll_data_other]
    · exact genuine.orders other was
    · intro equal
      subst equal
      exact inv.fresh (by simp [free]) was
  arrived := fun other isPending _ => by
    obtain rfl := Option.some.inj isPending
    rw [enroll_data_self]
    exact ⟨positive, rfl⟩
  trades := genuine.trades.congr rfl rfl rfl rfl

theorem Genuine.complete (genuine : ledger.Genuine pending) : ledger.Genuine none where
  orders := genuine.orders
  arrived := fun _ never => absurd never.symm (Option.some_ne_none _)
  trades := genuine.trades

theorem Genuine.rested (genuine : ledger.Genuine (some incoming)) (unfilled : (ledger.data incoming).unfilled) :
    (ledger.rest incoming).Genuine none where
  orders := fun other here => by
    rw [rest_data]
    rcases rest_linked.mp here with old | rfl
    · exact genuine.orders other old
    · exact genuine.arrived other rfl unfilled
  arrived := fun _ never => absurd never.symm (Option.some_ne_none _)
  trades := genuine.trades.congr (rest_fills ..) (rest_reports ..) (rest_matchCount ..) (rest_tradeCb ..)

/-- An added order is filled, or it rests as a genuine order. -/
theorem Genuine.add {msg : OrderMessage} {placed : Option Ptr} (genuine : ledger.Genuine none)
    (settled : ledger.Settled) (inside : InTicks msg.price) (positive : 0 < msg.quantity)
    (run : ledger.AddRun msg placed after) : after.Genuine none := by
  cases run with
  | full free => exact genuine
  | @filled slot rest after free run stopped tight done =>
      have inv := settled.toInv.enroll free inside positive
      exact (run.genuine inv (genuine.enroll settled.toInv free positive)).complete
  | @rested slot rest after free run stopped tight left =>
      have inv := settled.toInv.enroll free inside positive
      have matched := run.genuine inv (genuine.enroll settled.toInv free positive)
      exact matched.rested (((run.inv inv).arrived rfl).unfilled_of_open left)

theorem Genuine.withdraw (genuine : ledger.Genuine none) (inv : ledger.Inv none)
    (linked : ledger.Linked slot) : (ledger.withdraw slot).Genuine none where
  orders := fun other here => by
    obtain ⟨was, different⟩ := (withdraw_linked inv linked).mp here
    rw [withdraw_data, Function.update_of_ne different]
    exact genuine.orders other was
  arrived := fun _ never => absurd never.symm (Option.some_ne_none _)
  trades := genuine.trades.congr (withdraw_fills ..) (withdraw_reports ..) (withdraw_matchCount ..)
    (withdraw_tradeCb ..)

theorem Genuine.ticked (genuine : ledger.Genuine none) : ledger.ticked.Genuine none where
  orders := genuine.orders
  arrived := genuine.arrived
  trades := genuine.trades.congr rfl rfl rfl rfl

/-- A smaller quantity leaves an order genuine exactly when it is not zero. -/
theorem Genuine.shrink_iff (genuine : ledger.Genuine none) (inv : ledger.Inv none)
    (linked : ledger.Linked slot) {newQty : Quantity} (fits : newQty ≤ (ledger.data slot).remaining) :
    (ledger.shrink slot newQty).Genuine none ↔ newQty ≠ 0 := by
  have filledLe := inv.filledLe linked
  have self : (ledger.shrink slot newQty).data slot = { ledger.data slot with
      quantity := (ledger.data slot).filledQuantity + newQty } := by
    rw [shrink_data, Function.update_self]
  have grows : (ledger.data slot).filledQuantity < (ledger.data slot).filledQuantity + newQty ↔
      newQty ≠ 0 := by
    rw [UInt64.lt_iff_toNat_lt, toNat_add_of_fits filledLe fits, ← UInt64.toNat_inj.ne]
    show _ ↔ _ ≠ 0
    omega
  constructor
  · intro after
    have open_ := (after.orders slot (shrink_linked.mpr linked)).1
    rw [self] at open_
    exact grows.mp open_
  · intro some_
    exact {
      orders := fun other here => by
        have was := shrink_linked.mp here
        by_cases same : other = slot
        · subst same
          rw [self]
          exact ⟨grows.mpr some_, (genuine.orders other was).2⟩
        · rw [shrink_data, Function.update_of_ne same]
          exact genuine.orders other was
      arrived := fun _ never => absurd never.symm (Option.some_ne_none _)
      trades := genuine.trades }

/-- Only a modify to zero makes an empty order. -/
theorem CallRun.genuine_iff {call : Call} {answer : Bool} (run : ledger.CallRun call answer after)
    (settled : ledger.Settled) (admissible : call.Admissible) (genuine : ledger.Genuine none) :
    after.Genuine none ↔ match call with
      | .modify id newQty => newQty = 0 → ∀ slot, ledger.orderMap (mapSlot id) = some slot →
          (ledger.data slot).id = id → ¬ ledger.Linked slot
      | _ => True := by
  have inv := settled.toInv
  cases run with
  | add run => exact iff_of_true (genuine.add settled admissible.2.1 admissible.2.2 run) trivial
  | cancelMissing missing => exact iff_of_true genuine trivial
  | cancel found => exact iff_of_true (genuine.withdraw inv (inv.found_linked found).1) trivial
  | modifyMissing missing =>
      refine iff_of_true genuine fun _ slot mapped named linked => ?_
      rw [findLive_eq_some.mpr ⟨mapped, named, inv.live linked⟩] at missing
      exact absurd missing (Option.some_ne_none _)
  | @shrink id newQty slot found fits =>
      have linked := (inv.found_linked found).1
      obtain ⟨mapped, named, -⟩ := findLive_eq_some.mp found
      rw [genuine.shrink_iff inv linked fits]
      constructor
      · exact fun some_ zero => absurd zero some_
      · exact fun safe zero => safe zero slot mapped named linked
  | @replace id newQty slot placed after found larger run =>
      have linked := (inv.found_linked found).1
      obtain ⟨-, inside, positive⟩ := settled.replacement_admissible linked larger
      have withdrawn := genuine.withdraw inv linked
      refine iff_of_true ?_ fun zero => absurd zero ?_
      · exact withdrawn.ticked.add (settled.withdraw linked).ticked inside positive run
      · intro equal
        subst equal
        exact larger UInt64.zero_le

end Ledger

/-- The book is genuine exactly when its ledger is. -/
theorem Represents.genuine_iff {book : OrderBook} {ledger : Ledger} (same : Represents book ledger)
    (inv : ledger.Inv none) : book.Genuine ↔ ledger.Genuine none := by
  have core := same.core
  constructor
  · intro genuine
    exact {
      orders := fun slot linked => by
        rw [← same.data]
        exact genuine.orders slot ((same.linked_iff inv slot).mpr linked)
      arrived := fun _ never => absurd never.symm (Option.some_ne_none _)
      trades := by rw [← core]; exact genuine.trades }
  · intro genuine
    exact {
      orders := fun slot linked => by
        rw [same.data]
        exact genuine.orders slot ((same.linked_iff inv slot).mp linked)
      trades := by rw [core]; exact genuine.trades }

/-- A run keeps every order and every trade real exactly when none of its modifies empties an order. -/
theorem genuine_throughout_iff (tradeCb : Bool) (clock : Nat → Nanos) (calls : List Call)
    (admissible : ∀ call ∈ calls, call.Admissible) :
    (∀ past, past <+: calls → ((OrderBook.empty tradeCb clock).run past).Genuine) ↔
      ∀ past call, past ++ [call] <+: calls →
        ((OrderBook.empty tradeCb clock).run past).GenuineSafe call := by
  refine holds_throughout_iff ?_ ?_ admissible
  · apply ((Represents.empty tradeCb clock).genuine_iff Ledger.empty_settled.toInv).mpr
    exact {
      orders := fun _ linked => absurd linked List.not_mem_nil
      arrived := fun _ never => absurd never.symm (Option.some_ne_none _)
      trades := ⟨fun _ member => absurd member List.not_mem_nil,
        fun _ member => absurd member List.not_mem_nil, rfl, fun _ => rfl⟩ }
  · intro book ledger call same settled admissible genuine
    obtain ⟨after, run, sameAfter, invAfter⟩ := same.call settled.toInv admissible.sound
    rw [same.genuine_iff settled.toInv] at genuine
    rw [sameAfter.genuine_iff invAfter, run.genuine_iff settled admissible genuine]
    cases call with
    | add msg => exact Iff.rfl
    | cancel id => exact Iff.rfl
    | modify id newQty =>
        simp only [OrderBook.GenuineSafe, same.core, same.id_eq, same.linked_iff settled.toInv]

theorem genuine_throughout_iff_of_partial_fill :
    let calls := [Call.add (.sell 1 65535 5), .add (.buy 2 65535 3), .modify 1 1, .modify 2 0]
    (∀ past, past <+: calls → ((OrderBook.empty true fun _ => 1).run past).Genuine) ↔
      ∀ past call, past ++ [call] <+: calls →
        ((OrderBook.empty true fun _ => 1).run past).GenuineSafe call :=
  genuine_throughout_iff true (fun _ => 1) _ (by decide)

/-- A modify to zero leaves an empty order in its level. -/
theorem empty_order_after_modify :
    let calls := [Call.add (.sell 1 65535 5), .modify 1 0]
    let book := (OrderBook.empty true fun _ => 1).run calls
    (∀ call ∈ calls, call.Admissible) ∧ book.Linked 0 ∧ (book.order 0).quantity = 0 ∧
      (book.order 0).filledQuantity = 0 ∧ ¬ book.Genuine := by
  intro calls book
  have linked : book.Linked 0 := ⟨.ask, 65535, by decide +kernel⟩
  have quantity : (book.order 0).quantity = 0 := by decide +kernel
  have filled : (book.order 0).filledQuantity = 0 := by decide +kernel
  refine ⟨by decide, linked, quantity, filled, fun genuine => ?_⟩
  have left := (genuine.orders 0 linked).1
  rw [quantity, filled] at left
  exact absurd left (by decide)

end OrderEngine
