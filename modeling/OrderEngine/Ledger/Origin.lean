import OrderEngine.Ledger.Outcome

namespace OrderEngine

open Library

/-- A buy and an order of another side, both with the property, trade within both limits and at one of them. -/
def TradeReport.Between (Known : OrderId → Side → Int → Prop) (report : TradeReport) : Prop :=
  ∃ seller bid ask, seller ≠ Side.buy ∧ Known report.buyOrderId Side.buy bid ∧ Known report.sellOrderId seller ask ∧
    ask ≤ report.price ∧ report.price ≤ bid ∧ (report.price = ask ∨ report.price = bid)

/-- The call adds an order under this identifier. -/
def Call.adds (id : OrderId) : Call → Bool
  | .add msg => msg.orderId == id
  | _ => false

namespace Ledger

variable {Known : OrderId → Side → Int → Prop} {ledger next after : Ledger} {since : Nat}
  {pending other : Option Ptr} {incoming slot : Ptr} {others : List Ptr} {msg : OrderMessage} {placed : Option Ptr}

def Knows (ledger : Ledger) (Known : OrderId → Side → Int → Prop) (slot : Ptr) : Prop :=
  Known (ledger.data slot).id (ledger.data slot).side (ledger.price slot)

/-- Every order has the property, and every later report is a trade between two such orders. -/
structure Traceable (ledger : Ledger) (Known : OrderId → Side → Int → Prop) (since : Nat)
    (pending : Option Ptr) : Prop where
  started : since ≤ ledger.reports.length
  orders : ∀ slot, ledger.Linked slot → ledger.Knows Known slot
  arrived : ∀ slot, pending = some slot → ledger.Knows Known slot
  reports : ∀ report ∈ ledger.reports.drop since, report.Between Known

namespace Traceable

/-- A step that takes orders away and reports at most one trade between known orders keeps them traceable. -/
theorem keep (traceable : ledger.Traceable Known since pending)
    (orders : ∀ slot, next.Linked slot → ledger.Linked slot ∧ next.Knows Known slot)
    (arrived : ∀ slot, other = some slot → next.Knows Known slot)
    (reports : next.reports = ledger.reports ∨ ∃ report, next.reports = ledger.reports ++ [report] ∧
      report.Between Known) : next.Traceable Known since other := by
  refine ⟨?_, fun slot linked => (orders slot linked).2, arrived, ?_⟩
  · rcases reports with same | ⟨report, longer, -⟩
    · rw [same]
      exact traceable.started
    · rw [longer, List.length_append]
      exact Nat.le_add_right_of_le traceable.started
  · rcases reports with same | ⟨report, longer, between⟩
    · rw [same]
      exact traceable.reports
    · rw [longer, List.drop_append_of_le_length traceable.started]
      intro made member
      rcases List.mem_append.mp member with old | new
      · exact traceable.reports made old
      · rw [List.mem_singleton.mp new]
        exact between

end Traceable

/-- The two orders of a trade stand on different sides, and the resting one sets the price. -/
theorem tradeReport_between (inv : ledger.Inv (some incoming)) (crosses : ledger.Crosses incoming) {resting : Ptr}
    {rest : List Ptr} (head : ledger.queue (ledger.facing incoming) (ledger.best (ledger.facing incoming)) =
      resting :: rest) (known : ledger.Knows Known resting) (own : ledger.Knows Known incoming) (qty : Quantity) :
    (ledger.tradeReport (ledger.data resting) (ledger.data incoming) qty).Between Known := by
  obtain ⟨-, near, -⟩ := crosses
  obtain ⟨-, facing, price⟩ := head_linked inv.toShelved head
  rw [← price] at near
  have bought (slot : Ptr) (bid : ledger.wing slot = .bid) : (ledger.data slot).side = Side.buy := by
    by_contra sell
    rw [Ledger.wing, Side.wing, if_neg sell] at bid
    exact absurd bid (by decide)
  have sold (slot : Ptr) (ask : ledger.wing slot = .ask) : (ledger.data slot).side ≠ Side.buy := by
    intro buy
    rw [Ledger.wing, Side.wing, if_pos buy] at ask
    exact absurd ask (by decide)
  unfold Knows at known own
  cases wing : ledger.wing incoming with
  | bid =>
      rw [Ledger.facing, wing] at facing near
      have sell := sold resting facing
      rw [bought incoming wing] at own
      refine ⟨_, _, _, sell, ?_, ?_, le_refl _, near, .inl rfl⟩
      · show Known (if (ledger.data resting).side = Side.buy then _ else _) _ _
        rw [if_neg sell]
        exact own
      · show Known (if (ledger.data resting).side = Side.buy then _ else _) _ _
        rw [if_neg sell]
        exact known
  | ask =>
      rw [Ledger.facing, wing] at facing near
      have buy := bought resting facing
      rw [buy] at known
      refine ⟨_, _, _, sold incoming wing, ?_, ?_, neg_le_neg_iff.mp near, le_refl _, .inr rfl⟩
      · show Known (if (ledger.data resting).side = Side.buy then _ else _) _ _
        rw [if_pos buy]
        exact known
      · show Known (if (ledger.data resting).side = Side.buy then _ else _) _ _
        rw [if_pos buy]
        exact own

theorem MatchStep.traceable (step : MatchStep incoming ledger next) (inv : ledger.Inv (some incoming))
    (traceable : ledger.Traceable Known since (some incoming)) : next.Traceable Known since (some incoming) := by
  have same (slot : Ptr) : next.Knows Known slot ↔ ledger.Knows Known slot := by
    obtain ⟨id, side, price, -⟩ := step.same_order slot
    rw [Knows, Knows, id, side, price]
  refine traceable.keep (fun slot linked => ?_) (fun slot here => (same slot).mpr (traceable.arrived slot here)) ?_
  · have before : ledger.Linked slot := by
      cases step with
      | @trade resting rest crosses head => exact ((trade_linked inv head).mp linked).1
      | rescan valid empty => exact linked
    exact ⟨before, (same slot).mpr (traceable.orders slot before)⟩
  · cases step with
    | @trade resting rest crosses head =>
        rw [Ledger.trade, fill_reports]
        split
        · have known := traceable.orders resting (head_linked inv.toShelved head).1
          exact .inr ⟨_, rfl, tradeReport_between inv crosses head known (traceable.arrived incoming rfl) _⟩
        · exact .inl rfl
    | rescan valid empty => exact .inl (rescan_reports ..)

theorem MatchRun.traceable (run : MatchRun incoming ledger after) (inv : ledger.Inv (some incoming))
    (traceable : ledger.Traceable Known since (some incoming)) : after.Traceable Known since (some incoming) := by
  induction run with
  | refl => exact traceable
  | tail earlier step ih => exact step.traceable (MatchRun.inv earlier inv) ih

theorem AddRun.traceable (run : ledger.AddRun msg placed after) (inv : ledger.Inv none) (inside : InTicks msg.price)
    (positive : 0 < msg.quantity) (known : Known msg.orderId msg.side msg.price)
    (traceable : ledger.Traceable Known since none) : after.Traceable Known since none := by
  have entered {slot : Ptr} {others : List Ptr} (free : ledger.free = slot :: others) :
      (ledger.enroll slot others msg).Traceable Known since (some slot) := by
    refine traceable.keep (fun other linked => ?_) (fun other here => ?_) (.inl rfl)
    · have before := (inv.enroll_linked (by simp [free]) others msg).mp linked
      refine ⟨before, ?_⟩
      have different : other ≠ slot := by
        intro equal
        subst equal
        exact inv.fresh (by simp [free]) before
      have kept := traceable.orders other before
      unfold Knows at kept ⊢
      rw [Ledger.price, enroll_data_other _ _ _ different]
      exact kept
    · obtain rfl := Option.some.inj here
      rw [Knows, Ledger.price, enroll_data_self]
      exact known
  cases run with
  | full free => exact traceable
  | @filled slot rest after free run stopped tight done =>
      have matched := run.traceable (inv.enroll free inside positive) (entered free)
      exact matched.keep (fun other linked => ⟨linked, matched.orders other linked⟩)
        (fun other here => absurd here.symm (Option.some_ne_none _)) (.inl rfl)
  | @rested slot rest matched free run stopped tight left =>
      have matched := run.traceable (inv.enroll free inside positive) (entered free)
      refine ⟨?_, fun other linked => ?_, fun other here => absurd here.symm (Option.some_ne_none _), ?_⟩
      · rw [rest_reports]
        exact matched.started
      · rw [Knows, Ledger.price, rest_data]
        rcases rest_linked.mp linked with before | rfl
        · exact matched.orders other before
        · exact matched.arrived other rfl
      · rw [rest_reports]
        exact matched.reports

/-- A call keeps the orders known when the order that it adds is. -/
theorem CallRun.traceable {call : Call} {answer : Bool} (run : ledger.CallRun call answer after) (inv : ledger.Inv none)
    (sound : call.Sound) (known : ∀ msg, call = .add msg → Known msg.orderId msg.side msg.price)
    (traceable : ledger.Traceable Known since none) : after.Traceable Known since none := by
  have withdrawn {slot : Ptr} (linked : ledger.Linked slot) : (ledger.withdraw slot).Traceable Known since none := by
    refine traceable.keep (fun other there => ?_) (fun other here => absurd here.symm (Option.some_ne_none _))
      (.inl (withdraw_reports ..))
    have before := ((withdraw_linked inv linked).mp there).1
    have kept := traceable.orders other before
    refine ⟨before, ?_⟩
    rw [Knows, withdraw_id, withdraw_side, withdraw_price]
    exact kept
  cases run with
  | add run => exact run.traceable inv sound.1 sound.2 (known _ rfl) traceable
  | cancelMissing missing => exact traceable
  | cancel found => exact withdrawn (inv.found_linked found).1
  | modifyMissing missing => exact traceable
  | @shrink id newQty slot found fits =>
      refine traceable.keep (fun other there => ?_) (fun other here => absurd here.symm (Option.some_ne_none _))
        (.inl rfl)
      have before := shrink_linked.mp there
      have kept := traceable.orders other before
      refine ⟨before, ?_⟩
      rw [Knows, shrink_id, shrink_side, shrink_price]
      exact kept
  | @replace id newQty slot placed after found larger run =>
      obtain ⟨linked, named⟩ := inv.found_linked found
      have ticked : (ledger.withdraw slot).ticked.Traceable Known since none :=
        (withdrawn linked).keep (fun other there => ⟨there, (withdrawn linked).orders other there⟩)
          (fun other here => absurd here.symm (Option.some_ne_none _)) (.inl rfl)
      have own : Known id ((ledger.withdraw slot).replacement slot id newQty).side
          ((ledger.withdraw slot).replacement slot id newQty).price := by
        have side : ((ledger.withdraw slot).replacement slot id newQty).side = (ledger.data slot).side :=
          withdraw_side slot
        rw [side, replacement_price, ← named]
        exact traceable.orders slot linked
      have inside : InTicks ((ledger.withdraw slot).replacement slot id newQty).price := by
        rw [replacement_price]
        exact inv.inTicks linked
      have positive : 0 < ((ledger.withdraw slot).replacement slot id newQty).quantity :=
        UInt64.lt_of_le_of_lt UInt64.zero_le (UInt64.not_le.mp larger)
      exact run.traceable (inv.withdraw linked).ticked inside positive own ticked

/-- No linked order carries this identifier. -/
def Absent (ledger : Ledger) (id : OrderId) : Prop := ∀ slot, ledger.Linked slot → (ledger.data slot).id ≠ id

/-- At most one linked order carries this identifier. -/
def Lone (ledger : Ledger) (id : OrderId) : Prop :=
  ∀ slot other, ledger.Linked slot → ledger.Linked other → (ledger.data slot).id = id →
    (ledger.data other).id = id → slot = other

variable {id : OrderId}

theorem Absent.lone (absent : ledger.Absent id) : ledger.Lone id :=
  fun slot _ linked _ named _ => absurd named (absent slot linked)

/-- An absent identifier stays absent where no order of it comes in. -/
theorem Absent.fewer (absent : ledger.Absent id)
    (fewer : ∀ slot, next.Linked slot → (next.data slot).id = id → ledger.Linked slot ∧ (ledger.data slot).id = id) :
    next.Absent id := by
  intro slot linked named
  obtain ⟨before, same⟩ := fewer slot linked named
  exact absent slot before same

theorem Lone.fewer (lone : ledger.Lone id)
    (fewer : ∀ slot, next.Linked slot → (next.data slot).id = id → ledger.Linked slot ∧ (ledger.data slot).id = id) :
    next.Lone id := by
  intro slot other first second named also
  obtain ⟨before, same⟩ := fewer slot first named
  obtain ⟨prior, equal⟩ := fewer other second also
  exact lone slot other before prior same equal

/-- Withdrawing the only order of an identifier makes it absent. -/
theorem Lone.withdraw (lone : ledger.Lone id) (inv : ledger.Inv none) (linked : ledger.Linked slot)
    (named : (ledger.data slot).id = id) : (ledger.withdraw slot).Absent id := by
  intro other there equal
  obtain ⟨was, different⟩ := (withdraw_linked inv linked).mp there
  rw [withdraw_id] at equal
  exact different (lone other slot was linked equal named)

theorem withdraw_fewer (inv : ledger.Inv none) (linked : ledger.Linked slot) (other : Ptr)
    (there : (ledger.withdraw slot).Linked other) (named : ((ledger.withdraw slot).data other).id = id) :
    ledger.Linked other ∧ (ledger.data other).id = id := by
  rw [withdraw_id] at named
  exact ⟨((withdraw_linked inv linked).mp there).1, named⟩

/-- After an add an order was linked before, or it is the new one. -/
theorem AddRun.linked_cases (run : ledger.AddRun msg placed after) (inv : ledger.Inv none) (inside : InTicks msg.price)
    (positive : 0 < msg.quantity) (linked : after.Linked slot) :
    (ledger.Linked slot ∧ (after.data slot).id = (ledger.data slot).id) ∨
      (placed = some slot ∧ (after.data slot).id = msg.orderId) := by
  have matched {own : Ptr} {others : List Ptr} {done : Ledger} (free : ledger.free = own :: others)
      (run : MatchRun own (ledger.enroll own others msg) done) (there : done.Linked slot) :
      ledger.Linked slot ∧ (done.data slot).id = (ledger.data slot).id := by
    obtain ⟨id, side, price, -⟩ := run.same_order slot
    have kept : (ledger.enroll own others msg).Linked slot := by
      rw [Linked, run.wing_eq, price] at there
      exact run.mem_of_mem (inv.enroll free inside positive) there
    have before := (inv.enroll_linked (by simp [free]) others msg).mp kept
    have different : slot ≠ own := by
      rintro rfl
      exact inv.fresh (by simp [free]) before
    exact ⟨before, by rw [id, enroll_data_other _ _ _ different]⟩
  cases run with
  | full free => exact .inl ⟨linked, rfl⟩
  | @filled own rest after free run stopped tight done => exact .inl (matched free run linked)
  | @rested own rest done free run stopped tight left =>
      rw [rest_data]
      rcases rest_linked.mp linked with before | rfl
      · exact .inl (matched free run before)
      · exact .inr ⟨rfl, by rw [(run.same_order slot).1, enroll_data_self]⟩

/-- An add of another identifier brings no order of this one. -/
theorem AddRun.fewer (run : ledger.AddRun msg placed after) (inv : ledger.Inv none) (inside : InTicks msg.price)
    (positive : 0 < msg.quantity) (different : msg.orderId ≠ id) (slot : Ptr) (linked : after.Linked slot)
    (named : (after.data slot).id = id) : ledger.Linked slot ∧ (ledger.data slot).id = id := by
  rcases run.linked_cases inv inside positive linked with ⟨before, same⟩ | ⟨-, new⟩
  · exact ⟨before, same.symm.trans named⟩
  · exact absurd (new.symm.trans named) different

/-- An add leaves at most one order of an identifier that was absent. -/
theorem AddRun.lone (run : ledger.AddRun msg placed after) (inv : ledger.Inv none) (inside : InTicks msg.price)
    (positive : 0 < msg.quantity) (absent : ledger.Absent id) : after.Lone id := by
  intro slot other first second named also
  rcases run.linked_cases inv inside positive first with ⟨before, same⟩ | ⟨new, -⟩
  · exact absurd (same.symm.trans named) (absent slot before)
  rcases run.linked_cases inv inside positive second with ⟨before, same⟩ | ⟨again, -⟩
  · exact absurd (same.symm.trans also) (absent other before)
  · exact Option.some.inj (new.symm.trans again)

/-- A modify that replaces the only order of its identifier takes it away before it adds it again. -/
theorem replaced_lone (inv : ledger.Inv none) (linked : ledger.Linked slot) {newQty : Quantity}
    (positive : 0 < newQty)
    (run : (ledger.withdraw slot).ticked.AddRun
      ((ledger.withdraw slot).replacement slot (ledger.data slot).id newQty) placed after)
    (lone : ledger.Lone id) : after.Lone id := by
  have inside : InTicks ((ledger.withdraw slot).replacement slot (ledger.data slot).id newQty).price := by
    rw [replacement_price]
    exact inv.inTicks linked
  have ticked := (inv.withdraw linked).ticked
  by_cases named : (ledger.data slot).id = id
  · exact run.lone ticked inside positive (lone.withdraw inv linked named)
  · exact (lone.fewer (withdraw_fewer inv linked)).fewer (run.fewer ticked inside positive named)

variable {call : Call} {answer : Bool}

/-- A call that does not add the identifier leaves at most one order of it where at most one was. -/
theorem CallRun.lone (run : ledger.CallRun call answer after) (inv : ledger.Inv none) (sound : call.Sound)
    (other : call.adds id = false) (lone : ledger.Lone id) : after.Lone id := by
  cases run with
  | add run => exact lone.fewer (run.fewer inv sound.1 sound.2 (by simpa [Call.adds] using other))
  | cancelMissing missing => exact lone
  | cancel found => exact lone.fewer (withdraw_fewer inv (inv.found_linked found).1)
  | modifyMissing missing => exact lone
  | shrink found fits =>
      refine lone.fewer fun slot linked named => ⟨shrink_linked.mp linked, ?_⟩
      rwa [shrink_id] at named
  | @replace name newQty slot placed after found larger run =>
      obtain ⟨linked, named⟩ := inv.found_linked found
      subst named
      exact replaced_lone inv linked (UInt64.lt_of_le_of_lt UInt64.zero_le (UInt64.not_le.mp larger)) run lone

/-- An identifier that is absent stays absent until a call adds it. -/
theorem CallRun.absent (run : ledger.CallRun call answer after) (inv : ledger.Inv none) (sound : call.Sound)
    (other : call.adds id = false) (absent : ledger.Absent id) : after.Absent id := by
  cases run with
  | add run => exact absent.fewer (run.fewer inv sound.1 sound.2 (by simpa [Call.adds] using other))
  | cancelMissing missing => exact absent
  | cancel found => exact absent.fewer (withdraw_fewer inv (inv.found_linked found).1)
  | modifyMissing missing => exact absent
  | shrink found fits =>
      refine absent.fewer fun slot linked named => ⟨shrink_linked.mp linked, ?_⟩
      rwa [shrink_id] at named
  | @replace name newQty slot placed after found larger run =>
      obtain ⟨linked, named⟩ := inv.found_linked found
      have inside : InTicks ((ledger.withdraw slot).replacement slot name newQty).price := by
        rw [replacement_price]
        exact inv.inTicks linked
      have different : name ≠ id := by
        rintro rfl
        exact absent slot linked named
      exact (absent.fewer (withdraw_fewer inv linked)).fewer (run.fewer (inv.withdraw linked).ticked inside
        (UInt64.lt_of_le_of_lt UInt64.zero_le (UInt64.not_le.mp larger)) different)

/-- The first add of an identifier leaves at most one order of it. -/
theorem CallRun.lone_of_absent (run : ledger.CallRun call answer after) (inv : ledger.Inv none) (sound : call.Sound)
    (absent : ledger.Absent id) : after.Lone id := by
  by_cases other : call.adds id = false
  · exact (run.absent inv sound other absent).lone
  · cases run with
    | add run => exact run.lone inv sound.1 sound.2 absent
    | _ => exact absurd rfl other

end Ledger

end OrderEngine
