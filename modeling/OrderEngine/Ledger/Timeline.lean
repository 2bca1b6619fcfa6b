import OrderEngine.Ledger.Settled

namespace OrderEngine

open Library

/-- Later readings of the clock are no smaller. -/
def Forward (clock : Nat → Nanos) : Prop := ∀ first second, first ≤ second → clock first ≤ clock second

/-- The latency of a report is the time from one reading of the clock, at the entry of the order that came in, to a
later one at the match. -/
def TradeReport.Measured (clock : Nat → Nanos) (report : TradeReport) : Prop :=
  ∃ entered matched, entered < matched ∧ report.matchNanos = clock matched ∧ report.latencyCycles.toNat =
    if 0 < clock entered then (clock matched).toNat - (clock entered).toNat else 0

namespace Ledger

variable {clock : Nat → Nanos} {ledger next after : Ledger} {pending other : Option Ptr} {incoming slot : Ptr}
  {others : List Ptr} {msg : OrderMessage} {placed : Option Ptr}

def entryNanos (ledger : Ledger) (slot : Ptr) : Nanos := (ledger.data slot).entryNanos

/-- The clock never goes back, so each level stands in the order of its entries and the reports in the order of
their matches. -/
structure Timed (ledger : Ledger) (clock : Nat → Nanos) (pending : Option Ptr) : Prop where
  running : ledger.clock = clock
  forward : Forward clock
  sorted : ∀ wing price, (ledger.queue wing price).Pairwise fun first second =>
    ledger.entryNanos first ≤ ledger.entryNanos second
  entered : ∀ {wing price slot}, slot ∈ ledger.queue wing price → ledger.entryNanos slot ≤ ledger.rdtsc
  arrived : ∀ {slot}, pending = some slot →
    (∃ reading < ledger.readings, ledger.entryNanos slot = clock reading) ∧
    ∀ {wing price other}, other ∈ ledger.queue wing price → ledger.entryNanos other ≤ ledger.entryNanos slot
  chronicle : ledger.reports.Pairwise fun first second => first.matchNanos ≤ second.matchNanos
  matched : ∀ report ∈ ledger.reports, report.matchNanos ≤ ledger.rdtsc ∧ report.Measured clock

namespace Timed

theorem now (timed : ledger.Timed clock pending) : ledger.rdtsc = clock ledger.readings :=
  congrFun timed.running _

/-- A step that at most takes orders away and makes one report of the current time keeps the timeline. -/
theorem keep (timed : ledger.Timed clock pending) (same : next.clock = ledger.clock)
    (readings : ledger.readings ≤ next.readings)
    (queues : ∀ wing price, (next.queue wing price).Sublist (ledger.queue wing price))
    (entries : ∀ {wing price slot}, slot ∈ ledger.queue wing price → next.entryNanos slot = ledger.entryNanos slot)
    (waiting : ∀ {slot}, other = some slot → pending = some slot ∧ next.entryNanos slot = ledger.entryNanos slot)
    (reports : next.reports = ledger.reports ∨ ∃ report : TradeReport, next.reports = ledger.reports ++ [report] ∧
      report.matchNanos = ledger.rdtsc ∧ report.Measured clock) : next.Timed clock other := by
  have later : ledger.rdtsc ≤ next.rdtsc := by
    unfold BookCore.rdtsc
    rw [same, timed.running]
    exact timed.forward _ _ readings
  constructor
  · exact same.trans timed.running
  · exact timed.forward
  · intro wing price
    refine List.Pairwise.imp_of_mem ?_ ((timed.sorted wing price).sublist (queues wing price))
    intro first second here there less
    rw [entries ((queues wing price).subset here), entries ((queues wing price).subset there)]
    exact less
  · intro wing price slot member
    have before := (queues wing price).subset member
    rw [entries before]
    exact UInt64.le_trans (timed.entered before) later
  · intro slot here
    obtain ⟨was, unchanged⟩ := waiting here
    obtain ⟨⟨reading, read, entered⟩, last⟩ := timed.arrived was
    rw [unchanged]
    refine ⟨⟨reading, Nat.lt_of_lt_of_le read readings, entered⟩, fun {wing price other} member => ?_⟩
    have before := (queues wing price).subset member
    rw [entries before]
    exact last before
  · rcases reports with none_ | ⟨report, longer, now, -⟩
    · rw [none_]
      exact timed.chronicle
    · rw [longer, List.pairwise_append]
      refine ⟨timed.chronicle, List.pairwise_singleton .., fun first here last there => ?_⟩
      rw [List.mem_singleton.mp there, now]
      exact (timed.matched first here).1
  · have old {report : TradeReport} (member : report ∈ ledger.reports) :
        report.matchNanos ≤ next.rdtsc ∧ report.Measured clock :=
      ⟨UInt64.le_trans (timed.matched report member).1 later, (timed.matched report member).2⟩
    rcases reports with none_ | ⟨report, longer, now, measured⟩
    · rw [none_]
      exact fun report => old
    · rw [longer]
      intro other member
      rcases List.mem_append.mp member with before | new
      · exact old before
      · rw [List.mem_singleton.mp new, now]
        exact ⟨later, measured⟩

end Timed

section Clock

variable (ledger : Ledger)

@[simp] theorem fill_clock (resting aggressor : Ptr) (qty : Quantity) :
    (ledger.fill resting aggressor qty).clock = ledger.clock := by
  simp only [fill, recordTrade, BookCore.report]
  split <;> split <;> rfl

theorem fill_readings (resting aggressor : Ptr) (qty : Quantity) :
    ledger.readings ≤ (ledger.fill resting aggressor qty).readings := by
  simp only [fill, recordTrade, BookCore.report]
  split <;> split <;> first | exact Nat.le_refl _ | exact Nat.le_succ _

@[simp] theorem rest_clock (slot : Ptr) : (ledger.rest slot).clock = ledger.clock := by
  simp only [Ledger.rest]
  split <;> cases ledger.wing slot <;> rfl

@[simp] theorem rest_readings (slot : Ptr) : (ledger.rest slot).readings = ledger.readings := by
  simp only [Ledger.rest]
  split <;> cases ledger.wing slot <;> rfl

@[simp] theorem rescan_clock (wing : Wing) : (ledger.rescan wing).clock = ledger.clock := by
  cases wing <;> rfl

@[simp] theorem rescan_readings (wing : Wing) : (ledger.rescan wing).readings = ledger.readings := by
  cases wing <;> rfl

end Clock

/-- A queue that loses an order keeps the others in their order. -/
theorem erase_sublist (ledger : Ledger) (slot : Ptr) (wing : Wing) (price : Int) :
    (setCell ledger.queue (ledger.wing slot) (ledger.price slot)
      ((ledger.queue (ledger.wing slot) (ledger.price slot)).erase slot) wing price).Sublist
        (ledger.queue wing price) := by
  rw [setCell_apply]
  split
  · next here =>
      obtain ⟨rfl, rfl⟩ := here
      exact List.erase_sublist
  · exact List.Sublist.refl _

/-- A trade is reported at the current time. -/
theorem Timed.trade (timed : ledger.Timed clock (some incoming)) (resting : Ptr) :
    (ledger.trade resting incoming).Timed clock (some incoming) := by
  have entries (slot : Ptr) : (ledger.trade resting incoming).entryNanos slot = ledger.entryNanos slot :=
    fill_entryNanos ..
  refine timed.keep (fill_clock ..) (fill_readings ..) ?_ (fun _ => entries _) (fun here => ⟨here, entries _⟩) ?_
  · intro wing price
    rw [Ledger.trade, fill_queue]
    split
    · exact erase_sublist ..
    · exact List.Sublist.refl _
  · rw [Ledger.trade, fill_reports]
    split
    · obtain ⟨reading, read, entered⟩ := (timed.arrived rfl).1
      refine .inr ⟨_, rfl, rfl, reading, ledger.readings, read, timed.now, ?_⟩
      have before : clock reading ≤ clock ledger.readings := timed.forward _ _ (Nat.le_of_lt read)
      rw [← entered, ← timed.now] at before ⊢
      by_cases late : 0 < ledger.entryNanos incoming
      · rw [if_pos late]
        exact (congrArg UInt64.toNat (if_pos late)).trans (UInt64.toNat_sub_of_le _ _ before)
      · rw [if_neg late]
        exact congrArg UInt64.toNat (if_neg late)
    · exact .inl rfl

theorem MatchStep.timed (step : MatchStep incoming ledger next) (timed : ledger.Timed clock (some incoming)) :
    next.Timed clock (some incoming) := by
  cases step with
  | @trade resting rest crosses head => exact timed.trade resting
  | rescan valid empty =>
      exact timed.keep (rescan_clock ..) (Nat.le_of_eq (rescan_readings ..).symm) (fun _ _ => List.Sublist.refl _)
        (fun _ => rfl) (fun here => ⟨here, rfl⟩) (.inl (rescan_reports ..))

theorem MatchRun.timed (run : MatchRun incoming ledger after) (timed : ledger.Timed clock (some incoming)) :
    after.Timed clock (some incoming) := by
  induction run with
  | refl => exact timed
  | tail earlier step ih => exact step.timed ih

/-- A new order enters now, so no order that waits entered later. -/
theorem Timed.enroll (timed : ledger.Timed clock none) (inv : ledger.Inv none) (free : ledger.free = slot :: others) :
    (ledger.enroll slot others msg).Timed clock (some slot) := by
  have now : (ledger.enroll slot others msg).entryNanos slot = ledger.rdtsc := by
    rw [entryNanos, enroll_data_self]
  have before {wing : Wing} {price : Int} {other : Ptr} (member : other ∈ ledger.queue wing price) :
      (ledger.enroll slot others msg).entryNanos other = ledger.entryNanos other := by
    have different : other ≠ slot := by
      intro equal
      subst equal
      exact inv.fresh (by simp [free]) member
    rw [entryNanos, enroll_data_other _ _ _ different]
    rfl
  have kept : (ledger.enroll slot others msg).Timed clock none :=
    timed.keep rfl (Nat.le_succ _) (fun _ _ => List.Sublist.refl _) before
      (fun here => absurd here.symm (Option.some_ne_none _)) (.inl rfl)
  refine { kept with arrived := fun {other} here => ?_ }
  obtain rfl := Option.some.inj here
  rw [now]
  refine ⟨⟨ledger.readings, Nat.lt_succ_self _, timed.now⟩, fun {wing price other} member => ?_⟩
  rw [before member]
  exact timed.entered member

/-- An order that rests stands behind those that entered before it. -/
theorem Timed.rest (timed : ledger.Timed clock (some slot)) : (ledger.rest slot).Timed clock none := by
  obtain ⟨⟨reading, read, entered⟩, last⟩ := timed.arrived rfl
  have same : (ledger.rest slot).entryNanos = ledger.entryNanos := by
    unfold entryNanos
    rw [rest_data]
  have now : (ledger.rest slot).rdtsc = ledger.rdtsc := by
    unfold BookCore.rdtsc
    rw [rest_clock, rest_readings]
  constructor
  · exact (rest_clock ..).trans timed.running
  · exact timed.forward
  · intro wing price
    rw [rest_queue, setCell_apply, same]
    split
    · rw [List.pairwise_append]
      refine ⟨timed.sorted _ _, List.pairwise_singleton .., fun first here second there => ?_⟩
      rw [List.mem_singleton.mp there]
      exact last here
    · exact timed.sorted wing price
  · intro wing price other member
    rw [same, now]
    rcases mem_rest_queue.mp member with old | ⟨rfl, -⟩
    · exact timed.entered old
    · rw [entered, timed.now]
      exact timed.forward _ _ (Nat.le_of_lt read)
  · intro other here
    exact absurd here.symm (Option.some_ne_none _)
  · rw [rest_reports]
    exact timed.chronicle
  · rw [rest_reports, now]
    exact timed.matched

theorem AddRun.timed (run : ledger.AddRun msg placed after) (inv : ledger.Inv none) (timed : ledger.Timed clock none) :
    after.Timed clock none := by
  cases run with
  | full free => exact timed
  | @filled slot others after free run stopped tight done =>
      have matched := run.timed (timed.enroll inv free)
      exact matched.keep rfl (Nat.le_refl _) (fun _ _ => List.Sublist.refl _) (fun _ => rfl)
        (fun here => absurd here.symm (Option.some_ne_none _)) (.inl rfl)
  | @rested slot others matched free run stopped tight left => exact (run.timed (timed.enroll inv free)).rest

theorem Timed.withdraw (timed : ledger.Timed clock none) (slot : Ptr) : (ledger.withdraw slot).Timed clock none := by
  have clock : (ledger.withdraw slot).clock = ledger.clock :=
    ledger.withdraw_cases slot (fun after => after.clock = _) rfl (rescan_clock ..)
  have readings : (ledger.withdraw slot).readings = ledger.readings :=
    ledger.withdraw_cases slot (fun after => after.readings = _) rfl (rescan_readings ..)
  have entries (other : Ptr) : (ledger.withdraw slot).entryNanos other = ledger.entryNanos other := by
    rw [entryNanos, withdraw_data]
    exact update_field OrderData.entryNanos ledger.data (by rfl) other
  refine timed.keep clock (Nat.le_of_eq readings.symm) ?_ (fun _ => entries _)
    (fun here => absurd here.symm (Option.some_ne_none _)) (.inl (withdraw_reports ..))
  intro wing price
  rw [withdraw_queue]
  exact erase_sublist ..

/-- An order that asks for less keeps its entry, and one that asks for more enters again. -/
theorem CallRun.timed {call : Call} {answer : Bool} (run : ledger.CallRun call answer after) (inv : ledger.Inv none)
    (timed : ledger.Timed clock none) : after.Timed clock none := by
  cases run with
  | add run => exact run.timed inv timed
  | cancelMissing missing => exact timed
  | cancel found => exact timed.withdraw _
  | modifyMissing missing => exact timed
  | @shrink id newQty slot found fits =>
      have entries (other : Ptr) : (ledger.shrink slot newQty).entryNanos other = ledger.entryNanos other := by
        rw [entryNanos, shrink_data]
        exact update_field OrderData.entryNanos ledger.data (by rfl) other
      refine timed.keep rfl (Nat.le_refl _) ?_ (fun _ => entries _)
        (fun here => absurd here.symm (Option.some_ne_none _)) (.inl rfl)
      intro wing price
      rw [shrink_queue]
  | @replace id newQty slot placed after found larger run =>
      have ticked : (ledger.withdraw slot).ticked.Timed clock none :=
        (timed.withdraw slot).keep rfl (Nat.le_succ _) (fun _ _ => List.Sublist.refl _) (fun _ => rfl)
          (fun here => absurd here.symm (Option.some_ne_none _)) (.inl rfl)
      exact run.timed (inv.withdraw (inv.found_linked found).1).ticked ticked

end Ledger

end OrderEngine
