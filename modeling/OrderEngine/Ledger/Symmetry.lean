import OrderEngine.Ledger.Calls

namespace OrderEngine

open Library

/-- The highest tick becomes the lowest one. -/
def reflect (price : Int) : Int := kMaxPriceTicks - 1 - price

theorem reflect_reflect (price : Int) : reflect (reflect price) = price := by
  unfold reflect
  omega

theorem reflect_inTicks {price : Int} : InTicks (reflect price) ↔ InTicks price := by
  unfold reflect InTicks
  constructor
  · rintro ⟨low, high⟩
    constructor <;> omega
  · rintro ⟨low, high⟩
    constructor <;> omega

/-- These are the two sides of the enumeration. -/
def Side.Named (side : Side) : Prop := side = Side.buy ∨ side = Side.sell

instance (side : Side) : Decidable side.Named := inferInstanceAs (Decidable (_ ∨ _))

theorem Side.wing_eq_bid {side : Side} : side.wing = .bid ↔ side = Side.buy := by
  unfold wing
  split <;> simp_all

/-- This is the order that a message brings. -/
def OrderMessage.order (msg : OrderMessage) (now : Nanos) : OrderData where
  id := msg.orderId
  side := msg.side
  status := .active
  price := msg.price
  quantity := msg.quantity
  filledQuantity := 0
  timestamp := msg.arrivalCycles
  entryNanos := now

/-- A symmetry renames the sides and the times of a ledger. A mirror also exchanges the wings and reflects
the ticks. The matching must not notice. -/
structure Symmetry where
  mirrors : Bool
  side : Side → Side
  time : Nanos → Nanos
  side_wing : ∀ value, (side value).wing = if mirrors then value.wing.opposite else value.wing
  side_named : ∀ value, value.Named → (side value).Named
  time_latency : ∀ entry now, time (if entry > 0 then now - entry else 0) =
    if time entry > 0 then time now - time entry else 0

namespace Symmetry

variable (symmetry : Symmetry)

def wing (wing : Wing) : Wing := if symmetry.mirrors then wing.opposite else wing

def tick (price : Int) : Int := if symmetry.mirrors then reflect price else price

/-- A price that is invalid stays invalid. -/
def quote (price : Int) : Int := if price = kInvalidPrice then kInvalidPrice else symmetry.tick price

section Ticks

theorem wing_involutive : Function.Involutive symmetry.wing := by
  intro place
  unfold wing
  split
  · cases place <;> rfl
  · rfl

theorem tick_involutive : Function.Involutive symmetry.tick := by
  intro price
  unfold tick
  split
  · exact reflect_reflect price
  · rfl

@[simp] theorem wing_wing (place : Wing) : symmetry.wing (symmetry.wing place) = place :=
  symmetry.wing_involutive place

@[simp] theorem tick_tick (price : Int) : symmetry.tick (symmetry.tick price) = price :=
  symmetry.tick_involutive price

theorem wing_opposite (place : Wing) : symmetry.wing place.opposite = (symmetry.wing place).opposite := by
  unfold wing
  split <;> rfl

theorem tick_inTicks {price : Int} : InTicks (symmetry.tick price) ↔ InTicks price := by
  unfold tick
  split
  · exact reflect_inTicks
  · exact Iff.rfl

theorem rank_tick_le (place : Wing) (first second : Int) :
    (symmetry.wing place).rank (symmetry.tick first) ≤ (symmetry.wing place).rank (symmetry.tick second) ↔
      place.rank first ≤ place.rank second := by
  unfold wing tick reflect
  split
  · cases place <;> simp only [Wing.opposite, Wing.rank] <;> omega
  · exact Iff.rfl

theorem tick_stride (place : Wing) (price : Int) :
    symmetry.tick (price + place.stride) = symmetry.tick price + (symmetry.wing place).stride := by
  unfold wing tick reflect
  split
  · cases place <;> simp only [Wing.opposite, Wing.stride] <;> omega
  · rfl

theorem reach_tick (place : Wing) (price : Int) :
    (symmetry.wing place).reach (symmetry.tick price) = place.reach price := by
  unfold wing tick reflect
  split
  · cases place <;> simp only [Wing.opposite, Wing.reach] <;> omega
  · rfl

theorem quote_of_inTicks {price : Int} (inside : InTicks price) :
    symmetry.quote price = symmetry.tick price := by
  apply if_neg
  intro invalid
  exact kInvalidPrice_outside (invalid ▸ inside)

@[simp] theorem quote_invalid : symmetry.quote kInvalidPrice = kInvalidPrice := if_pos rfl

/-- A quote is missing exactly when its image is. -/
theorem quote_eq_invalid {price : Int} (inside : price ≠ kInvalidPrice → InTicks price) :
    symmetry.quote price = kInvalidPrice ↔ price = kInvalidPrice := by
  constructor
  · intro missing
    by_contra valid
    rw [symmetry.quote_of_inTicks (inside valid)] at missing
    have image := symmetry.tick_inTicks.mpr (inside valid)
    exact kInvalidPrice_outside (missing ▸ image)
  · intro missing
    rw [missing, quote_invalid]

theorem tick_eq_quote {price best : Int} (inside : InTicks price)
    (bestInTicks : best ≠ kInvalidPrice → InTicks best) :
    symmetry.tick price = symmetry.quote best ↔ price = best := by
  by_cases missing : best = kInvalidPrice
  · rw [missing, quote_invalid]
    apply iff_of_false
    · intro same
      exact kInvalidPrice_outside (same ▸ symmetry.tick_inTicks.mpr inside)
    · intro same
      exact kInvalidPrice_outside (same ▸ inside)
  · rw [symmetry.quote_of_inTicks (bestInTicks missing)]
    exact symmetry.tick_involutive.injective.eq_iff

/-- The next best price is the image of the next best price. -/
theorem nextBest_tick (place : Wing) (occupied : Int → Bool) {fromPrice : Int} (inside : InTicks fromPrice) :
    nextBest (symmetry.wing place) (fun price => occupied (symmetry.tick price)) (symmetry.tick fromPrice) =
      symmetry.quote (nextBest place occupied fromPrice) := by
  have carried := @scan_map occupied (fun price => occupied (symmetry.tick price)) place.stride
    (symmetry.wing place).stride symmetry.tick (fun price => by rw [tick_tick]) (symmetry.tick_stride place)
    (place.reach fromPrice) fromPrice
  unfold nextBest
  rw [symmetry.reach_tick, carried]
  cases result : scan occupied place.stride (place.reach fromPrice) fromPrice with
  | none => exact symmetry.quote_invalid.symm
  | some found =>
      obtain ⟨index, reached, here, -, -⟩ := scan_eq_some result
      have within : InTicks found := here ▸ Wing.inTicks_of_reach inside reached
      exact (symmetry.quote_of_inTicks within).symm

end Ticks

/-- An order that has a price changes its side with its price. -/
def order (data : OrderData) : OrderData :=
  { data with
    side := if data.price = kInvalidPrice then data.side else symmetry.side data.side
    price := symmetry.quote data.price
    timestamp := symmetry.time data.timestamp
    entryNanos := symmetry.time data.entryNanos }

/-- A mirror exchanges the buyer and the seller. -/
def report (report : TradeReport) : TradeReport where
  buyOrderId := if symmetry.mirrors then report.sellOrderId else report.buyOrderId
  sellOrderId := if symmetry.mirrors then report.buyOrderId else report.sellOrderId
  price := symmetry.tick report.price
  quantity := report.quantity
  matchNanos := symmetry.time report.matchNanos
  latencyCycles := symmetry.time report.latencyCycles

def message (msg : OrderMessage) : OrderMessage :=
  { msg with
    side := symmetry.side msg.side
    price := symmetry.tick msg.price
    arrivalCycles := symmetry.time msg.arrivalCycles }

def call : Call → Call
  | .add msg => .add (symmetry.message msg)
  | .cancel id => .cancel id
  | .modify id newQty => .modify id newQty

def core (core : BookCore) : BookCore :=
  { core with
    bestBid := symmetry.quote (core.best (symmetry.wing .bid))
    bestAsk := symmetry.quote (core.best (symmetry.wing .ask))
    clock := fun reading => symmetry.time (core.clock reading)
    reports := core.reports.map symmetry.report }

def grid {Cell : Type} (grid : Wing → Int → Cell) : Wing → Int → Cell :=
  fun wing price => grid (symmetry.wing wing) (symmetry.tick price)

def ledger (ledger : Ledger) : Ledger where
  toBookCore := symmetry.core ledger.toBookCore
  queue := symmetry.grid ledger.queue
  total := symmetry.grid ledger.total
  data := fun slot => symmetry.order (ledger.data slot)
  free := ledger.free

section Core

variable (core : BookCore)

@[simp] theorem core_best (place : Wing) :
    (symmetry.core core).best place = symmetry.quote (core.best (symmetry.wing place)) := by
  cases place <;> rfl

theorem core_setBest (place : Wing) (price : Int) : symmetry.core (core.setBest place price) =
    (symmetry.core core).setBest (symmetry.wing place) (symmetry.quote price) := by
  unfold Symmetry.core wing
  cases symmetry.mirrors <;> cases place <;> rfl

theorem core_tick : symmetry.core core.tick = (symmetry.core core).tick := by
  unfold Symmetry.core wing
  cases symmetry.mirrors <;> rfl

theorem core_setSlot (id : OrderId) (order : Option Ptr) :
    symmetry.core (core.setSlot id order) = (symmetry.core core).setSlot id order := by
  unfold Symmetry.core wing
  cases symmetry.mirrors <;> rfl

theorem core_count (resting aggressor : Ptr) (qty : Quantity) :
    symmetry.core (core.count resting aggressor qty) = (symmetry.core core).count resting aggressor qty := by
  unfold Symmetry.core wing
  cases symmetry.mirrors <;> rfl

end Core

section Orders

variable (data : OrderData)

@[simp] theorem order_id : (symmetry.order data).id = data.id := rfl

@[simp] theorem order_status : (symmetry.order data).status = data.status := rfl

@[simp] theorem order_quantity : (symmetry.order data).quantity = data.quantity := rfl

@[simp] theorem order_filledQuantity : (symmetry.order data).filledQuantity = data.filledQuantity := rfl

@[simp] theorem order_entryNanos : (symmetry.order data).entryNanos = symmetry.time data.entryNanos := rfl

theorem order_side (valid : data.price ≠ kInvalidPrice) :
    (symmetry.order data).side = symmetry.side data.side := if_neg valid

theorem order_wing (valid : data.price ≠ kInvalidPrice) :
    (symmetry.order data).side.wing = symmetry.wing data.side.wing := by
  rw [symmetry.order_side data valid, symmetry.side_wing]
  unfold wing
  rfl

theorem order_price (valid : data.price ≠ kInvalidPrice) :
    (symmetry.order data).price = symmetry.tick data.price := if_neg valid

/-- The report of a trade is the image of the report of the trade. -/
theorem core_report (core : BookCore) (resting aggressor : OrderData) (qty : Quantity)
    (valid : resting.price ≠ kInvalidPrice) : symmetry.core (core.report resting aggressor qty) =
      (symmetry.core core).report (symmetry.order resting) (symmetry.order aggressor) qty := by
  have side : (symmetry.order resting).side = Side.buy ↔
      (if symmetry.mirrors then resting.side ≠ Side.buy else resting.side = Side.buy) := by
    rw [← Side.wing_eq_bid, symmetry.order_wing resting valid]
    unfold wing
    split
    · rw [ne_eq, ← Side.wing_eq_bid]
      cases resting.side.wing <;> decide
    · exact Side.wing_eq_bid
  have now : (symmetry.core core).rdtsc = symmetry.time core.rdtsc := rfl
  have same : symmetry.report (core.tradeReport resting aggressor qty) =
      (symmetry.core core).tradeReport (symmetry.order resting) (symmetry.order aggressor) qty := by
    unfold BookCore.tradeReport report
    rw [symmetry.order_price resting valid, now]
    simp only [side, symmetry.time_latency]
    cases symmetry.mirrors <;> by_cases buy : resting.side = Side.buy <;> simp [buy]
  have spelled (core : BookCore) (resting aggressor : OrderData) : core.report resting aggressor qty =
      if core.tradeCb then { core.tick with
        reports := core.reports ++ [core.tradeReport resting aggressor qty] } else core := rfl
  have installed : (symmetry.core core).tradeCb = core.tradeCb := rfl
  have reports : (symmetry.core core).reports = core.reports.map symmetry.report := rfl
  have grown : (core.reports ++ [core.tradeReport resting aggressor qty]).map symmetry.report =
      core.reports.map symmetry.report ++ [symmetry.report (core.tradeReport resting aggressor qty)] := by simp
  rw [spelled, spelled, installed, reports, ← same, ← core_tick, ← grown]
  split
  · unfold Symmetry.core wing
    cases symmetry.mirrors <;> rfl
  · rfl

end Orders

end Symmetry

end OrderEngine
