import OrderEngine.Ledger.Settled

namespace OrderEngine

open Library

namespace Wing

/-- The best tick that a wing can have. -/
def front : Wing → Int
  | .bid => kMaxPriceTicks - 1
  | .ask => 0

/-- These ticks lie at or before a price, the best one first. -/
def ticks (wing : Wing) (limit : Int) : List Int :=
  (List.range (wing.rank limit - wing.rank wing.front + 1).toNat).map
    fun index : Nat => wing.front + index * wing.stride

variable {wing : Wing} {price limit : Int}

theorem front_rank_le (inside : InTicks price) : wing.rank wing.front ≤ wing.rank price := by
  obtain ⟨low, high⟩ := inside
  cases wing <;> simp only [rank, front] <;> omega

theorem mem_ticks : price ∈ wing.ticks limit ↔
    wing.rank wing.front ≤ wing.rank price ∧ wing.rank price ≤ wing.rank limit := by
  unfold ticks
  rw [List.mem_map]
  constructor
  · rintro ⟨index, member, rfl⟩
    have inside := List.mem_range.mp member
    rw [rank_stride]
    omega
  · rintro ⟨low, high⟩
    refine ⟨(wing.rank price - wing.rank wing.front).toNat, List.mem_range.mpr (by omega), ?_⟩
    apply wing.rank_injective
    rw [rank_stride]
    omega

/-- The ticks stand in the order of their ranks. -/
theorem ticks_sorted (wing : Wing) (limit : Int) :
    (wing.ticks limit).Pairwise fun first second => wing.rank first < wing.rank second := by
  unfold ticks
  rw [List.pairwise_map]
  refine List.pairwise_lt_range.imp fun {first second} less => ?_
  rw [rank_stride, rank_stride]
  omega

end Wing

namespace Ledger

/-- The orders that cross a price, in the order in which the match reaches them. -/
def crossing (ledger : Ledger) (wing : Wing) (limit : Int) : List Ptr :=
  (wing.ticks limit).flatMap (ledger.queue wing)

/-- An incoming order can trade with these orders. -/
def matchable (ledger : Ledger) (incoming : Ptr) : List Ptr :=
  ledger.crossing (ledger.facing incoming) (ledger.price incoming)

/-- The quantity that remains on an order. -/
def left (ledger : Ledger) (slot : Ptr) : Nat := (ledger.data slot).remaining.toNat

def volume (ledger : Ledger) (slots : List Ptr) : Nat := (slots.map ledger.left).sum

variable {ledger : Ledger} {pending : Option Ptr} {wing : Wing} {price limit : Int} {slot : Ptr}

theorem Inv.mem_crossing (inv : ledger.Inv pending) : slot ∈ ledger.crossing wing limit ↔
    ledger.Linked slot ∧ ledger.wing slot = wing ∧ wing.rank (ledger.price slot) ≤ wing.rank limit := by
  unfold crossing
  simp only [List.mem_flatMap, Wing.mem_ticks]
  constructor
  · rintro ⟨price, ⟨-, near⟩, member⟩
    obtain ⟨linked, place, rfl⟩ := inv.mem_iff.mp member
    exact ⟨linked, place, near⟩
  · rintro ⟨linked, rfl, near⟩
    exact ⟨ledger.price slot, ⟨Wing.front_rank_le (inv.inTicks linked), near⟩, linked⟩

theorem Inv.crossing_nodup (inv : ledger.Inv pending) : (ledger.crossing wing limit).Nodup := by
  unfold crossing
  rw [List.nodup_flatMap]
  refine ⟨fun price _ => inv.distinct wing price, (wing.ticks_sorted limit).imp fun {first second} less => ?_⟩
  intro slot here there
  have same := (inv.place_unique here there).2
  rw [same] at less
  exact lt_irrefl _ less

/-- The best price splits the ticks that cross: everything before it is empty. -/
theorem Inv.ticks_split (inv : ledger.Inv pending) (valid : ledger.best wing ≠ kInvalidPrice)
    (near : wing.rank (ledger.best wing) ≤ wing.rank limit) :
    ∃ before after, wing.ticks limit = before ++ ledger.best wing :: after ∧
      (∀ price ∈ before, price ≠ ledger.best wing ∧ ledger.queue wing price = []) ∧
      ∀ price ∈ after, price ≠ ledger.best wing := by
  have member : ledger.best wing ∈ wing.ticks limit :=
    Wing.mem_ticks.mpr ⟨Wing.front_rank_le (inv.bestInTicks valid), near⟩
  obtain ⟨before, after, parts⟩ := List.append_of_mem member
  have sorted := wing.ticks_sorted limit
  rw [parts, List.pairwise_append, List.pairwise_cons] at sorted
  obtain ⟨-, ⟨later, -⟩, apart⟩ := sorted
  refine ⟨before, after, parts, fun price here => ?_, fun price here => ?_⟩
  · have less := apart price here _ List.mem_cons_self
    constructor
    · intro same
      exact lt_irrefl _ (same ▸ less)
    · by_contra occupied
      have bound := (inv.bestBound occupied).2
      omega
  · intro equal
    subst equal
    exact lt_irrefl _ (later _ here)

/-- Only the level at the best price changes the front of what crosses. -/
theorem Inv.crossing_split (inv : ledger.Inv pending) (valid : ledger.best wing ≠ kInvalidPrice)
    (near : wing.rank (ledger.best wing) ≤ wing.rank limit) :
    ∃ others, ledger.crossing wing limit = ledger.queue wing (ledger.best wing) ++ others ∧
      ∀ changed : Ledger,
        (∀ price, price ≠ ledger.best wing → changed.queue wing price = ledger.queue wing price) →
        changed.crossing wing limit = changed.queue wing (ledger.best wing) ++ others := by
  obtain ⟨before, after, parts, nothing, later⟩ := inv.ticks_split valid near
  have whole (changed : Ledger)
      (kept : ∀ price, price ≠ ledger.best wing → changed.queue wing price = ledger.queue wing price) :
      changed.crossing wing limit =
        changed.queue wing (ledger.best wing) ++ after.flatMap (ledger.queue wing) := by
    rw [crossing, parts, List.flatMap_append, List.flatMap_cons]
    have first : before.flatMap (changed.queue wing) = [] := by
      rw [List.flatMap_eq_nil_iff]
      intro price member
      rw [kept price (nothing price member).1, (nothing price member).2]
    have rest : after.flatMap (changed.queue wing) = after.flatMap (ledger.queue wing) := by
      apply List.flatMap_congr
      intro price member
      exact kept price (later price member)
    rw [first, rest, List.nil_append]
  exact ⟨after.flatMap (ledger.queue wing), whole ledger fun _ _ => rfl, whole⟩

end Ledger

end OrderEngine
