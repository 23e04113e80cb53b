import AegisFeed.Book.OrderBook.Invariant
import AegisFeed.Library.Fallible

namespace AegisFeed

open Std
open FiniteMap (Visit)

-- The documented invariants of an active price level and of an active order. Sums and
-- numbers of orders are unbounded here.
structure PriceLevel.Valid (orders : ActiveOrders) (side : Side) (price : Price4)
    (level : PriceLevel) : Prop where
  order_count : 0 < level.order_count.toNat
  aggregate_shares : 0 < level.aggregate_shares.toNat
  shares_eq : level.aggregate_shares.toNat = restingShares orders side price
  count_eq : level.order_count.toNat = restingCount orders side price

structure OrderRecord.Valid (book : OrderBook) (id : OrderId) (order : OrderRecord) : Prop where
  id_eq : order.id = id
  remaining : 0 < order.remaining.toNat
  locate_eq : order.stock_locate = book.stock_locate
  level : order.side = Side.Buy ∧ order.price ∈ book.bids ∨
    order.side = Side.Sell ∧ order.price ∈ book.asks

structure OrderBook.PriceLevelInvariants (book : OrderBook) : Prop where
  bids : ∀ (price : Price4) (level : PriceLevel),
    book.bids[price]? = some level → level.Valid book.active_orders Side.Buy price
  asks : ∀ (price : Price4) (level : PriceLevel),
    book.asks[price]? = some level → level.Valid book.active_orders Side.Sell price
  orders : ∀ (id : OrderId) (order : OrderRecord),
    book.active_orders[id]? = some order → order.Valid book id

section Recompute

variable (side : Side) (price : Price4)

-- The guards of a step let through exactly the sums that fit in 64 bits.
theorem recompute_order_ok_iff (recomputed next : UInt64 × UInt64) (order : OrderRecord) :
    recompute_order side price recomputed order = .ok next ↔
      next.1.toNat = recomputed.1.toNat + order.sharesAt side price ∧
        next.2.toNat = recomputed.2.toNat + order.countAt side price := by
  unfold recompute_order invariant_failure
  by_cases hat : order.side = side ∧ order.price = price
  · obtain ⟨rfl, rfl⟩ := hat
    rw [if_neg (by simp), order.sharesAt_self, order.countAt_self, Fallible.guard_ok_iff,
      Fallible.guard_ok_iff, OrderBook.overflow_guard_iff, UInt32.toNat_toUInt64,
      ← UInt64.toNat_inj, Except.ok.injEq, Prod.ext_iff, ← UInt64.toNat_inj,
      ← UInt64.toNat_inj]
    have hmax : uint64_max.toNat = 2 ^ 64 - 1 := rfl
    have hshares := next.1.toNat_lt
    have hcount := next.2.toNat_lt
    have hlast := recomputed.2.toNat_lt
    constructor
    · rintro ⟨hroom, hfull, hs, hc⟩
      rw [Words.toNat_add_widen (by omega)] at hs
      rw [Words.toNat_add64 (by rw [UInt64.toNat_one]; omega), UInt64.toNat_one] at hc
      exact ⟨hs.symm, hc.symm⟩
    · rintro ⟨hs, hc⟩
      refine ⟨by omega, by omega, ?_, ?_⟩
      · rw [Words.toNat_add_widen (by omega), hs]
      · rw [Words.toNat_add64 (by rw [UInt64.toNat_one]; omega), UInt64.toNat_one, hc]
  · rw [if_pos (not_and_or.mp hat), OrderRecord.sharesAt_of_ne hat,
      OrderRecord.countAt_of_ne hat, Except.ok.injEq, Prod.ext_iff, ← UInt64.toNat_inj,
      ← UInt64.toNat_inj, Nat.add_zero, Nat.add_zero]
    exact and_congr eq_comm eq_comm

-- The loop succeeds exactly when the whole sums fit: no sum on the way is larger.
theorem recompute_from_ok_iff (visit : List (OrderId × OrderRecord))
    (start total : UInt64 × UInt64) :
    visit.foldlM (fun recomputed entry => recompute_order side price recomputed entry.2)
        start = .ok total ↔
      total.1.toNat =
        start.1.toNat + (visit.map fun entry => entry.2.sharesAt side price).sum ∧
      total.2.toNat =
        start.2.toNat + (visit.map fun entry => entry.2.countAt side price).sum := by
  induction visit generalizing start with
  | nil =>
    simp only [List.map_nil, List.sum_nil, Nat.add_zero, UInt64.toNat_inj, ← Prod.ext_iff]
    exact ⟨fun h => (Except.ok.inj h).symm, fun h => congrArg Except.ok h.symm⟩
  | cons entry rest ih =>
    rw [List.foldlM_cons, Fallible.bind_eq_ok, List.map_cons, List.sum_cons, List.map_cons,
      List.sum_cons]
    simp only [ih, recompute_order_ok_iff]
    constructor
    · rintro ⟨next, ⟨hs, hc⟩, hts, htc⟩
      omega
    · rintro ⟨hts, htc⟩
      have hshares := total.1.toNat_lt
      have hcount := total.2.toNat_lt
      refine ⟨(UInt64.ofNat (start.1.toNat + entry.2.sharesAt side price),
        UInt64.ofNat (start.2.toNat + entry.2.countAt side price)), ?_⟩
      rw [UInt64.toNat_ofNat_of_lt' (by rw [UInt64.size]; omega),
        UInt64.toNat_ofNat_of_lt' (by rw [UInt64.size]; omega)]
      omega

variable {orders : ActiveOrders} (visit : Visit orders)

theorem recompute_level_ok_iff (total : UInt64 × UInt64) :
    recompute_level visit.val side price = .ok total ↔
      total.1.toNat = restingShares orders side price ∧
        total.2.toNat = restingCount orders side price := by
  unfold recompute_level restingShares restingCount
  rw [recompute_from_ok_iff, FiniteMap.total_visit (OrderRecord.sharesAt side price) visit,
    FiniteMap.total_visit (OrderRecord.countAt side price) visit]
  simp only [UInt64.toNat_zero, Nat.zero_add]

theorem validate_level_ok_iff (level : PriceLevel) :
    validate_level visit.val side price level = .ok () ↔ level.Valid orders side price := by
  have hmatches : validate_level visit.val side price level = .ok () ↔
      level.order_count ≠ 0 ∧ level.aggregate_shares ≠ 0 ∧
        recompute_level visit.val side price =
          .ok (level.aggregate_shares, level.order_count.toUInt64) := by
    unfold validate_level invariant_failure
    rw [Fallible.guard_ok_iff, Fallible.guard_ok_iff]
    cases recompute_level visit.val side price with
    | error error => simp
    | ok total => simp only [Fallible.guard_ok_iff, not_not, Except.ok.injEq, Prod.ext_iff,
        and_true]
  rw [hmatches, recompute_level_ok_iff, UInt32.toNat_toUInt64, ne_eq, ne_eq,
    Words.eq_zero32_iff, Words.eq_zero64_iff]
  constructor
  · rintro ⟨hcount, hshares, hs, hc⟩
    exact ⟨Nat.pos_of_ne_zero hcount, Nat.pos_of_ne_zero hshares, hs, hc⟩
  · rintro ⟨hcount, hshares, hs, hc⟩
    exact ⟨hcount.ne', hshares.ne', hs, hc⟩

theorem validate_levels_ok_iff {order : Price4 → Price4 → Ordering} [TransCmp order]
    [LawfulEqCmp order] (levels : LevelMap order) :
    validate_levels levels visit.val side = .ok () ↔
      ∀ (price : Price4) (level : PriceLevel), levels[price]? = some level →
        level.Valid orders side price := by
  unfold validate_levels
  rw [Fallible.forM_ok_iff]
  simp only [validate_level_ok_iff, Prod.forall, ExtTreeMap.mem_toList_iff_getElem?_eq_some]

end Recompute

theorem LevelsMatch.valid {order : Price4 → Price4 → Ordering} [TransCmp order]
    {levels : LevelMap order} {orders : ActiveOrders} {side : Side}
    (h : LevelsMatch levels orders side) (hpositive : AllPositive orders) {price : Price4}
    {level : PriceLevel} (hlevel : levels[price]? = some level) :
    level.Valid orders side price := by
  obtain ⟨hoccupied, hshares, hcount⟩ := h.represents hlevel
  have hle := restingCount_le_restingShares side price hpositive
  exact ⟨by omega, by omega, hshares, hcount⟩

namespace OrderBook

theorem validate_order_ok_iff (book : OrderBook) (id : OrderId) (order : OrderRecord) :
    book.validate_order id order = .ok () ↔ order.Valid book id := by
  have hchecks : book.validate_order id order = .ok () ↔
      order.id = id ∧ order.remaining ≠ 0 ∧ order.stock_locate = book.stock_locate ∧
        (order.side = Side.Buy ∧ order.price ∈ book.bids ∨
          order.side = Side.Sell ∧ order.price ∈ book.asks) := by
    unfold validate_order invariant_failure
    rw [Fallible.guard_ok_iff, Fallible.guard_ok_iff, Fallible.guard_ok_iff, not_not, not_not]
    by_cases hbuy : order.side = Side.Buy
    · have hsell : Side.Buy ≠ Side.Sell := by decide
      simp [hbuy, hsell]
    · by_cases hsell : order.side = Side.Sell
      · simp [hsell, Ne.symm (show Side.Buy ≠ Side.Sell by decide)]
      · simp [hbuy, hsell]
  rw [hchecks, ne_eq, Words.eq_zero32_iff]
  constructor
  · rintro ⟨hid, hremaining, hlocate, hlevel⟩
    exact ⟨hid, Nat.pos_of_ne_zero hremaining, hlocate, hlevel⟩
  · rintro ⟨hid, hremaining, hlocate, hlevel⟩
    exact ⟨hid, hremaining.ne', hlocate, hlevel⟩

-- One loop over each collection, in whatever order the hash map is iterated.
theorem validate_loops_ok_iff (book : OrderBook) (visit : Visit book.active_orders) :
    book.validate_invariants visit = .ok () ↔
      (∀ (price : Price4) (level : PriceLevel), book.bids[price]? = some level →
        level.Valid book.active_orders Side.Buy price) ∧
      (∀ (price : Price4) (level : PriceLevel), book.asks[price]? = some level →
        level.Valid book.active_orders Side.Sell price) ∧
      ∀ (id : OrderId) (order : OrderRecord), book.active_orders[id]? = some order →
        order.Valid book id := by
  unfold validate_invariants
  rw [Fallible.seq_ok_iff, Fallible.seq_ok_iff, validate_levels_ok_iff, validate_levels_ok_iff,
    Fallible.forM_ok_iff]
  simp only [validate_order_ok_iff, Prod.forall, FiniteMap.mem_visit]

-- Every operation leaves a book that the checker accepts.
theorem Invariant.priceLevelInvariants {book : OrderBook} (h : book.Invariant) :
    book.PriceLevelInvariants := by
  refine ⟨fun _ _ => h.bids.valid h.allPositive, fun _ _ => h.asks.valid h.allPositive, ?_⟩
  intro id order hfound
  obtain ⟨hid, hlocate, hside, hremaining, _, _⟩ := h.orders id order hfound
  have hcount : 0 < restingCount book.active_orders order.side order.price :=
    (restingCount_pos_iff _ _ _).mpr ⟨id, order, hfound, rfl, rfl⟩
  refine ⟨hid, hremaining, hlocate, hside.imp ?_ ?_⟩
  · intro hbuy
    rw [hbuy, ← h.bids.contains_iff, ← FiniteMap.mem_iff_getElem?] at hcount
    exact ⟨hbuy, hcount⟩
  · intro hsell
    rw [hsell, ← h.asks.contains_iff, ← FiniteMap.mem_iff_getElem?] at hcount
    exact ⟨hsell, hcount⟩

theorem Invariant.validate_ok {book : OrderBook} (h : book.Invariant)
    (visit : Visit book.active_orders) : book.validate_invariants visit = .ok () :=
  (validate_loops_ok_iff book visit).mpr
    ⟨h.priceLevelInvariants.bids, h.priceLevelInvariants.asks, h.priceLevelInvariants.orders⟩

-- The checker is exact on every book, reachable or not: no sum of its own leaves the
-- 64 bits unnoticed, and none of a valid book leaves them at all.
theorem validate_invariants_ok_iff (book : OrderBook) (visit : Visit book.active_orders) :
    book.validate_invariants visit = .ok () ↔ book.PriceLevelInvariants := by
  rw [validate_loops_ok_iff]
  constructor
  · rintro ⟨hbids, hasks, horders⟩
    exact ⟨hbids, hasks, horders⟩
  · rintro ⟨hbids, hasks, horders⟩
    exact ⟨hbids, hasks, horders⟩

end OrderBook

end AegisFeed
