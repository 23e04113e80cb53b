import AegisFeed.Book.OrderBook.Checked
import AegisFeed.Book.OrderBook.Refinement
import Mathlib.Order.Bounds.Defs

namespace AegisFeed

open Std

-- The prices at which an order of the side rests.
def restingPrices (orders : ActiveOrders) (side : Side) : Set Price4 :=
  {price | ∃ (id : OrderId) (order : OrderRecord),
    orders[id]? = some order ∧ order.side = side ∧ order.price = price}

-- The levels are exact: one for every price with an order, with the sum of the
-- shares and the number of the orders, and none that is empty.
structure ExactLevels {order : Price4 → Price4 → Ordering} [TransCmp order]
    (levels : LevelMap order) (orders : ActiveOrders) (side : Side) : Prop where
  contains : ∀ price, levels.contains price ↔ price ∈ restingPrices orders side
  shares : ∀ (price : Price4) (level : PriceLevel), levels[price]? = some level →
    level.aggregate_shares.toNat = restingShares orders side price
  count : ∀ (price : Price4) (level : PriceLevel), levels[price]? = some level →
    level.order_count.toNat = restingCount orders side price
  positive : ∀ (price : Price4) (level : PriceLevel), levels[price]? = some level →
    0 < level.order_count.toNat ∧ 0 < level.aggregate_shares.toNat

section

variable {order : Price4 → Price4 → Ordering} [TransCmp order] {levels : LevelMap order}
  {orders : ActiveOrders} {side : Side}

theorem LevelsMatch.mem_iff (h : LevelsMatch levels orders side) (price : Price4) :
    price ∈ levels ↔ price ∈ restingPrices orders side := by
  rw [FiniteMap.mem_iff_getElem?, h.contains_iff]
  exact restingCount_pos_iff orders side price

theorem LevelsMatch.exact (h : LevelsMatch levels orders side) (hpositive : AllPositive orders) :
    ExactLevels levels orders side := by
  refine ⟨?_, fun _ _ hlevel => (h.represents hlevel).2.1,
    fun _ _ hlevel => (h.represents hlevel).2.2, ?_⟩
  · intro price
    rw [ExtTreeMap.contains_iff_mem]
    exact h.mem_iff price
  · intro price level hlevel
    obtain ⟨hpos, hshares, hcount⟩ := h.represents hlevel
    have hle := restingCount_le_restingShares side price hpositive
    omega

theorem LevelsMatch.first_eq_none_iff (h : LevelsMatch levels orders side) :
    levels.toList.head?.map Prod.fst = none ↔ restingPrices orders side = ∅ := by
  rw [FiniteMap.head?_toList, ExtTreeMap.minKey?_eq_none_iff, Set.eq_empty_iff_forall_notMem,
    ExtTreeMap.eq_empty_iff_forall_not_mem]
  exact forall_congr' fun price => not_congr (h.mem_iff price)

theorem LevelsMatch.first_eq_some_iff [LawfulEqCmp order] (h : LevelsMatch levels orders side)
    (price : Price4) :
    levels.toList.head?.map Prod.fst = some price ↔
      price ∈ restingPrices orders side ∧
      ∀ other ∈ restingPrices orders side, (order price other).isLE := by
  rw [FiniteMap.head?_toList, ExtTreeMap.minKey?_eq_some_iff_mem_and_forall, h.mem_iff]
  simp only [h.mem_iff]

end

namespace OrderBook

theorem Invariant.best_bid_eq_some_iff {book : OrderBook} (h : book.Invariant) (price : Price4) :
    book.best_bid = some price ↔
      IsGreatest (restingPrices book.active_orders Side.Buy) price := by
  rw [best_bid, h.bids.first_eq_some_iff]
  simp only [descending, Std.isLE_compare]
  rfl

theorem Invariant.best_ask_eq_some_iff {book : OrderBook} (h : book.Invariant) (price : Price4) :
    book.best_ask = some price ↔
      IsLeast (restingPrices book.active_orders Side.Sell) price := by
  rw [best_ask, h.asks.first_eq_some_iff]
  simp only [Std.isLE_compare]
  rfl

-- The representation invariant of every book that events leave.
theorem run_representation (locate : StockLocate) (capacity : UInt64)
    (events : List OrderEvent) :
    let book := run locate capacity events
    book.stock_locate = locate ∧
    (∀ (id : OrderId) (order : OrderRecord), book.active_orders[id]? = some order →
      order.id = id ∧ order.stock_locate = locate ∧
      (order.side = Side.Buy ∨ order.side = Side.Sell) ∧ 0 < order.remaining ∧
      order.price ≤ kMaxPrice4 ∧
      (order.has_attribution = false → order.attribution = Attribution.zero)) ∧
    ExactLevels book.bids book.active_orders Side.Buy ∧
    ExactLevels book.asks book.active_orders Side.Sell ∧
    (book.best_bid = none ↔ restingPrices book.active_orders Side.Buy = ∅) ∧
    (∀ price, book.best_bid = some price ↔
      IsGreatest (restingPrices book.active_orders Side.Buy) price) ∧
    (book.best_ask = none ↔ restingPrices book.active_orders Side.Sell = ∅) ∧
    (∀ price, book.best_ask = some price ↔
      IsLeast (restingPrices book.active_orders Side.Sell) price) := by
  intro book
  obtain ⟨h, hlocate⟩ := run_spec locate capacity events
  refine ⟨hlocate, ?_, h.bids.exact h.allPositive, h.asks.exact h.allPositive,
    h.bids.first_eq_none_iff, h.best_bid_eq_some_iff, h.asks.first_eq_none_iff,
    h.best_ask_eq_some_iff⟩
  intro id order hfound
  obtain ⟨hid, hlocated, hside, hremaining, hprice, hattribution⟩ := h.orders id order hfound
  exact ⟨hid, hlocated.trans hlocate, hside, UInt32.lt_iff_toNat_lt.mpr hremaining, hprice,
    hattribution⟩

-- The book refines its ledger of orders: an operation succeeds exactly when the
-- ledger accepts it, has its effect there, and touches no other level. The
-- execution price has no part in it.
theorem run_refines (locate : StockLocate) (capacity : UInt64) (events : List OrderEvent)
    (event : OrderEvent) :
    let book := run locate capacity events
    ((book.apply event).1 = .ok () ↔ OrderLedger.Accepts locate book.view event) ∧
    (OrderLedger.Accepts locate book.view event →
      (book.apply event).2.view = OrderLedger.effect book.view event) ∧
    (¬OrderLedger.Accepts locate book.view event → (book.apply event).2 = book) ∧
    (∀ side price, (side = Side.Buy ∨ side = Side.Sell) →
      (side, price) ∉ OrderLedger.touched book.view event →
      (book.apply event).2.level side price = book.level side price) ∧
    ∀ (message : OrderExecutedWithPrice) (execution_price_1e4 : Price4),
      book.execute_with_price { message with execution_price_1e4 } =
        book.execute_with_price message := by
  intro book
  obtain ⟨h, hlocate⟩ := run_spec locate capacity events
  change book.stock_locate = locate at hlocate
  rw [← hlocate]
  refine ⟨apply_ok_iff h event, fun haccept => (apply_accepted h event haccept).view,
    fun hreject => (apply_rejected h event hreject).unchanged, ?_, fun _ _ => rfl⟩
  intro side price hside huntouched
  exact apply_level h event hside price huntouched

section Bounds

variable {book : OrderBook} (h : book.Invariant) {side : Side}
  (hside : side = Side.Buy ∨ side = Side.Sell) {price : Price4} {level : PriceLevel}
  (hlevel : book.level side price = some level)

include h hside hlevel

theorem Invariant.level_bounds :
    level.order_count.toNat ≤ level.aggregate_shares.toNat ∧
    level.aggregate_shares.toNat ≤ level.order_count.toNat * (2 ^ 32 - 1) := by
  have hp := h.level_represents hside price
  rw [hlevel] at hp
  obtain ⟨_, hshares, hcount⟩ := hp
  rw [hshares, hcount]
  exact ⟨restingCount_le_restingShares side price h.allPositive,
    restingShares_le_mul_restingCount book.active_orders side price⟩

theorem Invariant.level_guard (shares : Shares) :
    ¬shares.toUInt64 > uint64_max - level.aggregate_shares := by
  unfold OrderBook.level at hlevel
  rcases hside with rfl | rfl
  · rw [if_pos rfl] at hlevel
    exact add_guard_passes h.bids hlevel shares
  · rw [if_neg (by decide)] at hlevel
    exact add_guard_passes h.asks hlevel shares

-- The guard of a replacement at the price of its original.
theorem Invariant.replace_guard {removed : UInt64}
    (hremoved : removed.toNat ≤ level.aggregate_shares.toNat) (shares : Shares) :
    ¬shares.toUInt64 > uint64_max - (level.aggregate_shares - removed) := by
  have hguard := h.level_guard hside hlevel shares
  rw [overflow_guard_iff] at hguard ⊢
  rw [Words.toNat_sub64 hremoved]
  omega

end Bounds

theorem Invariant.remaining_le {book : OrderBook} (h : book.Invariant) {id : OrderId}
    {order : OrderRecord} (hfound : book.active_orders[id]? = some order) {level : PriceLevel}
    (hlevel : book.level order.side order.price = some level) :
    order.remaining.toNat ≤ level.aggregate_shares.toNat := by
  have hp := h.level_represents (h.orders id order hfound).side order.price
  rw [hlevel] at hp
  have hle := FiniteMap.le_total (OrderRecord.sharesAt order.side order.price) _ id order hfound
  rw [order.sharesAt_self] at hle
  exact hle.trans_eq hp.2.1.symm

-- No operation reports a broken invariant, no aggregate can overflow, an overflow is
-- reported only by a level with 2^32 - 1 orders, and checked arithmetic never stops.
theorem run_safe (locate : StockLocate) (capacity : UInt64) (events : List OrderEvent) :
    let book := run locate capacity events
    (∀ side price level, (side = Side.Buy ∨ side = Side.Sell) →
      book.level side price = some level →
      level.order_count.toNat ≤ level.aggregate_shares.toNat ∧
      level.aggregate_shares.toNat ≤ level.order_count.toNat * (2 ^ 32 - 1) ∧
      ∀ shares : Shares, ¬shares.toUInt64 > uint64_max - level.aggregate_shares) ∧
    (∀ (id : OrderId) (order : OrderRecord) (level : PriceLevel) (shares : Shares),
      book.active_orders[id]? = some order →
      book.level order.side order.price = some level →
      ¬shares.toUInt64 >
        uint64_max - (level.aggregate_shares - order.remaining.toUInt64)) ∧
    ∀ event,
      (∀ error, (book.apply event).1 = .error error →
        error.code ≠ .BookInvariantViolation ∧
        (error.code = .BookArithmeticOverflow → book.Saturated event)) ∧
      book.apply_checked event = some (book.apply event) := by
  intro book
  obtain ⟨h, _⟩ := run_spec locate capacity events
  refine ⟨?_, ?_, ?_⟩
  · intro side price level hside hlevel
    obtain ⟨hlow, hhigh⟩ := h.level_bounds hside hlevel
    exact ⟨hlow, hhigh, h.level_guard hside hlevel⟩
  · intro id order level shares hfound hlevel
    apply h.replace_guard (h.orders id order hfound).side hlevel
    rw [UInt32.toNat_toUInt64]
    exact h.remaining_le hfound hlevel
  · intro event
    refine ⟨?_, apply_checked_eq _ event⟩
    intro error herror
    have hreject : ¬OrderLedger.Accepts book.stock_locate book.view event := by
      rw [← apply_ok_iff h, herror]
      nofun
    obtain ⟨error', herror', hviolation, hoverflow⟩ := (apply_rejected h event hreject).error
    cases herror.symm.trans herror'
    exact ⟨hviolation, hoverflow⟩

end OrderBook

end AegisFeed
