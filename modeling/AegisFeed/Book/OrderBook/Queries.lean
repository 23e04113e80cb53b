import AegisFeed.Book.OrderBook.Responses
import AegisFeed.Book.OrderBook.Theorems
import AegisFeed.Book.BookStore.Snapshot
import AegisFeed.Library.FiniteMap.Counting

namespace AegisFeed

open Std
open FiniteMap (Visit)

namespace OrderLedger

-- What the queries of a book are for, in terms of its ledger.
def prices (ledger : OrderLedger) (side : Side) : Set Price4 :=
  {price | 0 < Ledger.countAt ledger (side, price)}

def levelAt (ledger : OrderLedger) (side : Side) (price : Price4) : Option PriceLevel :=
  if Ledger.countAt ledger (side, price) = 0 then none
  else some
    { aggregate_shares := .ofNat (Ledger.quantityAt ledger (side, price)),
      order_count := .ofNat (Ledger.countAt ledger (side, price)) }

def record (locate : StockLocate) (id : OrderId) (entry : RestingOrder) : OrderRecord :=
  { id, stock_locate := locate, side := entry.place.1, price := entry.place.2,
    remaining := .ofNat entry.quantity, attribution := entry.tag.getD Attribution.zero,
    has_attribution := entry.tag.isSome }

-- The levels of a side as a snapshot lists them.
structure Lists (ledger : OrderLedger) (side : Side) (better : Price4 → Price4 → Prop)
    (levels : List CanonicalPriceLevel) : Prop where
  sorted : levels.Pairwise fun a b => better a.price b.price
  mem_iff : ∀ level, level ∈ levels ↔ ledger.levelAt side level.price =
    some { aggregate_shares := level.aggregate_shares, order_count := level.order_count }

end OrderLedger

-- A snapshot shows a ledger: the levels from the best price on and the orders by id.
structure CanonicalOrderBook.Shows (snapshot : CanonicalOrderBook) (locate : StockLocate)
    (ledger : OrderLedger) : Prop where
  stock_locate : snapshot.stock_locate = locate
  bids : ledger.Lists Side.Buy (· > ·) snapshot.bids
  asks : ledger.Lists Side.Sell (· < ·) snapshot.asks
  orders : snapshot.orders = ledger.toList.map fun entry =>
    OrderBook.canonicalOrder (OrderLedger.record locate entry.1 entry.2)

-- Every query of a book answers from its ledger.
structure OrderBook.Answers (book : OrderBook) (locate : StockLocate) (ledger : OrderLedger) :
    Prop where
  stock_locate : book.stock_locate = locate
  active_order_count : book.active_order_count = ledger.size
  order : ∀ id, book.order id = ledger[id]?.map (OrderLedger.record locate id)
  bid_level : ∀ price, book.bid_level price = ledger.levelAt Side.Buy price
  ask_level : ∀ price, book.ask_level price = ledger.levelAt Side.Sell price
  bid_level_count : book.bid_level_count = (ledger.prices Side.Buy).ncard
  ask_level_count : book.ask_level_count = (ledger.prices Side.Sell).ncard
  best_bid : ∀ price, book.best_bid = some price ↔ IsGreatest (ledger.prices Side.Buy) price
  best_ask : ∀ price, book.best_ask = some price ↔ IsLeast (ledger.prices Side.Sell) price
  no_bid : book.best_bid = none ↔ ledger.prices Side.Buy = ∅
  no_ask : book.best_ask = none ↔ ledger.prices Side.Sell = ∅
  canonical_snapshot : ∀ visit, (book.canonical_snapshot visit).Shows locate ledger

theorem OrderRecord.WellFormed.record_resting {locate : StockLocate} {id : OrderId}
    {order : OrderRecord} (h : order.WellFormed locate id) :
    OrderLedger.record locate id order.resting = order := by
  rcases order with ⟨key, located, side, price, remaining, attribution, attributed⟩
  have hid : key = id := h.id_eq
  have hlocate : located = locate := h.locate_eq
  subst hid hlocate
  unfold OrderLedger.record resting
  cases attributed with
  | false =>
    have hzero : attribution = Attribution.zero := h.attribution rfl
    simp [hzero]
  | true => simp

theorem Represents.eq_some {entry : Option PriceLevel} {shares count : Nat}
    (h : Represents entry shares count) :
    entry = if count = 0 then none
      else some { aggregate_shares := .ofNat shares, order_count := .ofNat count } := by
  cases entry with
  | none =>
    have hzero : count = 0 := h
    rw [if_pos hzero]
  | some level =>
    obtain ⟨hpositive, hshares, hcount⟩ := h
    rw [if_neg hpositive.ne', ← hshares, ← hcount, UInt64.ofNat_toNat, UInt32.ofNat_toNat]

section Levels

variable {order : Price4 → Price4 → Ordering} [TransCmp order] [LawfulEqCmp order]
  {levels : LevelMap order} {book : OrderBook} {side : Side}
  (h : LevelsMatch levels book.active_orders side)

include h

omit [LawfulEqCmp order] in
theorem LevelsMatch.getElem?_eq (price : Price4) :
    levels[price]? = book.view.levelAt side price := by
  rw [OrderLedger.levelAt, OrderBook.countAt_view, OrderBook.quantityAt_view]
  exact (h price).eq_some

theorem LevelsMatch.size_eq : levels.size = (book.view.prices side).ncard := by
  refine FiniteMap.size_eq_ncard levels fun price => ?_
  rw [FiniteMap.mem_iff_getElem?, h.contains_iff, OrderLedger.prices, Set.mem_ofPred_eq,
    OrderBook.countAt_view]

theorem LevelsMatch.lists (better : Price4 → Price4 → Prop)
    (hbetter : ∀ a b, order a b = .lt → better a b) :
    book.view.Lists side better (OrderBook.canonicalLevels levels) := by
  constructor
  · apply List.pairwise_map.mpr
    exact levels.ordered_keys_toList.imp fun hlt => hbetter _ _ hlt
  · intro level
    rw [← h.getElem?_eq, OrderBook.canonicalLevels, List.mem_map,
      ← ExtTreeMap.mem_toList_iff_getElem?_eq_some]
    constructor
    · rintro ⟨entry, hentry, rfl⟩
      exact hentry
    · intro hentry
      exact ⟨_, hentry, rfl⟩

end Levels

namespace OrderBook

theorem restingPrices_eq (book : OrderBook) (side : Side) :
    restingPrices book.active_orders side = book.view.prices side := by
  ext price
  rw [OrderLedger.prices, Set.mem_ofPred_eq, countAt_view, restingCount_pos_iff]
  rfl

variable {book : OrderBook} (h : book.Invariant)

include h

theorem Invariant.order_eq (id : OrderId) :
    book.order id = book.view[id]?.map (OrderLedger.record book.stock_locate id) := by
  rw [order, view_getElem?]
  cases hfound : book.active_orders[id]? with
  | none => rfl
  | some active => exact congrArg some (h.orders id active hfound).record_resting.symm

-- The snapshot lists the orders as the ledger does.
theorem Invariant.snapshot_orders (visit : Visit book.active_orders) :
    (book.canonical_snapshot visit).orders = book.view.toList.map fun entry =>
      canonicalOrder (OrderLedger.record book.stock_locate entry.1 entry.2) := by
  have hrecords : (book.view.toList.map fun entry =>
        canonicalOrder (OrderLedger.record book.stock_locate entry.1 entry.2)) =
      book.active_orders.toList.map fun entry => canonicalOrder entry.2 := by
    rw [view, ExtTreeMap.toList_map, List.map_map]
    apply List.map_congr_left
    rintro ⟨id, active⟩ hentry
    have hactive := h.orders id active (ExtTreeMap.mem_toList_iff_getElem?_eq_some.mp hentry)
    exact congrArg canonicalOrder hactive.record_resting
  have hkeys : (book.active_orders.toList.map fun entry => canonicalOrder entry.2).Pairwise
      fun a b => compare a.id b.id = .lt := by
    have hids := h.canonical_ids (Visit.ascending book.active_orders)
    have hsorted : (book.active_orders.toList.map Prod.fst).Pairwise
        fun a b => compare a b = .lt :=
      List.pairwise_map.mpr book.active_orders.ordered_keys_toList
    rw [Visit.ascending] at hids
    rw [← hids] at hsorted
    exact List.pairwise_map.mp hsorted
  rw [hrecords]
  refine Sorting.eq_of_strict compare CanonicalOrder.id
    (Sorting.sortBy_strict compare CanonicalOrder.id (h.canonical_ids_nodup visit)) hkeys ?_
  intro active
  exact (Sorting.sortBy_perm compare CanonicalOrder.id _).mem_iff.trans
    (visit.property.map fun entry => canonicalOrder entry.2).mem_iff

theorem Invariant.shows (visit : Visit book.active_orders) :
    (book.canonical_snapshot visit).Shows book.stock_locate book.view :=
  { stock_locate := rfl,
    bids := h.bids.lists _ fun _ _ hlt => Std.compare_eq_lt.mp hlt,
    asks := h.asks.lists _ fun _ _ hlt => Std.compare_eq_lt.mp hlt,
    orders := h.snapshot_orders visit }

theorem Invariant.answers : book.Answers book.stock_locate book.view where
  stock_locate := rfl
  active_order_count := ExtTreeMap.size_map.symm
  order := h.order_eq
  bid_level := h.bids.getElem?_eq
  ask_level := h.asks.getElem?_eq
  bid_level_count := h.bids.size_eq
  ask_level_count := h.asks.size_eq
  best_bid price := by
    rw [← restingPrices_eq]
    exact h.best_bid_eq_some_iff price
  best_ask price := by
    rw [← restingPrices_eq]
    exact h.best_ask_eq_some_iff price
  no_bid := by
    rw [← restingPrices_eq]
    exact h.bids.first_eq_none_iff
  no_ask := by
    rw [← restingPrices_eq]
    exact h.asks.first_eq_none_iff
  canonical_snapshot := h.shows

omit h in
-- What a book answers after any events is what the ledger of those events says.
theorem run_queries (locate : StockLocate) (capacity : UInt64) (events : List OrderEvent) :
    (run locate capacity events).Answers locate
      (Machine.run (OrderLedger.step locate) ∅ events) := by
  obtain ⟨h, hlocate⟩ := run_spec locate capacity events
  have hanswers := h.answers
  rwa [hlocate, run_view] at hanswers

end OrderBook

end AegisFeed
