import AegisFeed.Common.Error
import AegisFeed.Itch.Types
import AegisFeed.Library.FiniteMap
import AegisFeed.Library.Sorting

namespace AegisFeed

open Std
open FiniteMap (Visit)

abbrev OrderId := UInt64
abbrev Shares := UInt32
abbrev StockLocate := UInt16

def uint64_max : UInt64 := 0xFFFFFFFFFFFFFFFF
def uint32_max : UInt32 := 0xFFFFFFFF

structure OrderRecord where
  id : OrderId
  stock_locate : StockLocate
  side : Side
  price : Price4
  remaining : Shares
  attribution : Attribution
  has_attribution : Bool
deriving DecidableEq, Repr

structure PriceLevel where
  aggregate_shares : UInt64
  order_count : UInt32
deriving DecidableEq, Repr

structure CanonicalPriceLevel where
  price : Price4
  aggregate_shares : UInt64
  order_count : UInt32
deriving DecidableEq, Repr

structure CanonicalOrder where
  id : OrderId
  stock_locate : StockLocate
  side : Side
  price : Price4
  remaining : Shares
  attribution : Attribution
  has_attribution : Bool
deriving DecidableEq, Repr

structure CanonicalOrderBook where
  stock_locate : StockLocate
  bids : List CanonicalPriceLevel
  asks : List CanonicalPriceLevel
  orders : List CanonicalOrder
deriving DecidableEq, Repr

-- The key order of `std::map<Price4, PriceLevel, std::greater<>>`.
def descending (a b : Price4) : Ordering := compare b a

instance : TransCmp descending := inferInstanceAs (TransCmp fun a b : UInt32 => compare b a)

instance : LawfulEqCmp descending :=
  inferInstanceAs (LawfulEqCmp fun a b : UInt32 => compare b a)

abbrev LevelMap (order : Price4 → Price4 → Ordering) := ExtTreeMap Price4 PriceLevel order

abbrev BidLevels := LevelMap descending
abbrev AskLevels := LevelMap compare

-- An unordered map: only its contents matter. Functions that iterate over it take
-- the order of iteration as a `Visit`.
abbrev ActiveOrders := ExtTreeMap OrderId OrderRecord compare

structure OrderBook where
  stock_locate : StockLocate
  active_orders : ActiveOrders
  bids : BidLevels
  asks : AskLevels
deriving DecidableEq

def invariant_failure {α : Type} (reason : String) (observed_value limit_value : UInt64) :
    Result α :=
  .error (Error.book_invariant_violation reason observed_value limit_value)

-- The body of the inner loop of `validate_levels`.
def recompute_order (expected_side : Side) (price : Price4) (recomputed : UInt64 × UInt64)
    (order : OrderRecord) : Result (UInt64 × UInt64) :=
  if order.side ≠ expected_side ∨ order.price ≠ price then
    .ok recomputed
  else if order.remaining.toUInt64 > uint64_max - recomputed.1 then
    invariant_failure "recomputed aggregate shares overflowed" 0 0
  else if recomputed.2 = uint64_max then
    invariant_failure "recomputed price-level order count overflowed" 0 0
  else
    .ok (recomputed.1 + order.remaining.toUInt64, recomputed.2 + 1)

-- The shares and the number of the visited orders at one side and price.
def recompute_level (visit : List (OrderId × OrderRecord)) (expected_side : Side)
    (price : Price4) : Result (UInt64 × UInt64) :=
  visit.foldlM (fun recomputed entry => recompute_order expected_side price recomputed entry.2)
    (0, 0)

-- One iteration of the outer loop of `validate_levels`.
def validate_level (visit : List (OrderId × OrderRecord)) (expected_side : Side)
    (price : Price4) (level : PriceLevel) : Result Unit :=
  if level.order_count = 0 then
    invariant_failure "active price level has zero orders" 0 0
  else if level.aggregate_shares = 0 then
    invariant_failure "active price level has zero aggregate shares" 0 0
  else
    match recompute_level visit expected_side price with
    | .error error => .error error
    | .ok (recomputed_shares, recomputed_order_count) =>
      if recomputed_shares ≠ level.aggregate_shares then
        invariant_failure "price-level aggregate shares do not match active orders"
          level.aggregate_shares recomputed_shares
      else if recomputed_order_count ≠ level.order_count.toUInt64 then
        invariant_failure "price-level order count does not match active orders"
          level.order_count.toUInt64 recomputed_order_count
      else
        .ok ()

def validate_levels {order : Price4 → Price4 → Ordering} [TransCmp order]
    (levels : LevelMap order) (visit : List (OrderId × OrderRecord)) (expected_side : Side) :
    Result Unit :=
  levels.toList.forM fun entry => validate_level visit expected_side entry.1 entry.2

inductive ReductionKind where
  | Execution
  | Cancel
deriving DecidableEq, Repr

namespace OrderBook

-- The capacity only reserves memory for `active_orders`.
def new (stock_locate : StockLocate) (_expected_active_order_capacity : UInt64) : OrderBook :=
  { stock_locate, active_orders := ∅, bids := ∅, asks := ∅ }

def best_bid (book : OrderBook) : Option Price4 :=
  book.bids.toList.head?.map Prod.fst

def best_ask (book : OrderBook) : Option Price4 :=
  book.asks.toList.head?.map Prod.fst

def order (book : OrderBook) (order_id : OrderId) : Option OrderRecord :=
  book.active_orders[order_id]?

def active_order_count (book : OrderBook) : Nat :=
  book.active_orders.size

def bid_level_count (book : OrderBook) : Nat :=
  book.bids.size

def ask_level_count (book : OrderBook) : Nat :=
  book.asks.size

def bid_level (book : OrderBook) (price : Price4) : Option PriceLevel :=
  book.bids[price]?

def ask_level (book : OrderBook) (price : Price4) : Option PriceLevel :=
  book.asks[price]?

section Sides

-- The lambdas `add_to_side`, `reduce_from_side`, `delete_from_side` and
-- `replace_on_side` take `bids_` or `asks_`; they return what they leave in
-- `active_orders_` and in the level map.
variable {order : Price4 → Price4 → Ordering} [TransCmp order]

-- The record `add` stores.
def add_record (message : AddOrder) : OrderRecord :=
  { id := message.order_reference,
    stock_locate := message.header.stock_locate,
    side := message.side,
    price := message.price_1e4,
    remaining := message.shares,
    attribution := message.attribution.getD Attribution.zero,
    has_attribution := message.attribution.isSome }

def add_to_side (message : AddOrder) (record : OrderRecord) (active_orders : ActiveOrders)
    (levels : LevelMap order) : Result Unit × ActiveOrders × LevelMap order :=
  match levels[message.price_1e4]? with
  | some existing =>
    if message.shares.toUInt64 > uint64_max - existing.aggregate_shares then
      (.error (Error.book_arithmetic_overflow
        "adding shares would overflow the price-level aggregate"
        message.shares.toUInt64 (uint64_max - existing.aggregate_shares)),
        active_orders, levels)
    else if existing.order_count = uint32_max then
      (.error (Error.book_arithmetic_overflow
        "adding an order would overflow the price-level order count"
        existing.order_count.toUInt64 uint32_max.toUInt64), active_orders, levels)
    else
      (.ok (), active_orders.insertIfNew message.order_reference record,
        levels.insert message.price_1e4
          { aggregate_shares := existing.aggregate_shares + message.shares.toUInt64,
            order_count := existing.order_count + 1 })
  | none =>
    (.ok (), active_orders.insertIfNew message.order_reference record,
      levels.insertIfNew message.price_1e4
        { aggregate_shares := message.shares.toUInt64, order_count := 1 })

def reduce_from_side (order_reference : OrderId) (active_order : OrderRecord) (shares : Shares)
    (active_orders : ActiveOrders) (levels : LevelMap order) :
    Result Unit × ActiveOrders × LevelMap order :=
  match levels[active_order.price]? with
  | none =>
    (invariant_failure "active order has no resting price level" 0 0, active_orders, levels)
  | some level =>
    if level.order_count = 0 then
      (invariant_failure "resting price level has zero orders" 0 0, active_orders, levels)
    else if level.aggregate_shares < shares.toUInt64 then
      (invariant_failure "resting price level has insufficient aggregate shares"
        level.aggregate_shares shares.toUInt64, active_orders, levels)
    else
      let removes_order := shares = active_order.remaining
      let remaining_level_shares := level.aggregate_shares - shares.toUInt64
      if removes_order then
        let level_becomes_empty := level.order_count = 1
        if ¬(level_becomes_empty ↔ remaining_level_shares = 0) then
          (invariant_failure "resting price-level count and aggregate disagree on full removal"
            level.order_count.toUInt64 remaining_level_shares, active_orders, levels)
        else
          let level : PriceLevel :=
            { aggregate_shares := remaining_level_shares, order_count := level.order_count - 1 }
          (.ok (), active_orders.erase order_reference,
            if level.order_count = 0 then levels.erase active_order.price
            else levels.insert active_order.price level)
      else if remaining_level_shares = 0 then
        (invariant_failure "partial reduction would leave an active zero-share price level" 0 0,
          active_orders, levels)
      else
        (.ok (),
          active_orders.insert order_reference
            { active_order with remaining := active_order.remaining - shares },
          levels.insert active_order.price
            { level with aggregate_shares := remaining_level_shares })

def delete_from_side (order_reference : OrderId) (active_order : OrderRecord)
    (active_orders : ActiveOrders) (levels : LevelMap order) :
    Result Unit × ActiveOrders × LevelMap order :=
  match levels[active_order.price]? with
  | none =>
    (invariant_failure "active order has no resting price level" 0 0, active_orders, levels)
  | some level =>
    if level.order_count = 0 then
      (invariant_failure "resting price level has zero orders" 0 0, active_orders, levels)
    else if level.aggregate_shares < active_order.remaining.toUInt64 then
      (invariant_failure "resting price level has insufficient aggregate shares"
        level.aggregate_shares active_order.remaining.toUInt64, active_orders, levels)
    else
      let remaining_level_shares := level.aggregate_shares - active_order.remaining.toUInt64
      let level_becomes_empty := level.order_count = 1
      if ¬(level_becomes_empty ↔ remaining_level_shares = 0) then
        (invariant_failure "resting price-level count and aggregate disagree on full removal"
          level.order_count.toUInt64 remaining_level_shares, active_orders, levels)
      else
        let level : PriceLevel :=
          { aggregate_shares := remaining_level_shares, order_count := level.order_count - 1 }
        (.ok (), active_orders.erase order_reference,
          if level.order_count = 0 then levels.erase active_order.price
          else levels.insert active_order.price level)

-- The record `replace` stores.
def replacement (message : OrderReplace) (original : OrderRecord) : OrderRecord :=
  { id := message.new_order_reference,
    stock_locate := original.stock_locate,
    side := original.side,
    price := message.price_1e4,
    remaining := message.shares,
    attribution := original.attribution,
    has_attribution := original.has_attribution }

def replace_on_side (message : OrderReplace) (original : OrderRecord)
    (active_orders : ActiveOrders) (levels : LevelMap order) :
    Result Unit × ActiveOrders × LevelMap order :=
  match levels[original.price]? with
  | none =>
    (invariant_failure "active order has no resting price level" 0 0, active_orders, levels)
  | some source_level =>
    if source_level.order_count = 0 then
      (invariant_failure "resting price level has zero orders" 0 0, active_orders, levels)
    else if source_level.aggregate_shares < original.remaining.toUInt64 then
      (invariant_failure "resting price level has insufficient aggregate shares"
        source_level.aggregate_shares original.remaining.toUInt64, active_orders, levels)
    else
      let source_shares_after_removal :=
        source_level.aggregate_shares - original.remaining.toUInt64
      let source_level_becomes_empty := source_level.order_count = 1
      if ¬(source_level_becomes_empty ↔ source_shares_after_removal = 0) then
        (invariant_failure "resting price-level count and aggregate disagree on full removal"
          source_level.order_count.toUInt64 source_shares_after_removal, active_orders, levels)
      else
        let replaced_orders := (active_orders.erase message.original_order_reference).insertIfNew
          message.new_order_reference (replacement message original)
        if message.price_1e4 = original.price then
          if message.shares.toUInt64 > uint64_max - source_shares_after_removal then
            (.error (Error.book_arithmetic_overflow
              "same-price replacement would overflow the price-level aggregate"
              message.shares.toUInt64 (uint64_max - source_shares_after_removal)),
              active_orders, levels)
          else
            (.ok (), replaced_orders,
              levels.insert original.price
                { source_level with
                  aggregate_shares := source_shares_after_removal + message.shares.toUInt64 })
        else
          -- the source level after one order has left it
          let reduced_level : PriceLevel :=
            { aggregate_shares := source_shares_after_removal,
              order_count := source_level.order_count - 1 }
          let reduced_levels :=
            if reduced_level.order_count = 0 then levels.erase original.price
            else levels.insert original.price reduced_level
          match levels[message.price_1e4]? with
          | some destination_level =>
            if destination_level.order_count = 0 then
              (invariant_failure "destination price level has zero orders" 0 0,
                active_orders, levels)
            else if destination_level.aggregate_shares = 0 then
              (invariant_failure "destination price level has zero aggregate shares" 0 0,
                active_orders, levels)
            else if message.shares.toUInt64 > uint64_max - destination_level.aggregate_shares then
              (.error (Error.book_arithmetic_overflow
                "replacement would overflow the destination-level aggregate"
                message.shares.toUInt64 (uint64_max - destination_level.aggregate_shares)),
                active_orders, levels)
            else if destination_level.order_count = uint32_max then
              (.error (Error.book_arithmetic_overflow
                "replacement would overflow the destination-level order count"
                destination_level.order_count.toUInt64 uint32_max.toUInt64),
                active_orders, levels)
            else
              (.ok (), replaced_orders,
                reduced_levels.insert message.price_1e4
                  { aggregate_shares :=
                      destination_level.aggregate_shares + message.shares.toUInt64,
                    order_count := destination_level.order_count + 1 })
          | none =>
            (.ok (), replaced_orders,
              reduced_levels.insertIfNew message.price_1e4
                { aggregate_shares := message.shares.toUInt64, order_count := 1 })

end Sides

-- A lambda applied to `bids_` or `asks_`, with what it leaves in the book.
def onBids (book : OrderBook)
    (operation : ActiveOrders → BidLevels → Result Unit × ActiveOrders × BidLevels) :
    Result Unit × OrderBook :=
  let (result, active_orders, bids) := operation book.active_orders book.bids
  (result, { book with active_orders, bids })

def onAsks (book : OrderBook)
    (operation : ActiveOrders → AskLevels → Result Unit × ActiveOrders × AskLevels) :
    Result Unit × OrderBook :=
  let (result, active_orders, asks) := operation book.active_orders book.asks
  (result, { book with active_orders, asks })

-- The checks of `add` before it touches a level.
def check_add (book : OrderBook) (message : AddOrder) : Result Unit :=
  if message.header.stock_locate ≠ book.stock_locate then
    .error (Error.invalid_add_order "add stock locate does not match containing book"
      message.header.stock_locate.toUInt64 book.stock_locate.toUInt64)
  else if message.side ≠ Side.Buy ∧ message.side ≠ Side.Sell then
    .error (Error.invalid_add_order "add order has an invalid side"
      message.side.code.toUInt64 0)
  else if message.shares = 0 then
    .error (Error.invalid_add_order "add order must have positive shares" 0 1)
  else if message.price_1e4 > kMaxPrice4 then
    .error (Error.invalid_add_order "add order price exceeds the supported Price4 range"
      message.price_1e4.toUInt64 kMaxPrice4.toUInt64)
  else if book.active_orders.contains message.order_reference then
    .error (Error.duplicate_order_reference message.order_reference)
  else
    .ok ()

def add (book : OrderBook) (message : AddOrder) : Result Unit × OrderBook :=
  match book.check_add message with
  | .error error => (.error error, book)
  | .ok () =>
    if message.side = Side.Buy then
      book.onBids (add_to_side message (add_record message))
    else
      book.onAsks (add_to_side message (add_record message))

-- The active order that `reduce` finds, once its checks pass.
def check_reduce (book : OrderBook) (stock_locate : StockLocate) (order_reference : OrderId)
    (shares : Shares) (kind : ReductionKind) : Result OrderRecord :=
  if stock_locate ≠ book.stock_locate then
    .error (Error.invalid_order_reduction
      "order reduction stock locate does not match containing book"
      stock_locate.toUInt64 book.stock_locate.toUInt64)
  else if shares = 0 then
    .error (Error.invalid_order_reduction "order reduction must have positive shares"
      shares.toUInt64 1)
  else
    match book.active_orders[order_reference]? with
    | none => .error (Error.unknown_order_reference order_reference)
    | some active_order =>
      if active_order.id ≠ order_reference then
        invariant_failure "active-order key does not match order record id" 0 0
      else if active_order.stock_locate ≠ book.stock_locate then
        invariant_failure "active order stock locate does not match containing book"
          active_order.stock_locate.toUInt64 book.stock_locate.toUInt64
      else if active_order.remaining = 0 then
        invariant_failure "active order has zero remaining shares" 0 0
      else if shares > active_order.remaining then
        .error (match kind with
          | .Execution =>
            Error.over_execution shares.toUInt64 active_order.remaining.toUInt64
          | .Cancel => Error.over_cancel shares.toUInt64 active_order.remaining.toUInt64)
      else
        .ok active_order

def reduce (book : OrderBook) (stock_locate : StockLocate) (order_reference : OrderId)
    (shares : Shares) (kind : ReductionKind) : Result Unit × OrderBook :=
  match book.check_reduce stock_locate order_reference shares kind with
  | .error error => (.error error, book)
  | .ok active_order =>
    if active_order.side = Side.Buy then
      book.onBids (reduce_from_side order_reference active_order shares)
    else if active_order.side = Side.Sell then
      book.onAsks (reduce_from_side order_reference active_order shares)
    else
      (invariant_failure "active order has an invalid side" 0 0, book)

def execute (book : OrderBook) (message : OrderExecuted) : Result Unit × OrderBook :=
  book.reduce message.header.stock_locate message.order_reference message.executed_shares
    .Execution

def execute_with_price (book : OrderBook) (message : OrderExecutedWithPrice) :
    Result Unit × OrderBook :=
  book.reduce message.header.stock_locate message.order_reference message.executed_shares
    .Execution

def cancel (book : OrderBook) (message : OrderCancel) : Result Unit × OrderBook :=
  book.reduce message.header.stock_locate message.order_reference message.cancelled_shares
    .Cancel

-- The active order that `delete_order` finds, once its checks pass.
def check_delete (book : OrderBook) (message : OrderDelete) : Result OrderRecord :=
  if message.header.stock_locate ≠ book.stock_locate then
    .error (Error.invalid_order_delete "delete stock locate does not match containing book"
      message.header.stock_locate.toUInt64 book.stock_locate.toUInt64)
  else
    match book.active_orders[message.order_reference]? with
    | none => .error (Error.unknown_order_reference message.order_reference)
    | some active_order =>
      if active_order.id ≠ message.order_reference then
        invariant_failure "active-order key does not match order record id" 0 0
      else if active_order.stock_locate ≠ book.stock_locate then
        invariant_failure "active order stock locate does not match containing book"
          active_order.stock_locate.toUInt64 book.stock_locate.toUInt64
      else if active_order.remaining = 0 then
        invariant_failure "active order has zero remaining shares" 0 0
      else
        .ok active_order

def delete_order (book : OrderBook) (message : OrderDelete) : Result Unit × OrderBook :=
  match book.check_delete message with
  | .error error => (.error error, book)
  | .ok active_order =>
    if active_order.side = Side.Buy then
      book.onBids (delete_from_side message.order_reference active_order)
    else if active_order.side = Side.Sell then
      book.onAsks (delete_from_side message.order_reference active_order)
    else
      (invariant_failure "active order has an invalid side" 0 0, book)

-- The original order that `replace` finds, once its checks pass.
def check_replace (book : OrderBook) (message : OrderReplace) : Result OrderRecord :=
  if message.header.stock_locate ≠ book.stock_locate then
    .error (Error.invalid_order_replace "replace stock locate does not match containing book"
      message.header.stock_locate.toUInt64 book.stock_locate.toUInt64)
  else if message.shares = 0 then
    .error (Error.invalid_order_replace "replacement order must have positive shares"
      message.shares.toUInt64 1)
  else if message.price_1e4 > kMaxPrice4 then
    .error (Error.invalid_order_replace "replacement price exceeds the supported Price4 range"
      message.price_1e4.toUInt64 kMaxPrice4.toUInt64)
  else
    match book.active_orders[message.original_order_reference]? with
    | none => .error (Error.unknown_order_reference message.original_order_reference)
    | some original =>
      if original.id ≠ message.original_order_reference then
        invariant_failure "active-order key does not match order record id" 0 0
      else if original.stock_locate ≠ book.stock_locate then
        invariant_failure "active order stock locate does not match containing book"
          original.stock_locate.toUInt64 book.stock_locate.toUInt64
      else if original.remaining = 0 then
        invariant_failure "active order has zero remaining shares" 0 0
      else if book.active_orders.contains message.new_order_reference then
        .error (Error.duplicate_order_reference message.new_order_reference)
      else
        .ok original

def replace (book : OrderBook) (message : OrderReplace) : Result Unit × OrderBook :=
  match book.check_replace message with
  | .error error => (.error error, book)
  | .ok original =>
    if original.side = Side.Buy then
      book.onBids (replace_on_side message original)
    else if original.side = Side.Sell then
      book.onAsks (replace_on_side message original)
    else
      (invariant_failure "active order has an invalid side" 0 0, book)

def canonicalLevels {order : Price4 → Price4 → Ordering} [TransCmp order]
    (levels : LevelMap order) : List CanonicalPriceLevel :=
  levels.toList.map fun entry =>
    { price := entry.1, aggregate_shares := entry.2.aggregate_shares,
      order_count := entry.2.order_count }

def canonicalOrder (order : OrderRecord) : CanonicalOrder :=
  { id := order.id, stock_locate := order.stock_locate, side := order.side,
    price := order.price, remaining := order.remaining, attribution := order.attribution,
    has_attribution := order.has_attribution }

-- `std::ranges::sort` may leave equal keys in any order. So does a sort after an
-- arbitrary visit.
def canonical_snapshot (book : OrderBook) (visit : Visit book.active_orders) :
    CanonicalOrderBook :=
  { stock_locate := book.stock_locate,
    bids := canonicalLevels book.bids,
    asks := canonicalLevels book.asks,
    orders := Sorting.sortBy compare CanonicalOrder.id
      (visit.val.map fun entry => canonicalOrder entry.2) }

-- One iteration of the last loop of `validate_invariants`.
def validate_order (book : OrderBook) (order_id : OrderId) (order : OrderRecord) :
    Result Unit :=
  if order.id ≠ order_id then
    invariant_failure "active-order key does not match order record id" 0 0
  else if order.remaining = 0 then
    invariant_failure "active order has zero remaining shares" 0 0
  else if order.stock_locate ≠ book.stock_locate then
    invariant_failure "active order stock locate does not match containing book"
      order.stock_locate.toUInt64 book.stock_locate.toUInt64
  else if order.side = Side.Buy then
    if book.bids.contains order.price then .ok ()
    else invariant_failure "active buy order has no bid price level" 0 0
  else if order.side = Side.Sell then
    if book.asks.contains order.price then .ok ()
    else invariant_failure "active sell order has no ask price level" 0 0
  else
    invariant_failure "active order has an invalid side" 0 0

def validate_invariants (book : OrderBook) (visit : Visit book.active_orders) :
    Result Unit := do
  validate_levels book.bids visit.val Side.Buy
  validate_levels book.asks visit.val Side.Sell
  visit.val.forM fun entry => book.validate_order entry.1 entry.2

end OrderBook

end AegisFeed
