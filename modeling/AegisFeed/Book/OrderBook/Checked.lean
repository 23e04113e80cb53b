import AegisFeed.Book.OrderBook.View

namespace AegisFeed

open Std
open Words (checkedAdd64 checkedSub64 checkedAdd32 checkedSub32 guard_checked)

namespace OrderBook

-- The operations of the book with every addition and subtraction checked: `none`
-- says that one of those executed left the range of its type.

section Sides

variable {order : Price4 → Price4 → Ordering} [TransCmp order]

def add_to_side_checked (message : AddOrder) (record : OrderRecord)
    (active_orders : ActiveOrders) (levels : LevelMap order) :
    Option (Result Unit × ActiveOrders × LevelMap order) :=
  match levels[message.price_1e4]? with
  | some existing => do
    let room ← checkedSub64 uint64_max existing.aggregate_shares
    if message.shares.toUInt64 > room then
      return (.error (Error.book_arithmetic_overflow
        "adding shares would overflow the price-level aggregate"
        message.shares.toUInt64 room), active_orders, levels)
    else if existing.order_count = uint32_max then
      return (.error (Error.book_arithmetic_overflow
        "adding an order would overflow the price-level order count"
        existing.order_count.toUInt64 uint32_max.toUInt64), active_orders, levels)
    else
      let aggregate_shares ← checkedAdd64 existing.aggregate_shares message.shares.toUInt64
      let order_count ← checkedAdd32 existing.order_count 1
      return (.ok (), active_orders.insertIfNew message.order_reference record,
        levels.insert message.price_1e4 { aggregate_shares, order_count })
  | none =>
    return (.ok (), active_orders.insertIfNew message.order_reference record,
      levels.insertIfNew message.price_1e4
        { aggregate_shares := message.shares.toUInt64, order_count := 1 })

def reduce_from_side_checked (order_reference : OrderId) (active_order : OrderRecord)
    (shares : Shares) (active_orders : ActiveOrders) (levels : LevelMap order) :
    Option (Result Unit × ActiveOrders × LevelMap order) :=
  match levels[active_order.price]? with
  | none =>
    return (invariant_failure "active order has no resting price level" 0 0, active_orders,
      levels)
  | some level =>
    if level.order_count = 0 then
      return (invariant_failure "resting price level has zero orders" 0 0, active_orders, levels)
    else if level.aggregate_shares < shares.toUInt64 then
      return (invariant_failure "resting price level has insufficient aggregate shares"
        level.aggregate_shares shares.toUInt64, active_orders, levels)
    else do
      let removes_order := shares = active_order.remaining
      let remaining_level_shares ← checkedSub64 level.aggregate_shares shares.toUInt64
      if removes_order then
        let level_becomes_empty := level.order_count = 1
        if ¬(level_becomes_empty ↔ remaining_level_shares = 0) then
          return (invariant_failure
            "resting price-level count and aggregate disagree on full removal"
            level.order_count.toUInt64 remaining_level_shares, active_orders, levels)
        else
          let order_count ← checkedSub32 level.order_count 1
          return (.ok (), active_orders.erase order_reference,
            if order_count = 0 then levels.erase active_order.price
            else levels.insert active_order.price
              { aggregate_shares := remaining_level_shares, order_count })
      else if remaining_level_shares = 0 then
        return (invariant_failure
          "partial reduction would leave an active zero-share price level" 0 0,
          active_orders, levels)
      else
        let remaining ← checkedSub32 active_order.remaining shares
        return (.ok (),
          active_orders.insert order_reference { active_order with remaining },
          levels.insert active_order.price
            { level with aggregate_shares := remaining_level_shares })

def delete_from_side_checked (order_reference : OrderId) (active_order : OrderRecord)
    (active_orders : ActiveOrders) (levels : LevelMap order) :
    Option (Result Unit × ActiveOrders × LevelMap order) :=
  match levels[active_order.price]? with
  | none =>
    return (invariant_failure "active order has no resting price level" 0 0, active_orders,
      levels)
  | some level =>
    if level.order_count = 0 then
      return (invariant_failure "resting price level has zero orders" 0 0, active_orders, levels)
    else if level.aggregate_shares < active_order.remaining.toUInt64 then
      return (invariant_failure "resting price level has insufficient aggregate shares"
        level.aggregate_shares active_order.remaining.toUInt64, active_orders, levels)
    else do
      let remaining_level_shares ←
        checkedSub64 level.aggregate_shares active_order.remaining.toUInt64
      let level_becomes_empty := level.order_count = 1
      if ¬(level_becomes_empty ↔ remaining_level_shares = 0) then
        return (invariant_failure
          "resting price-level count and aggregate disagree on full removal"
          level.order_count.toUInt64 remaining_level_shares, active_orders, levels)
      else
        let order_count ← checkedSub32 level.order_count 1
        return (.ok (), active_orders.erase order_reference,
          if order_count = 0 then levels.erase active_order.price
          else levels.insert active_order.price
            { aggregate_shares := remaining_level_shares, order_count })

def replace_on_side_checked (message : OrderReplace) (original : OrderRecord)
    (active_orders : ActiveOrders) (levels : LevelMap order) :
    Option (Result Unit × ActiveOrders × LevelMap order) :=
  match levels[original.price]? with
  | none =>
    return (invariant_failure "active order has no resting price level" 0 0, active_orders,
      levels)
  | some source_level =>
    if source_level.order_count = 0 then
      return (invariant_failure "resting price level has zero orders" 0 0, active_orders, levels)
    else if source_level.aggregate_shares < original.remaining.toUInt64 then
      return (invariant_failure "resting price level has insufficient aggregate shares"
        source_level.aggregate_shares original.remaining.toUInt64, active_orders, levels)
    else do
      let source_shares_after_removal ←
        checkedSub64 source_level.aggregate_shares original.remaining.toUInt64
      let source_level_becomes_empty := source_level.order_count = 1
      if ¬(source_level_becomes_empty ↔ source_shares_after_removal = 0) then
        return (invariant_failure
          "resting price-level count and aggregate disagree on full removal"
          source_level.order_count.toUInt64 source_shares_after_removal, active_orders, levels)
      else
        let replaced_orders := (active_orders.erase message.original_order_reference).insertIfNew
          message.new_order_reference (replacement message original)
        if message.price_1e4 = original.price then
          let room ← checkedSub64 uint64_max source_shares_after_removal
          if message.shares.toUInt64 > room then
            return (.error (Error.book_arithmetic_overflow
              "same-price replacement would overflow the price-level aggregate"
              message.shares.toUInt64 room), active_orders, levels)
          else
            let aggregate_shares ←
              checkedAdd64 source_shares_after_removal message.shares.toUInt64
            return (.ok (), replaced_orders,
              levels.insert original.price { source_level with aggregate_shares })
        else
          match levels[message.price_1e4]? with
          | some destination_level =>
            if destination_level.order_count = 0 then
              return (invariant_failure "destination price level has zero orders" 0 0,
                active_orders, levels)
            else if destination_level.aggregate_shares = 0 then
              return (invariant_failure "destination price level has zero aggregate shares" 0 0,
                active_orders, levels)
            else
              let room ← checkedSub64 uint64_max destination_level.aggregate_shares
              if message.shares.toUInt64 > room then
                return (.error (Error.book_arithmetic_overflow
                  "replacement would overflow the destination-level aggregate"
                  message.shares.toUInt64 room), active_orders, levels)
              else if destination_level.order_count = uint32_max then
                return (.error (Error.book_arithmetic_overflow
                  "replacement would overflow the destination-level order count"
                  destination_level.order_count.toUInt64 uint32_max.toUInt64),
                  active_orders, levels)
              else
                let order_count ← checkedSub32 source_level.order_count 1
                let aggregate_shares ←
                  checkedAdd64 destination_level.aggregate_shares message.shares.toUInt64
                let destination_count ← checkedAdd32 destination_level.order_count 1
                let reduced_levels :=
                  if order_count = 0 then levels.erase original.price
                  else levels.insert original.price
                    { aggregate_shares := source_shares_after_removal, order_count }
                return (.ok (), replaced_orders,
                  reduced_levels.insert message.price_1e4
                    { aggregate_shares, order_count := destination_count })
          | none =>
            let order_count ← checkedSub32 source_level.order_count 1
            let reduced_levels :=
              if order_count = 0 then levels.erase original.price
              else levels.insert original.price
                { aggregate_shares := source_shares_after_removal, order_count }
            return (.ok (), replaced_orders,
              reduced_levels.insertIfNew message.price_1e4
                { aggregate_shares := message.shares.toUInt64, order_count := 1 })

theorem checkedSub64_uint64_max (a : UInt64) :
    checkedSub64 uint64_max a = some (uint64_max - a) :=
  Words.checkedSub64_max a

theorem checkedAdd64_of_room {a b : UInt64} (h : ¬b > uint64_max - a) :
    checkedAdd64 a b = some (a + b) :=
  Words.checkedAdd64_of_guard h

theorem add_to_side_checked_eq (message : AddOrder) (record : OrderRecord)
    (active_orders : ActiveOrders) (levels : LevelMap order) :
    add_to_side_checked message record active_orders levels =
      some (add_to_side message record active_orders levels) := by
  unfold add_to_side_checked add_to_side
  cases levels[message.price_1e4]? with
  | none => rfl
  | some existing =>
    dsimp only
    rw [checkedSub64_uint64_max, Option.bind_eq_bind, Option.bind_some]
    refine guard_checked fun hroom => guard_checked fun hcount => ?_
    rw [checkedAdd64_of_room hroom, Words.checkedAdd32_one hcount]
    rfl

theorem reduce_from_side_checked_eq (order_reference : OrderId) (active_order : OrderRecord)
    (shares : Shares) (hle : ¬shares > active_order.remaining) (active_orders : ActiveOrders)
    (levels : LevelMap order) :
    reduce_from_side_checked order_reference active_order shares active_orders levels =
      some (reduce_from_side order_reference active_order shares active_orders levels) := by
  unfold reduce_from_side_checked reduce_from_side
  cases levels[active_order.price]? with
  | none => rfl
  | some level =>
    dsimp only
    refine guard_checked fun hcount => guard_checked fun hless => ?_
    simp only [Words.checkedSub64_of_not_lt hless, Words.checkedSub32_one hcount,
      Words.checkedSub32_of_not_gt hle, Option.bind_eq_bind, Option.bind_some]
    split_ifs <;> rfl

theorem delete_from_side_checked_eq (order_reference : OrderId) (active_order : OrderRecord)
    (active_orders : ActiveOrders) (levels : LevelMap order) :
    delete_from_side_checked order_reference active_order active_orders levels =
      some (delete_from_side order_reference active_order active_orders levels) := by
  unfold delete_from_side_checked delete_from_side
  cases levels[active_order.price]? with
  | none => rfl
  | some level =>
    dsimp only
    refine guard_checked fun hcount => guard_checked fun hless => ?_
    simp only [Words.checkedSub64_of_not_lt hless, Words.checkedSub32_one hcount,
      Option.bind_eq_bind, Option.bind_some]
    split_ifs <;> rfl

theorem replace_on_side_checked_eq (message : OrderReplace) (original : OrderRecord)
    (active_orders : ActiveOrders) (levels : LevelMap order) :
    replace_on_side_checked message original active_orders levels =
      some (replace_on_side message original active_orders levels) := by
  unfold replace_on_side_checked replace_on_side
  cases levels[original.price]? with
  | none => rfl
  | some source_level =>
    dsimp only
    refine guard_checked fun hcount => guard_checked fun hless => ?_
    simp only [Words.checkedSub64_of_not_lt hless, Words.checkedSub32_one hcount,
      Option.bind_eq_bind, Option.bind_some]
    refine guard_checked fun _ => ?_
    by_cases hprice : message.price_1e4 = original.price
    · rw [if_pos hprice, if_pos hprice, checkedSub64_uint64_max, Option.bind_some]
      refine guard_checked fun hroom => ?_
      rw [checkedAdd64_of_room hroom]
      rfl
    rw [if_neg hprice, if_neg hprice]
    cases levels[message.price_1e4]? with
    | none => rfl
    | some destination_level =>
      dsimp only
      refine guard_checked fun _ => guard_checked fun _ => ?_
      rw [checkedSub64_uint64_max, Option.bind_some]
      refine guard_checked fun hroom => guard_checked fun hmax => ?_
      rw [checkedAdd64_of_room hroom, Words.checkedAdd32_one hmax]
      rfl

end Sides

def onBids_checked (book : OrderBook) (operation : ActiveOrders → BidLevels →
    Option (Result Unit × ActiveOrders × BidLevels)) : Option (Result Unit × OrderBook) := do
  let (result, active_orders, bids) ← operation book.active_orders book.bids
  return (result, { book with active_orders, bids })

def onAsks_checked (book : OrderBook) (operation : ActiveOrders → AskLevels →
    Option (Result Unit × ActiveOrders × AskLevels)) : Option (Result Unit × OrderBook) := do
  let (result, active_orders, asks) ← operation book.active_orders book.asks
  return (result, { book with active_orders, asks })

-- The checks before a side is chosen do no arithmetic.
def add_checked (book : OrderBook) (message : AddOrder) : Option (Result Unit × OrderBook) :=
  match book.check_add message with
  | .error error => return (.error error, book)
  | .ok () =>
    if message.side = Side.Buy then
      book.onBids_checked (add_to_side_checked message (add_record message))
    else
      book.onAsks_checked (add_to_side_checked message (add_record message))

def reduce_checked (book : OrderBook) (stock_locate : StockLocate) (order_reference : OrderId)
    (shares : Shares) (kind : ReductionKind) : Option (Result Unit × OrderBook) :=
  match book.check_reduce stock_locate order_reference shares kind with
  | .error error => return (.error error, book)
  | .ok active_order =>
    if active_order.side = Side.Buy then
      book.onBids_checked (reduce_from_side_checked order_reference active_order shares)
    else if active_order.side = Side.Sell then
      book.onAsks_checked (reduce_from_side_checked order_reference active_order shares)
    else
      return (invariant_failure "active order has an invalid side" 0 0, book)

def delete_order_checked (book : OrderBook) (message : OrderDelete) :
    Option (Result Unit × OrderBook) :=
  match book.check_delete message with
  | .error error => return (.error error, book)
  | .ok active_order =>
    if active_order.side = Side.Buy then
      book.onBids_checked (delete_from_side_checked message.order_reference active_order)
    else if active_order.side = Side.Sell then
      book.onAsks_checked (delete_from_side_checked message.order_reference active_order)
    else
      return (invariant_failure "active order has an invalid side" 0 0, book)

def replace_checked (book : OrderBook) (message : OrderReplace) :
    Option (Result Unit × OrderBook) :=
  match book.check_replace message with
  | .error error => return (.error error, book)
  | .ok original =>
    if original.side = Side.Buy then
      book.onBids_checked (replace_on_side_checked message original)
    else if original.side = Side.Sell then
      book.onAsks_checked (replace_on_side_checked message original)
    else
      return (invariant_failure "active order has an invalid side" 0 0, book)

def apply_checked (book : OrderBook) : OrderEvent → Option (Result Unit × OrderBook)
  | .add message => book.add_checked message
  | .execute message =>
    book.reduce_checked message.header.stock_locate message.order_reference
      message.executed_shares .Execution
  | .execute_with_price message =>
    book.reduce_checked message.header.stock_locate message.order_reference
      message.executed_shares .Execution
  | .cancel message =>
    book.reduce_checked message.header.stock_locate message.order_reference
      message.cancelled_shares .Cancel
  | .delete_order message => book.delete_order_checked message
  | .replace message => book.replace_checked message

section Book

variable (book : OrderBook)

theorem onBids_checked_eq {checked : ActiveOrders → BidLevels →
    Option (Result Unit × ActiveOrders × BidLevels)}
    {operation : ActiveOrders → BidLevels → Result Unit × ActiveOrders × BidLevels}
    (h : ∀ active_orders bids, checked active_orders bids = some (operation active_orders bids)) :
    book.onBids_checked checked = some (book.onBids operation) := by
  unfold onBids_checked
  rw [h]
  rfl

theorem onAsks_checked_eq {checked : ActiveOrders → AskLevels →
    Option (Result Unit × ActiveOrders × AskLevels)}
    {operation : ActiveOrders → AskLevels → Result Unit × ActiveOrders × AskLevels}
    (h : ∀ active_orders asks, checked active_orders asks = some (operation active_orders asks)) :
    book.onAsks_checked checked = some (book.onAsks operation) := by
  unfold onAsks_checked
  rw [h]
  rfl

theorem add_checked_eq (message : AddOrder) :
    book.add_checked message = some (book.add message) := by
  unfold add_checked add
  cases book.check_add message with
  | error error => rfl
  | ok =>
    dsimp only
    rw [onBids_checked_eq book fun orders levels => add_to_side_checked_eq _ _ orders levels,
      onAsks_checked_eq book fun orders levels => add_to_side_checked_eq _ _ orders levels]
    split_ifs <;> rfl

-- The checks of a reduction bound the shares by what remains.
theorem check_reduce_le {stock_locate : StockLocate} {id : OrderId} {shares : Shares}
    {kind : ReductionKind} {active_order : OrderRecord}
    (h : book.check_reduce stock_locate id shares kind = .ok active_order) :
    ¬shares > active_order.remaining := by
  unfold check_reduce at h
  split at h
  · cases h
  split at h
  · cases h
  cases hfound : book.active_orders[id]? with
  | none =>
    rw [hfound] at h
    cases h
  | some active =>
    rw [hfound] at h
    dsimp only [invariant_failure] at h
    split_ifs at h with _ _ _ hover
    cases h
    exact hover

theorem reduce_checked_eq (stock_locate : StockLocate) (id : OrderId) (shares : Shares)
    (kind : ReductionKind) :
    book.reduce_checked stock_locate id shares kind =
      some (book.reduce stock_locate id shares kind) := by
  unfold reduce_checked reduce
  cases hcheck : book.check_reduce stock_locate id shares kind with
  | error error => rfl
  | ok active_order =>
    have hle := book.check_reduce_le hcheck
    dsimp only
    rw [onBids_checked_eq book fun orders levels =>
        reduce_from_side_checked_eq _ _ _ hle orders levels,
      onAsks_checked_eq book fun orders levels =>
        reduce_from_side_checked_eq _ _ _ hle orders levels]
    split_ifs <;> rfl

theorem delete_order_checked_eq (message : OrderDelete) :
    book.delete_order_checked message = some (book.delete_order message) := by
  unfold delete_order_checked delete_order
  cases book.check_delete message with
  | error error => rfl
  | ok active_order =>
    dsimp only
    rw [onBids_checked_eq book fun orders levels => delete_from_side_checked_eq _ _ orders levels,
      onAsks_checked_eq book fun orders levels => delete_from_side_checked_eq _ _ orders levels]
    split_ifs <;> rfl

theorem replace_checked_eq (message : OrderReplace) :
    book.replace_checked message = some (book.replace message) := by
  unfold replace_checked replace
  cases book.check_replace message with
  | error error => rfl
  | ok original =>
    dsimp only
    rw [onBids_checked_eq book fun orders levels => replace_on_side_checked_eq _ _ orders levels,
      onAsks_checked_eq book fun orders levels => replace_on_side_checked_eq _ _ orders levels]
    split_ifs <;> rfl

-- The guards of the code keep every executed operation in range, in any book.
theorem apply_checked_eq (event : OrderEvent) :
    book.apply_checked event = some (book.apply event) := by
  cases event with
  | add message => exact book.add_checked_eq message
  | execute message => exact book.reduce_checked_eq _ _ _ .Execution
  | execute_with_price message => exact book.reduce_checked_eq _ _ _ .Execution
  | cancel message => exact book.reduce_checked_eq _ _ _ .Cancel
  | delete_order message => exact book.delete_order_checked_eq message
  | replace message => exact book.replace_checked_eq message

end Book

end OrderBook

end AegisFeed
