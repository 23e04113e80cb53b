import AegisFeed.Book.OrderBook.Sides

namespace AegisFeed

open Std

-- What holds of an entry of `active_orders` with key `id` in the book of `locate`.
structure OrderRecord.WellFormed (locate : StockLocate) (id : OrderId) (order : OrderRecord) :
    Prop where
  id_eq : order.id = id
  locate_eq : order.stock_locate = locate
  side : order.side = Side.Buy ∨ order.side = Side.Sell
  remaining : 0 < order.remaining.toNat
  price : order.price ≤ kMaxPrice4
  attribution : order.has_attribution = false → order.attribution = Attribution.zero

structure OrderBook.Invariant (book : OrderBook) : Prop where
  orders : ∀ (id : OrderId) (order : OrderRecord),
    book.active_orders[id]? = some order → order.WellFormed book.stock_locate id
  bids : LevelsMatch book.bids book.active_orders Side.Buy
  asks : LevelsMatch book.asks book.active_orders Side.Sell

namespace OrderBook

theorem new_invariant (locate : StockLocate) (capacity : UInt64) :
    (new locate capacity).Invariant := by
  have hcount : ∀ side price, restingCount ∅ side price = 0 := by
    intro side price
    exact FiniteMap.total_empty _
  refine ⟨?_, ?_, ?_⟩
  · intro id order hfound
    simp [new] at hfound
  · intro price
    simp only [new, ExtTreeMap.getElem?_empty]
    exact hcount _ _
  · intro price
    simp only [new, ExtTreeMap.getElem?_empty]
    exact hcount _ _

theorem Invariant.allPositive {book : OrderBook} (h : book.Invariant) :
    AllPositive book.active_orders :=
  fun id order hfound => (h.orders id order hfound).remaining

theorem Invariant.restingCount_le {book : OrderBook} (h : book.Invariant) {side : Side}
    (hside : side = Side.Buy ∨ side = Side.Sell) (price : Price4) :
    restingCount book.active_orders side price ≤ 2 ^ 32 - 1 := by
  rcases hside with rfl | rfl
  · exact h.bids.restingCount_le price
  · exact h.asks.restingCount_le price

-- The levels are a function of the orders.
theorem Invariant.unique {book book' : OrderBook} (h : book.Invariant) (h' : book'.Invariant)
    (hlocate : book.stock_locate = book'.stock_locate)
    (horders : book.active_orders = book'.active_orders) : book = book' := by
  rcases book with ⟨locate, orders, bids, asks⟩
  rcases book' with ⟨locate', orders', bids', asks'⟩
  simp only at hlocate horders
  subst hlocate horders
  have hb : bids = bids' := LevelsMatch.unique h.bids h'.bids
  have ha : asks = asks' := LevelsMatch.unique h.asks h'.asks
  rw [hb, ha]

-- A step that succeeds, and the orders it leaves.
structure Advances (book : OrderBook) (orders : ActiveOrders)
    (outcome : Result Unit × OrderBook) : Prop where
  result : outcome.1 = .ok ()
  stock_locate : outcome.2.stock_locate = book.stock_locate
  active_orders : outcome.2.active_orders = orders
  invariant : outcome.2.Invariant

-- A step that fails. It fails for no broken invariant, and on an arithmetic limit
-- only where `full` says the limit is reached.
structure Rejects (book : OrderBook) (full : Prop) (outcome : Result Unit × OrderBook) :
    Prop where
  error : ∃ error, outcome.1 = .error error ∧ error.code ≠ .BookInvariantViolation ∧
    (error.code = .BookArithmeticOverflow → full)
  unchanged : outcome.2 = book

-- A side operation that succeeds on every level map matching the orders, applied
-- to the bids or to the asks.
theorem Invariant.advances {book : OrderBook} (h : book.Invariant) {side : Side}
    (hside : side = Side.Buy ∨ side = Side.Sell) {orders : ActiveOrders}
    (horders : ∀ (id : OrderId) (order : OrderRecord),
      orders[id]? = some order → order.WellFormed book.stock_locate id)
    (hsame : ∀ other, other ≠ side → SameResting book.active_orders orders other)
    (operation : (order : Price4 → Price4 → Ordering) → [TransCmp order] → ActiveOrders →
      LevelMap order → Result Unit × ActiveOrders × LevelMap order)
    (hoperation : ∀ (order : Price4 → Price4 → Ordering) [TransCmp order] [LawfulEqCmp order]
      (levels : LevelMap order), LevelsMatch levels book.active_orders side →
      ∃ levels', operation order book.active_orders levels = (.ok (), orders, levels') ∧
        LevelsMatch levels' orders side) :
    Advances book orders (if side = Side.Buy then book.onBids (operation descending)
      else book.onAsks (operation compare)) := by
  rcases hside with rfl | rfl
  · obtain ⟨bids, hbids, hmatch⟩ := hoperation descending book.bids h.bids
    rw [if_pos rfl]
    simp only [onBids, hbids]
    exact ⟨rfl, rfl, rfl, horders, hmatch, h.asks.of_sameResting (hsame _ (by decide))⟩
  · obtain ⟨asks, hasks, hmatch⟩ := hoperation compare book.asks h.asks
    rw [if_neg (by decide)]
    simp only [onAsks, hasks]
    exact ⟨rfl, rfl, rfl, horders, h.bids.of_sameResting (hsame _ (by decide)), hmatch⟩

-- A side operation that fails with an overflow and changes nothing.
theorem Invariant.overflows {book : OrderBook} (h : book.Invariant) {side : Side}
    (hside : side = Side.Buy ∨ side = Side.Sell) {full : Prop} (hfull : full)
    (operation : (order : Price4 → Price4 → Ordering) → [TransCmp order] → ActiveOrders →
      LevelMap order → Result Unit × ActiveOrders × LevelMap order) (error : Error)
    (herror : error.code = .BookArithmeticOverflow)
    (hoperation : ∀ (order : Price4 → Price4 → Ordering) [TransCmp order] [LawfulEqCmp order]
      (levels : LevelMap order), LevelsMatch levels book.active_orders side →
      operation order book.active_orders levels = (.error error, book.active_orders, levels)) :
    Rejects book full (if side = Side.Buy then book.onBids (operation descending)
      else book.onAsks (operation compare)) := by
  have hcode : error.code ≠ .BookInvariantViolation := by rw [herror]; decide
  rcases hside with rfl | rfl
  · rw [if_pos rfl]
    simp only [onBids, hoperation descending book.bids h.bids]
    exact ⟨⟨error, rfl, hcode, fun _ => hfull⟩, rfl⟩
  · rw [if_neg (by decide)]
    simp only [onAsks, hoperation compare book.asks h.asks]
    exact ⟨⟨error, rfl, hcode, fun _ => hfull⟩, rfl⟩

end OrderBook

end AegisFeed
