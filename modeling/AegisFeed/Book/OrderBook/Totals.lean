import AegisFeed.Book.OrderBook.Algebra
import AegisFeed.Book.OrderBook.Theorems
import AegisFeed.Library.FiniteMap.Counting

namespace AegisFeed

open Std
open FiniteMap (Visit total)

section Levels

variable {order : Price4 → Price4 → Ordering} [TransCmp order] [LawfulEqCmp order]
  {levels : LevelMap order} {orders : ActiveOrders} {side : Side}

theorem LevelsMatch.sum_shares (h : LevelsMatch levels orders side) :
    (levels.toList.map fun entry => entry.2.aggregate_shares.toNat).sum =
      (levels.keys.map (restingShares orders side)).sum := by
  rw [← ExtTreeMap.map_fst_toList_eq_keys, List.map_map]
  apply congrArg List.sum
  apply List.map_congr_left
  intro entry hentry
  have hlevel := ExtTreeMap.mem_toList_iff_getElem?_eq_some.mp hentry
  exact (h.represents hlevel).2.1

-- There are no more levels than prices in the supported range.
theorem LevelsMatch.size_le (h : LevelsMatch levels orders side)
    (hprices : ∀ (id : OrderId) (order : OrderRecord),
      orders[id]? = some order → order.price ≤ kMaxPrice4) :
    levels.size ≤ kMaxPrice4.toNat + 1 := by
  rw [← ExtTreeMap.length_keys]
  refine Words.length_le_of_nodup (fun _ _ => UInt32.toNat_inj.mp) ExtTreeMap.nodup_keys ?_
  intro price hprice
  have hrests := (h.mem_iff price).mp (ExtTreeMap.mem_keys.mp hprice)
  obtain ⟨id, order, hfound, -, rfl⟩ := hrests
  exact Nat.lt_succ_of_le (UInt32.le_iff_toNat_le.mp (hprices id order hfound))

omit [LawfulEqCmp order] in
@[simp] theorem OrderBook.length_canonicalLevels (levels : LevelMap order) :
    (OrderBook.canonicalLevels levels).length = levels.size := by
  unfold OrderBook.canonicalLevels
  rw [List.length_map, ExtTreeMap.length_toList]

omit [LawfulEqCmp order] in
theorem OrderBook.sum_canonicalLevels (levels : LevelMap order) :
    ((OrderBook.canonicalLevels levels).map fun level => level.aggregate_shares.toNat).sum =
      (levels.toList.map fun entry => entry.2.aggregate_shares.toNat).sum := by
  unfold OrderBook.canonicalLevels
  rw [List.map_map]
  rfl

end Levels

namespace OrderBook

-- The exact sum of the shares of the active orders.
def displayed_shares (book : OrderBook) : Nat :=
  total (fun order => order.remaining.toNat) book.active_orders

theorem displayed_shares_new (locate : StockLocate) (capacity : UInt64) :
    (new locate capacity).displayed_shares = 0 :=
  FiniteMap.total_empty _

@[simp] theorem length_canonical_orders (book : OrderBook) (visit : Visit book.active_orders) :
    (book.canonical_snapshot visit).orders.length = book.active_orders.size := by
  unfold canonical_snapshot
  rw [(Sorting.sortBy_perm compare CanonicalOrder.id _).length_eq, List.length_map,
    visit.property.length_eq, ExtTreeMap.length_toList]

-- The side and the price of every level.
def places (book : OrderBook) : List (Side × Price4) :=
  book.bids.keys.map (Prod.mk Side.Buy) ++ book.asks.keys.map (Prod.mk Side.Sell)

theorem places_nodup (book : OrderBook) : book.places.Nodup := by
  have hbids := (ExtTreeMap.nodup_keys (t := book.bids)).map (Prod.mk_right_injective Side.Buy)
  have hasks := (ExtTreeMap.nodup_keys (t := book.asks)).map (Prod.mk_right_injective Side.Sell)
  refine hbids.append hasks ?_
  intro place hbid hask
  obtain ⟨_, -, rfl⟩ := List.mem_map.mp hbid
  obtain ⟨_, -, heq⟩ := List.mem_map.mp hask
  have hsides : Side.Sell = Side.Buy := congrArg Prod.fst heq
  exact absurd hsides (by decide)

section Invariant

variable {book : OrderBook} (h : book.Invariant)

include h

theorem Invariant.price_le (id : OrderId) (order : OrderRecord)
    (hfound : book.active_orders[id]? = some order) : order.price ≤ kMaxPrice4 :=
  (h.orders id order hfound).price

theorem Invariant.size_lt {order : Price4 → Price4 → Ordering} [TransCmp order]
    [LawfulEqCmp order] {levels : LevelMap order} {side : Side}
    (hlevels : LevelsMatch levels book.active_orders side) : levels.size < 2 ^ 32 :=
  (hlevels.size_le h.price_le).trans_lt (by decide)

-- Every order has a share of its own.
theorem Invariant.size_le_displayed_shares :
    book.active_orders.size ≤ book.displayed_shares := by
  rw [← FiniteMap.total_one]
  exact FiniteMap.total_le _ _ _ h.allPositive

theorem Invariant.mem_places (id : OrderId) (order : OrderRecord)
    (hfound : book.active_orders[id]? = some order) :
    (order.side, order.price) ∈ book.places := by
  unfold places
  rw [List.mem_append]
  rcases (h.orders id order hfound).side with hside | hside
  · have hlevel := (h.bids.mem_iff order.price).mpr ⟨id, order, hfound, hside, rfl⟩
    rw [hside]
    exact Or.inl (List.mem_map_of_mem (ExtTreeMap.mem_keys.mpr hlevel))
  · have hlevel := (h.asks.mem_iff order.price).mpr ⟨id, order, hfound, hside, rfl⟩
    rw [hside]
    exact Or.inr (List.mem_map_of_mem (ExtTreeMap.mem_keys.mpr hlevel))

-- An order is in one level only, so the shares of the levels add up to those of the orders.
theorem Invariant.displayed_shares_eq :
    book.displayed_shares =
      (book.bids.toList.map fun entry => entry.2.aggregate_shares.toNat).sum +
        (book.asks.toList.map fun entry => entry.2.aggregate_shares.toNat).sum := by
  have hat : ∀ side price, total (fun order : OrderRecord =>
      if (order.side, order.price) = (side, price) then order.remaining.toNat else 0)
      book.active_orders = restingShares book.active_orders side price := by
    intro side price
    simp only [Prod.mk.injEq]
    rfl
  unfold displayed_shares
  rw [FiniteMap.total_eq_sum_places _ (fun order => (order.side, order.price)) _
    book.places_nodup h.mem_places]
  unfold places
  rw [List.map_append, List.sum_append, List.map_map, List.map_map, h.bids.sum_shares,
    h.asks.sum_shares]
  simp only [Function.comp_def, hat]

end Invariant

section Steps

theorem displayed_shares_view (book : OrderBook) :
    total Ledger.Entry.quantity book.view = book.displayed_shares :=
  FiniteMap.total_map OrderRecord.resting Ledger.Entry.quantity book.active_orders

theorem size_view (book : OrderBook) : book.view.size = book.active_orders.size :=
  ExtTreeMap.size_map

variable {book : OrderBook} (h : book.Invariant) {event : OrderEvent}
  (hok : (book.apply event).1 = .ok ())

include h hok

-- What an accepted event brings into a book, and what it takes out.
theorem apply_displayed_shares :
    (book.apply event).2.displayed_shares + event.step.lost book.view =
      book.displayed_shares + event.step.gained := by
  have haccepts := ((apply_ok_iff_step h event).mp hok).2
  rw [← displayed_shares_view, ← displayed_shares_view, apply_view h hok]
  exact Ledger.Step.quantity_effect haccepts.1

theorem apply_active_orders :
    (book.apply event).2.active_orders.size + event.step.closed book.view =
      book.active_orders.size + event.step.opened := by
  have haccepts := ((apply_ok_iff_step h event).mp hok).2
  rw [← size_view, ← size_view, apply_view h hok]
  exact Ledger.Step.size_effect haccepts.1

end Steps

end OrderBook

end AegisFeed
