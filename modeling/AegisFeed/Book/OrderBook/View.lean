import AegisFeed.Book.OrderBook.Invariant
import AegisFeed.Library.Ledger

namespace AegisFeed

open Std

-- The messages an order book takes.
inductive OrderEvent where
  | add (message : AddOrder)
  | execute (message : OrderExecuted)
  | execute_with_price (message : OrderExecutedWithPrice)
  | cancel (message : OrderCancel)
  | delete_order (message : OrderDelete)
  | replace (message : OrderReplace)
deriving DecidableEq

def OrderEvent.stock_locate : OrderEvent → StockLocate
  | .add message => message.header.stock_locate
  | .execute message => message.header.stock_locate
  | .execute_with_price message => message.header.stock_locate
  | .cancel message => message.header.stock_locate
  | .delete_order message => message.header.stock_locate
  | .replace message => message.header.stock_locate

def OrderBook.apply (book : OrderBook) : OrderEvent → Result Unit × OrderBook
  | .add message => book.add message
  | .execute message => book.execute message
  | .execute_with_price message => book.execute_with_price message
  | .cancel message => book.cancel message
  | .delete_order message => book.delete_order message
  | .replace message => book.replace message

-- What an order book is for: a ledger of displayed quantities, held at a side and
-- a price, with the attribution of the order as the tag.
abbrev RestingOrder := Ledger.Entry (Side × Price4) (Option Attribution)

abbrev OrderLedger := Ledger.State OrderId (Side × Price4) (Option Attribution)

-- A level counts its orders in 32 bits.
def levelCapacity : Nat := 2 ^ 32 - 1

def AddOrder.resting (message : AddOrder) : RestingOrder :=
  { place := (message.side, message.price_1e4), quantity := message.shares.toNat,
    tag := message.attribution }

-- The side of an order never changes.
def OrderReplace.place (message : OrderReplace) (original : RestingOrder) : Side × Price4 :=
  (original.place.1, message.price_1e4)

namespace OrderLedger

def Accepts (locate : StockLocate) (ledger : OrderLedger) : OrderEvent → Prop
  | .add message =>
    message.header.stock_locate = locate ∧
    (message.side = Side.Buy ∨ message.side = Side.Sell) ∧ message.price_1e4 ≤ kMaxPrice4 ∧
    Ledger.CanEnter levelCapacity ledger message.order_reference message.resting
  | .execute message =>
    message.header.stock_locate = locate ∧
    Ledger.CanTake ledger message.order_reference message.executed_shares.toNat
  | .execute_with_price message =>
    message.header.stock_locate = locate ∧
    Ledger.CanTake ledger message.order_reference message.executed_shares.toNat
  | .cancel message =>
    message.header.stock_locate = locate ∧
    Ledger.CanTake ledger message.order_reference message.cancelled_shares.toNat
  | .delete_order message =>
    message.header.stock_locate = locate ∧ Ledger.CanRemove ledger message.order_reference
  | .replace message =>
    message.header.stock_locate = locate ∧ message.price_1e4 ≤ kMaxPrice4 ∧
    Ledger.CanMove levelCapacity ledger message.original_order_reference
      message.new_order_reference message.place message.shares.toNat

def effect (ledger : OrderLedger) : OrderEvent → OrderLedger
  | .add message => Ledger.enter ledger message.order_reference message.resting
  | .execute message =>
    Ledger.take ledger message.order_reference message.executed_shares.toNat
  | .execute_with_price message =>
    Ledger.take ledger message.order_reference message.executed_shares.toNat
  | .cancel message =>
    Ledger.take ledger message.order_reference message.cancelled_shares.toNat
  | .delete_order message => Ledger.remove ledger message.order_reference
  | .replace message =>
    Ledger.move ledger message.original_order_reference message.new_order_reference
      message.place message.shares.toNat

-- The places whose level an event may change.
def touched (ledger : OrderLedger) : OrderEvent → List (Side × Price4)
  | .add message => [(message.side, message.price_1e4)]
  | .execute message => (ledger[message.order_reference]?.map Ledger.Entry.place).toList
  | .execute_with_price message =>
    (ledger[message.order_reference]?.map Ledger.Entry.place).toList
  | .cancel message => (ledger[message.order_reference]?.map Ledger.Entry.place).toList
  | .delete_order message => (ledger[message.order_reference]?.map Ledger.Entry.place).toList
  | .replace message =>
    match ledger[message.original_order_reference]? with
    | none => []
    | some original => [original.place, message.place original]

end OrderLedger

def OrderRecord.resting (order : OrderRecord) : RestingOrder :=
  { place := (order.side, order.price), quantity := order.remaining.toNat,
    tag := if order.has_attribution then some order.attribution else none }

def OrderBook.view (book : OrderBook) : OrderLedger :=
  book.active_orders.map fun _ order => order.resting

-- Nothing of a well-formed record is lost in the ledger.
theorem OrderRecord.WellFormed.eq_of_resting {locate : StockLocate}
    {id : OrderId} {order order' : OrderRecord} (h : order.WellFormed locate id)
    (h' : order'.WellFormed locate id) (heq : order.resting = order'.resting) :
    order = order' := by
  rcases order with ⟨key, located, side, price, remaining, attribution, attributed⟩
  rcases order' with ⟨key', located', side', price', remaining', attribution', attributed'⟩
  simp only [OrderRecord.resting, Ledger.Entry.mk.injEq, Prod.mk.injEq] at heq
  obtain ⟨⟨rfl, rfl⟩, hremaining, htag⟩ := heq
  have hr : remaining = remaining' := UInt32.toNat_inj.mp hremaining
  have hk : key = key' := h.id_eq.trans h'.id_eq.symm
  have hl : located = located' := h.locate_eq.trans h'.locate_eq.symm
  have hz := h.attribution
  have hz' := h'.attribution
  cases attributed <;> cases attributed' <;> simp_all

namespace OrderBook

theorem view_getElem? (book : OrderBook) (id : OrderId) :
    book.view[id]? = book.active_orders[id]?.map OrderRecord.resting :=
  ExtTreeMap.getElem?_map

theorem view_getElem?_eq_none_iff (book : OrderBook) (id : OrderId) :
    book.view[id]? = none ↔ book.active_orders[id]? = none := by
  rw [view_getElem?, Option.map_eq_none_iff]

theorem view_of_getElem? {book : OrderBook} {id : OrderId} {order : OrderRecord}
    (hfound : book.active_orders[id]? = some order) : book.view[id]? = some order.resting := by
  rw [view_getElem?, hfound]
  rfl

theorem view_eq_some {book : OrderBook} {id : OrderId} {entry : RestingOrder}
    (hentry : book.view[id]? = some entry) :
    ∃ order, book.active_orders[id]? = some order ∧ entry = order.resting := by
  rw [view_getElem?, Option.map_eq_some_iff] at hentry
  obtain ⟨order, hfound, he⟩ := hentry
  exact ⟨order, hfound, he.symm⟩

-- Nothing of a book is lost in its ledger.
theorem Invariant.eq_of_view {book book' : OrderBook} (h : book.Invariant)
    (h' : book'.Invariant) (hlocate : book.stock_locate = book'.stock_locate)
    (hview : book.view = book'.view) : book = book' := by
  refine h.unique h' hlocate (FiniteMap.eq_of_map_eq OrderRecord.resting ?_ ?_)
  · intro id
    rw [← view_getElem?, ← view_getElem?, hview]
  · intro id order order' hfound hfound' hresting
    have hwell := h'.orders id order' hfound'
    rw [← hlocate] at hwell
    exact (h.orders id order hfound).eq_of_resting hwell hresting

theorem countAt_view (book : OrderBook) (side : Side) (price : Price4) :
    Ledger.countAt book.view (side, price) = restingCount book.active_orders side price := by
  unfold Ledger.countAt restingCount view
  rw [FiniteMap.total_map]
  simp only [OrderRecord.resting, Prod.mk.injEq]
  rfl

theorem quantityAt_view (book : OrderBook) (side : Side) (price : Price4) :
    Ledger.quantityAt book.view (side, price) =
      restingShares book.active_orders side price := by
  unfold Ledger.quantityAt restingShares view
  rw [FiniteMap.total_map]
  simp only [OrderRecord.resting, Prod.mk.injEq]
  rfl

end OrderBook

end AegisFeed
