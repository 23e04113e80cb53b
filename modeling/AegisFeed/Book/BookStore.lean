import AegisFeed.Book.OrderBook.View
import AegisFeed.Book.SymbolDirectory

namespace AegisFeed

open Std
open FiniteMap (Visit)

inductive BookRouteStatus where
  | Applied
  | KnownUnselected
deriving DecidableEq, Repr

structure CanonicalBook where
  symbol : Symbol
  book : CanonicalOrderBook
deriving DecidableEq

structure CanonicalBookStore where
  books : List CanonicalBook
deriving DecidableEq

structure BookStore where
  symbol_directory : SymbolDirectory
  books_by_locate : ExtTreeMap StockLocate OrderBook compare
  expected_active_order_capacity_per_book : UInt64
deriving DecidableEq

namespace BookStore

def create (requested_symbols : List Symbol)
    (expected_active_order_capacity_per_book : UInt64) : Result BookStore :=
  match SymbolDirectory.create requested_symbols with
  | .error error => .error error
  | .ok symbol_directory =>
    .ok { symbol_directory, books_by_locate := ∅, expected_active_order_capacity_per_book }

def observe (store : BookStore) (directory : StockDirectory) : Result Unit × BookStore :=
  match store.symbol_directory.observe directory with
  | (.error error, symbol_directory) => (.error error, { store with symbol_directory })
  | (.ok (), symbol_directory) =>
    let stock_locate := directory.header.stock_locate
    if symbol_directory.is_selected stock_locate then
      (.ok (), { store with
        symbol_directory,
        books_by_locate := store.books_by_locate.insertIfNew stock_locate
          (OrderBook.new stock_locate store.expected_active_order_capacity_per_book) })
    else
      (.ok (), { store with symbol_directory })

-- `none` is the null pointer of a known locate that is not selected.
def resolve_book (store : BookStore) (stock_locate : StockLocate) :
    Result (Option OrderBook) :=
  if ¬store.symbol_directory.is_known stock_locate then
    .error (Error.unknown_stock_locate stock_locate)
  else if ¬store.symbol_directory.is_selected stock_locate then
    .ok none
  else
    match store.books_by_locate[stock_locate]? with
    | none =>
      .error (Error.book_invariant_violation "selected stock locate has no owned order book"
        stock_locate.toUInt64 0)
    | some selected_book => .ok (some selected_book)

-- The common body of the order operations. The operation changes the resolved book
-- in place.
def route (store : BookStore) (stock_locate : StockLocate)
    (operation : OrderBook → Result Unit × OrderBook) : Result BookRouteStatus × BookStore :=
  match store.resolve_book stock_locate with
  | .error error => (.error error, store)
  | .ok none => (.ok .KnownUnselected, store)
  | .ok (some selected_book) =>
    let (result, book) := operation selected_book
    let store :=
      { store with books_by_locate := store.books_by_locate.insert stock_locate book }
    match result with
    | .error error => (.error error, store)
    | .ok () => (.ok .Applied, store)

def add (store : BookStore) (message : AddOrder) : Result BookRouteStatus × BookStore :=
  store.route message.header.stock_locate (OrderBook.add · message)

def execute (store : BookStore) (message : OrderExecuted) :
    Result BookRouteStatus × BookStore :=
  store.route message.header.stock_locate (OrderBook.execute · message)

def execute_with_price (store : BookStore) (message : OrderExecutedWithPrice) :
    Result BookRouteStatus × BookStore :=
  store.route message.header.stock_locate (OrderBook.execute_with_price · message)

def cancel (store : BookStore) (message : OrderCancel) : Result BookRouteStatus × BookStore :=
  store.route message.header.stock_locate (OrderBook.cancel · message)

def delete_order (store : BookStore) (message : OrderDelete) :
    Result BookRouteStatus × BookStore :=
  store.route message.header.stock_locate (OrderBook.delete_order · message)

def replace (store : BookStore) (message : OrderReplace) : Result BookRouteStatus × BookStore :=
  store.route message.header.stock_locate (OrderBook.replace · message)

-- The orders in which the two kinds of hash maps of a store are iterated.
structure HashOrder (store : BookStore) where
  books : Visit store.books_by_locate
  orders : StockLocate → (book : OrderBook) → Visit book.active_orders

-- One iteration of the loop of `canonical_snapshot`.
def canonical_book (store : BookStore) (stock_locate : StockLocate) (book : OrderBook)
    (visit : Visit book.active_orders) : Result CanonicalBook :=
  match book.validate_invariants visit with
  | .error error => .error error
  | .ok () =>
    if book.stock_locate ≠ stock_locate then
      .error (Error.book_invariant_violation "owned book key does not match book stock locate"
        book.stock_locate.toUInt64 stock_locate.toUInt64)
    else if ¬store.symbol_directory.is_selected stock_locate then
      .error (Error.book_invariant_violation "owned book stock locate is not selected"
        stock_locate.toUInt64 0)
    else
      match store.symbol_directory.symbol_for stock_locate with
      | none =>
        .error (Error.book_invariant_violation "owned book stock locate has no directory symbol"
          stock_locate.toUInt64 0)
      | some symbol => .ok { symbol, book := book.canonical_snapshot visit }

def canonical_snapshot (store : BookStore) (order : HashOrder store) :
    Result CanonicalBookStore :=
  match order.books.val.mapM fun entry =>
      store.canonical_book entry.1 entry.2 (order.orders entry.1 entry.2) with
  | .error error => .error error
  | .ok books =>
    .ok { books := Sorting.sortBy compare CanonicalBook.symbol books }

def book_count (store : BookStore) : Nat :=
  store.books_by_locate.size

def has_book (store : BookStore) (stock_locate : StockLocate) : Bool :=
  store.books_by_locate.contains stock_locate

-- `none` is the null pointer.
def book (store : BookStore) (stock_locate : StockLocate) : Option OrderBook :=
  store.books_by_locate[stock_locate]?

end BookStore

-- The messages a store takes, and what it returns for them.
inductive StoreMessage where
  | directory (message : StockDirectory)
  | order (event : OrderEvent)
deriving DecidableEq

inductive StoreResponse where
  | observed (result : Result Unit)
  | routed (result : Result BookRouteStatus)
deriving DecidableEq

def StoreMessage.stock_locate : StoreMessage → StockLocate
  | .directory message => message.header.stock_locate
  | .order event => event.stock_locate

namespace BookStore

def apply_event (store : BookStore) : OrderEvent → Result BookRouteStatus × BookStore
  | .add message => store.add message
  | .execute message => store.execute message
  | .execute_with_price message => store.execute_with_price message
  | .cancel message => store.cancel message
  | .delete_order message => store.delete_order message
  | .replace message => store.replace message

def apply (store : BookStore) : StoreMessage → StoreResponse × BookStore
  | .directory message =>
    let (result, store) := store.observe message
    (.observed result, store)
  | .order event =>
    let (result, store) := store.apply_event event
    (.routed result, store)

end BookStore

end AegisFeed
