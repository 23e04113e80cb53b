import AegisFeed.Book.BookStore.Invariant
import AegisFeed.Book.OrderBook.Validation

namespace AegisFeed

open Std
open FiniteMap (Visit)

-- Levels from the best price on, orders by id.
structure CanonicalOrderBook.Ordered (book : CanonicalOrderBook) : Prop where
  bids : book.bids.Pairwise fun a b => a.price > b.price
  asks : book.asks.Pairwise fun a b => a.price < b.price
  orders : book.orders.Pairwise fun a b => a.id < b.id

namespace OrderBook

variable {book : OrderBook} (h : book.Invariant)

include h

theorem Invariant.canonical_ids (visit : Visit book.active_orders) :
    (visit.val.map fun entry => canonicalOrder entry.2).map CanonicalOrder.id =
      visit.val.map Prod.fst := by
  rw [List.map_map]
  apply List.map_congr_left
  rintro ⟨id, order⟩ hentry
  exact (h.orders id order ((FiniteMap.mem_visit visit id order).mp hentry)).id_eq

theorem Invariant.canonical_ids_nodup (visit : Visit book.active_orders) :
    ((visit.val.map fun entry => canonicalOrder entry.2).map CanonicalOrder.id).Nodup := by
  rw [h.canonical_ids visit, (visit.property.map Prod.fst).nodup_iff]
  exact FiniteMap.toList_keys_nodup book.active_orders

-- Ids are unique, so the order in which the hash map is visited leaves no trace.
theorem Invariant.canonical_snapshot_visit (visit : Visit book.active_orders) :
    book.canonical_snapshot visit =
      book.canonical_snapshot (Visit.ascending book.active_orders) := by
  unfold canonical_snapshot
  rw [Sorting.sortBy_eq_of_perm compare CanonicalOrder.id (h.canonical_ids_nodup visit)
    (visit.property.map _)]
  rfl

theorem Invariant.canonical_snapshot_ordered (visit : Visit book.active_orders) :
    (book.canonical_snapshot visit).Ordered := by
  refine ⟨?_, ?_, ?_⟩
  · apply List.pairwise_map.mpr
    apply book.bids.ordered_keys_toList.imp
    intro a b hlt
    exact Std.compare_eq_lt.mp hlt
  · apply List.pairwise_map.mpr
    apply book.asks.ordered_keys_toList.imp
    intro a b hlt
    exact Std.compare_eq_lt.mp hlt
  · apply (Sorting.sortBy_strict compare CanonicalOrder.id (h.canonical_ids_nodup visit)).imp
    intro a b hlt
    exact Std.compare_eq_lt.mp hlt

end OrderBook

namespace BookStore

-- The snapshot of an owned book, and of a store, with no failing check.
def canonicalEntry (store : BookStore) (entry : StockLocate × OrderBook) : CanonicalBook :=
  { symbol := (store.symbol_directory.symbol_for entry.1).getD [],
    book := entry.2.canonical_snapshot (Visit.ascending entry.2.active_orders) }

def canonical (store : BookStore) : CanonicalBookStore :=
  { books := Sorting.sortBy compare CanonicalBook.symbol
      (store.books_by_locate.toList.map store.canonicalEntry) }

variable {store : BookStore} (h : store.Invariant)

include h

theorem Invariant.symbol_of_owned {stock_locate : StockLocate} {book : OrderBook}
    (howned : store.books_by_locate[stock_locate]? = some book) :
    ∃ symbol, store.symbol_directory.symbol_for stock_locate = some symbol ∧
      store.symbol_directory.requested_symbols.contains symbol := by
  rw [← SymbolDirectory.is_selected_iff, ← h.owned, ExtTreeMap.contains_iff_mem,
    FiniteMap.mem_iff_getElem?]
  exact ⟨book, howned⟩

theorem Invariant.canonical_book_ok {stock_locate : StockLocate} {book : OrderBook}
    (howned : store.books_by_locate[stock_locate]? = some book)
    (visit : Visit book.active_orders) :
    store.canonical_book stock_locate book visit =
      .ok (store.canonicalEntry (stock_locate, book)) := by
  obtain ⟨symbol, hsymbol, hrequested⟩ := h.symbol_of_owned howned
  obtain ⟨hbook, hlocate⟩ := h.books stock_locate book howned
  have hselected : store.symbol_directory.is_selected stock_locate :=
    (SymbolDirectory.is_selected_iff _ _).mpr ⟨symbol, hsymbol, hrequested⟩
  unfold canonical_book canonicalEntry
  simp only [hbook.validate_ok visit, hlocate, ne_eq, not_true_eq_false, if_false, hselected,
    hsymbol, hbook.canonical_snapshot_visit visit, Option.getD_some]

-- Owned books have different symbols.
theorem Invariant.canonical_symbols_nodup :
    ((store.books_by_locate.toList.map store.canonicalEntry).map CanonicalBook.symbol).Nodup := by
  rw [List.map_map, List.Nodup, List.pairwise_map]
  have hkeys := FiniteMap.toList_keys_nodup store.books_by_locate
  rw [List.Nodup, List.pairwise_map] at hkeys
  refine hkeys.imp_of_mem ?_
  rintro ⟨first, book⟩ ⟨second, other⟩ hfirst hsecond hne heq
  have howned := ExtTreeMap.mem_toList_iff_getElem?_eq_some.mp hfirst
  have howned' := ExtTreeMap.mem_toList_iff_getElem?_eq_some.mp hsecond
  obtain ⟨symbol, hsymbol, hrequested⟩ := h.symbol_of_owned howned
  obtain ⟨symbol', hsymbol', _⟩ := h.symbol_of_owned howned'
  have hsame : symbol = symbol' := by
    simpa [canonicalEntry, hsymbol, hsymbol'] using heq
  subst hsame
  exact hne (h.directory.symbol_for_inj hsymbol hsymbol' hrequested)

-- A snapshot never fails and does not depend on the order of iteration.
theorem Invariant.canonical_snapshot_ok (order : HashOrder store) :
    store.canonical_snapshot order = .ok store.canonical := by
  unfold canonical_snapshot canonical
  rw [Fallible.mapM_ok fun entry hentry => h.canonical_book_ok
    ((FiniteMap.mem_visit order.books entry.1 entry.2).mp hentry) _]
  have hperm := order.books.property.map store.canonicalEntry
  have hnodup := ((hperm.map CanonicalBook.symbol).nodup_iff).mpr h.canonical_symbols_nodup
  simp only [Sorting.sortBy_eq_of_perm compare CanonicalBook.symbol hnodup hperm]

theorem Invariant.canonical_strict :
    store.canonical.books.Pairwise fun a b => compare a.symbol b.symbol = .lt :=
  Sorting.sortBy_strict compare CanonicalBook.symbol h.canonical_symbols_nodup

omit h in
theorem mem_canonical (canonical_book : CanonicalBook) :
    canonical_book ∈ store.canonical.books ↔
      ∃ (stock_locate : StockLocate) (book : OrderBook),
        store.books_by_locate[stock_locate]? = some book ∧
          canonical_book = store.canonicalEntry (stock_locate, book) := by
  unfold canonical
  rw [(Sorting.sortBy_perm compare CanonicalBook.symbol _).mem_iff, List.mem_map]
  simp only [Prod.exists, ExtTreeMap.mem_toList_iff_getElem?_eq_some, eq_comm]

-- Every entry shows the book owned under its own locate.
theorem Invariant.owned_of_mem_canonical {entry : CanonicalBook}
    (hmem : entry ∈ store.canonical.books) :
    ∃ book, store.books_by_locate[entry.book.stock_locate]? = some book ∧
      entry = store.canonicalEntry (entry.book.stock_locate, book) := by
  obtain ⟨stock_locate, book, howned, heq⟩ := (mem_canonical entry).mp hmem
  have hlocate : entry.book.stock_locate = stock_locate := by
    rw [heq]
    exact (h.books stock_locate book howned).2
  exact ⟨book, hlocate ▸ howned, hlocate ▸ heq⟩

theorem Invariant.mem_canonical_locates (stock_locate : StockLocate) :
    stock_locate ∈ (store.canonical.books.map fun entry => entry.book.stock_locate) ↔
      store.symbol_directory.is_selected stock_locate := by
  rw [← h.owned, ExtTreeMap.contains_iff_mem, FiniteMap.mem_iff_getElem?, List.mem_map]
  constructor
  · rintro ⟨entry, hmem, rfl⟩
    obtain ⟨book, howned, _⟩ := h.owned_of_mem_canonical hmem
    exact ⟨book, howned⟩
  · rintro ⟨book, howned⟩
    exact ⟨_, (mem_canonical _).mpr ⟨stock_locate, book, howned, rfl⟩,
      (h.books stock_locate book howned).2⟩

-- Equal locates would give equal symbols, and the symbols are strictly increasing.
theorem Invariant.canonical_locates_nodup :
    (store.canonical.books.map fun entry => entry.book.stock_locate).Nodup := by
  rw [List.Nodup, List.pairwise_map]
  refine h.canonical_strict.imp_of_mem ?_
  intro first second hfirst hsecond hlt heq
  obtain ⟨book, howned, hbook⟩ := h.owned_of_mem_canonical hfirst
  obtain ⟨other, howned', hother⟩ := h.owned_of_mem_canonical hsecond
  have hsame : first.symbol = second.symbol := by
    rw [hbook, hother, heq]
    rfl
  have hself : compare second.symbol second.symbol = .eq := ReflCmp.compare_self
  rw [hsame, hself] at hlt
  cases hlt

theorem Invariant.canonical_symbol_for {entry : CanonicalBook}
    (hmem : entry ∈ store.canonical.books) :
    store.symbol_directory.symbol_for entry.book.stock_locate = some entry.symbol := by
  obtain ⟨book, howned, heq⟩ := h.owned_of_mem_canonical hmem
  obtain ⟨symbol, hsymbol, _⟩ := h.symbol_of_owned howned
  have hentry : entry.symbol =
      (store.symbol_directory.symbol_for entry.book.stock_locate).getD [] :=
    congrArg CanonicalBook.symbol heq
  rw [hentry, hsymbol]
  rfl

theorem Invariant.canonical_ordered {entry : CanonicalBook}
    (hmem : entry ∈ store.canonical.books) : entry.book.Ordered := by
  obtain ⟨book, howned, heq⟩ := h.owned_of_mem_canonical hmem
  rw [heq]
  exact (h.books _ book howned).1.canonical_snapshot_ordered _

end BookStore

end AegisFeed
