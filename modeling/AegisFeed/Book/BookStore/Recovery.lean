import AegisFeed.Book.BookStore.Market
import AegisFeed.Book.BookStore.Totals
import AegisFeed.Book.OrderBook.Recovery
import AegisFeed.Book.SymbolDirectory.Spelling

namespace AegisFeed

open Std
open FiniteMap (Visit)
open SymbolDirectory (normalized mem_registry)

-- A name as a stock field.
def padded (symbol : Symbol) : StockSymbol :=
  ⟨((symbol.take kStockSymbolWidth).rightpad kStockSymbolWidth ' '.toUInt8).toArray, by
    simp [kStockSymbolWidth]⟩

theorem Stored.padded_toList {symbol : Symbol} (h : Stored symbol) :
    (padded symbol).toList = symbol.rightpad kStockSymbolWidth ' '.toUInt8 := by
  show (symbol.take kStockSymbolWidth).rightpad kStockSymbolWidth ' '.toUInt8 = _
  rw [List.take_of_length_le h.width]

theorem Stored.right_trimmed_eq {symbol : Symbol} (h : Stored symbol) :
    right_trimmed symbol = symbol := by
  rcases List.eq_nil_or_concat symbol with rfl | ⟨initial, last, rfl⟩
  · exact absurd rfl h.nonempty
  · have hlast := h.trimmed
    rw [List.concat_eq_append, List.getLast?_append_of_ne_nil _ (List.cons_ne_nil _ _)] at hlast
    rw [List.concat_eq_append, right_trimmed, List.rdropWhile_concat, if_neg]
    simpa using hlast

-- A stored name is what its field says.
theorem Stored.normalize_padded {symbol : Symbol} (h : Stored symbol) :
    NamesStock (padded symbol).toList ∧ right_trimmed (padded symbol).toList = symbol := by
  have htrimmed : right_trimmed (symbol.rightpad kStockSymbolWidth ' '.toUInt8) = symbol := by
    rw [AegisFeed.right_trimmed_eq, Padding.trimmed_rightpad, ← AegisFeed.right_trimmed_eq,
      h.right_trimmed_eq]
  rw [h.padded_toList]
  refine ⟨⟨?_, ?_⟩, htrimmed⟩
  · intro hnull
    rcases List.mem_append.mp hnull with hmem | hmem
    · exact h.no_null hmem
    · exact absurd (List.eq_of_mem_replicate hmem) (by decide)
  · rw [← not_not (a := ∃ character ∈ _, _), ← right_trimmed_eq_nil_iff, htrimmed]
    exact h.nonempty

def CanonicalOrder.record (order : CanonicalOrder) : OrderRecord :=
  { id := order.id, stock_locate := order.stock_locate, side := order.side,
    price := order.price, remaining := order.remaining, attribution := order.attribution,
    has_attribution := order.has_attribution }

-- The messages that say again what a snapshot shows: a listing and the orders of each book.
section Messages

variable (template : StockDirectory) (header : OrderId → ItchCommonHeader)

def CanonicalBook.listing (entry : CanonicalBook) : StockDirectory :=
  { template with
    header := { template.header with stock_locate := entry.book.stock_locate },
    stock := padded entry.symbol }

def CanonicalBook.entries (entry : CanonicalBook) : List (OrderId × OrderRecord) :=
  entry.book.orders.map fun order => (order.id, order.record)

def CanonicalBook.recovery (entry : CanonicalBook) : List StoreMessage :=
  .directory (entry.listing template) ::
    (OrderBook.restorations header (padded entry.symbol) entry.entries).map .order

def CanonicalBookStore.recovery (snapshot : CanonicalBookStore) : List StoreMessage :=
  snapshot.books.flatMap (CanonicalBook.recovery template header)

end Messages

namespace BookStore

def Accepts (store : BookStore) (message : StoreMessage) : Prop :=
  ¬StoreResponse.Failed (store.apply message).1

-- What the book of a locate does with events that succeed, the store does with it.
theorem Invariant.run_owned {store : BookStore} (h : store.Invariant) {stock_locate : StockLocate}
    {book : OrderBook} (howned : store.books_by_locate[stock_locate]? = some book)
    (events : List OrderEvent) (hlocate : ∀ event ∈ events, event.stock_locate = stock_locate)
    (hadmits : Machine.Admits OrderBook.apply OrderBook.Succeeds book events) :
    Machine.Admits BookStore.apply Accepts store (events.map .order) ∧
      Machine.run BookStore.apply store (events.map .order) = { store with
        books_by_locate := store.books_by_locate.insert stock_locate
          (Machine.run OrderBook.apply book events) } := by
  induction events generalizing store book with
  | nil =>
    refine ⟨trivial, ?_⟩
    rw [List.map_nil, Machine.run_nil, Machine.run_nil,
      FiniteMap.insert_of_getElem? _ _ _ howned]
  | cons event rest ih =>
    obtain rfl := hlocate event List.mem_cons_self
    have hstep := h.apply_event_ok howned hadmits.1
    have hinvariant := h.apply (.order event)
    have hnext : (store.apply (.order event)).2 = { store with
        books_by_locate := store.books_by_locate.insert event.stock_locate
          (book.apply event).2 } := congrArg Prod.snd hstep
    have hresponse : (store.apply (.order event)).1 = .routed (.ok .Applied) :=
      congrArg StoreResponse.routed (congrArg Prod.fst hstep)
    rw [hnext] at hinvariant
    obtain ⟨hadmits', hrun⟩ := ih hinvariant ExtTreeMap.getElem?_insert_self
      (fun other hother => hlocate other (List.mem_cons_of_mem _ hother)) hadmits.2
    rw [List.map_cons, Machine.run_cons, Machine.run_cons, hnext, hrun]
    refine ⟨⟨?_, by rwa [hnext]⟩, ?_⟩
    · rw [Accepts, hresponse]
      exact id
    · rw [FiniteMap.insert_insert]

-- A listing of a requested name at a locate without a book opens one.
theorem Requested.observe_opens {requested : List Symbol} {store : BookStore}
    (h : Requested requested store) {message : StockDirectory}
    (hok : (store.symbol_directory.observe message).1 = .ok ())
    (hwanted : message.entry.2 ∈ normalized requested)
    (hclosed : store.books_by_locate[message.header.stock_locate]? = none) :
    store.observe message = (.ok (), { store with
      symbol_directory := (store.symbol_directory.observe message).2,
      books_by_locate := store.books_by_locate.insert message.header.stock_locate
        (OrderBook.new message.header.stock_locate
          store.expected_active_order_capacity_per_book) }) := by
  have hknown : message.entry ∈ (store.symbol_directory.observe message).2.registry := by
    rw [SymbolDirectory.observe_registry hok]
    exact Set.mem_insert _ _
  have hselected : (store.symbol_directory.observe message).2.is_selected
      message.header.stock_locate := by
    refine (SymbolDirectory.is_selected_iff _ _).mpr ⟨message.entry.2, hknown, ?_⟩
    exact (SymbolDirectory.observe_requests _ message _).mpr ((h.requests _).mpr hwanted)
  unfold observe
  generalize store.symbol_directory.observe message = outcome at hok hselected
  rcases outcome with ⟨result, directory⟩
  cases hok
  dsimp only at hselected ⊢
  rw [if_pos hselected, FiniteMap.insertIfNew_of_none _ _ _ hclosed]

-- A store that holds the books of some entries of a snapshot and knows their names only.
structure Regained (store : BookStore) (entries : List CanonicalBook) (regained : BookStore) :
    Prop where
  names : regained.symbol_directory.registry =
    {pair | ∃ entry ∈ entries, pair = (entry.book.stock_locate, entry.symbol)}
  books : ∀ stock_locate : StockLocate, regained.books_by_locate[stock_locate]? =
    if stock_locate ∈ entries.map (fun entry => entry.book.stock_locate) then
      store.books_by_locate[stock_locate]?
    else none

section Entry

variable {store : BookStore} (h : store.Invariant) (haccurate : store.symbol_directory.Accurate)
  {entry : CanonicalBook} (hentry : entry ∈ store.canonical.books)

include h hentry

-- An entry has the orders of the book it shows.
theorem Invariant.entries_perm {book : OrderBook}
    (howned : store.books_by_locate[entry.book.stock_locate]? = some book) :
    entry.entries.Perm book.active_orders.toList := by
  obtain ⟨shown, hshown, heq⟩ := h.owned_of_mem_canonical hentry
  cases howned.symm.trans hshown
  have horders : entry.book.orders = Sorting.sortBy compare CanonicalOrder.id
      (book.active_orders.toList.map fun active => OrderBook.canonicalOrder active.2) := by
    rw [heq]
    rfl
  have hrecords : (book.active_orders.toList.map fun active =>
      OrderBook.canonicalOrder active.2).map (fun order => (order.id, order.record)) =
        book.active_orders.toList := by
    rw [List.map_map]
    conv_rhs => rw [← List.map_id book.active_orders.toList]
    apply List.map_congr_left
    rintro ⟨id, order⟩ hmem
    have hfound := ExtTreeMap.mem_toList_iff_getElem?_eq_some.mp hmem
    have hid := ((h.books _ book howned).1.orders id order hfound).id_eq
    exact Prod.ext hid rfl
  have hperm := (Sorting.sortBy_perm compare CanonicalOrder.id
    (book.active_orders.toList.map fun active => OrderBook.canonicalOrder active.2)).map
      fun order => (order.id, order.record)
  rwa [hrecords, ← horders] at hperm

include haccurate

theorem Invariant.stored_symbol : Stored entry.symbol :=
  haccurate.known _ _ (h.canonical_symbol_for hentry)

theorem Invariant.listing_entry (template : StockDirectory) :
    NamesStock (entry.listing template).stock.toList ∧
      (entry.listing template).entry = (entry.book.stock_locate, entry.symbol) := by
  obtain ⟨hnames, htrimmed⟩ := (h.stored_symbol haccurate hentry).normalize_padded
  exact ⟨hnames, congrArg (Prod.mk entry.book.stock_locate) htrimmed⟩

-- The listing is new to a store that has other entries back.
theorem Invariant.listing_accepted {requested : List Symbol} {before : List CanonicalBook}
    {regained : BookStore} (hrequested : Requested requested regained)
    (hregained : Regained store before regained)
    (hlocates : entry.book.stock_locate ∉ before.map fun other => other.book.stock_locate)
    (hsymbols : entry.symbol ∉ before.map CanonicalBook.symbol) (template : StockDirectory) :
    (regained.symbol_directory.observe (entry.listing template)).1 = .ok () := by
  obtain ⟨hnames, hpair⟩ := h.listing_entry haccurate hentry template
  refine (SymbolDirectory.observe_ok_iff hrequested.invariant.directory _).mpr ⟨hnames, ?_⟩
  rw [hpair, hregained.names]
  rintro _ ⟨other, hother, rfl⟩
  refine ⟨fun heq => absurd ?_ hlocates, fun heq => absurd ?_ hsymbols⟩
  · exact List.mem_map.mpr ⟨other, hother, heq⟩
  · exact List.mem_map.mpr ⟨other, hother, heq⟩

theorem Invariant.regains_entry {requested : List Symbol} {before : List CanonicalBook}
    {regained : BookStore} (hrequested : Requested requested regained)
    (hregained : Regained store before regained)
    (hlocates : entry.book.stock_locate ∉ before.map fun other => other.book.stock_locate)
    (hsymbols : entry.symbol ∉ before.map CanonicalBook.symbol)
    (hwanted : entry.symbol ∈ normalized requested) (template : StockDirectory)
    (header : OrderId → ItchCommonHeader) :
    Machine.Admits BookStore.apply Accepts regained (entry.recovery template header) ∧
      Regained store (before ++ [entry])
        (Machine.run BookStore.apply regained (entry.recovery template header)) := by
  obtain ⟨book, howned, -⟩ := h.owned_of_mem_canonical hentry
  obtain ⟨hbook, hlocate⟩ := h.books _ book howned
  obtain ⟨-, hpair⟩ := h.listing_entry haccurate hentry template
  have hok := h.listing_accepted haccurate hentry hrequested hregained hlocates hsymbols template
  have hclosed : regained.books_by_locate[entry.book.stock_locate]? = none := by
    rw [hregained.books, if_neg hlocates]
  have hopens := hrequested.observe_opens hok (by rwa [hpair]) hclosed
  have hinvariant := hrequested.invariant.apply (.directory (entry.listing template))
  have hnext : (regained.apply (.directory (entry.listing template))).2 =
      (regained.observe (entry.listing template)).2 := rfl
  rw [hnext, hopens] at hinvariant
  have hperm := h.entries_perm hentry howned
  have hlocated : ∀ event ∈ OrderBook.restorations header (padded entry.symbol) entry.entries,
      event.stock_locate = entry.book.stock_locate := by
    intro event hevent
    obtain ⟨⟨id, order⟩, hmem, rfl⟩ := List.mem_map.mp hevent
    have hfound := ExtTreeMap.mem_toList_iff_getElem?_eq_some.mp (hperm.mem_iff.mp hmem)
    exact (hbook.orders id order hfound).locate_eq.trans hlocate
  obtain ⟨hadmits, hrecovered⟩ := hbook.recovered header (padded entry.symbol)
    regained.expected_active_order_capacity_per_book ⟨entry.entries, hperm⟩
  rw [hlocate] at hadmits hrecovered
  obtain ⟨hadmits', hrun⟩ := hinvariant.run_owned ExtTreeMap.getElem?_insert_self
    (OrderBook.restorations header (padded entry.symbol) entry.entries) hlocated hadmits
  have hresponse : (regained.apply (.directory (entry.listing template))).1 = .observed (.ok ()) :=
    congrArg StoreResponse.observed (congrArg Prod.fst hopens)
  unfold CanonicalBook.recovery
  rw [Machine.run_cons, hnext, hopens]
  refine ⟨⟨?_, ?_⟩, ?_⟩
  · rw [Accepts, hresponse]
    exact id
  · rw [hnext, hopens]
    exact hadmits'
  rw [hrun]
  constructor
  case names =>
    show (regained.symbol_directory.observe (entry.listing template)).2.registry = _
    rw [SymbolDirectory.observe_registry hok, hpair, hregained.names]
    ext pair
    simp only [Set.mem_insert_iff, Set.mem_ofPred_eq, List.mem_append, List.mem_singleton]
    constructor
    · rintro (rfl | ⟨other, hother, rfl⟩)
      · exact ⟨entry, Or.inr rfl, rfl⟩
      · exact ⟨other, Or.inl hother, rfl⟩
    · rintro ⟨other, hother | rfl, rfl⟩
      · exact Or.inr ⟨other, hother, rfl⟩
      · exact Or.inl rfl
  case books =>
    intro stock_locate
    have hrestored : Machine.run OrderBook.apply
        (OrderBook.new (entry.listing template).header.stock_locate
          regained.expected_active_order_capacity_per_book)
        (OrderBook.restorations header (padded entry.symbol) entry.entries) = book := hrecovered
    rw [hrestored, FiniteMap.getElem?_insert, FiniteMap.getElem?_insert, hregained.books,
      List.map_append]
    change (if entry.book.stock_locate = stock_locate then some book
      else if entry.book.stock_locate = stock_locate then _ else _) = _
    by_cases heq : entry.book.stock_locate = stock_locate
    · subst heq
      simp [howned]
    · simp [heq, Ne.symm heq]

end Entry

theorem not_mem_map_before {α β : Type} {f : α → β} {before after : List α} {element : α}
    (hnodup : ((before ++ element :: after).map f).Nodup) : f element ∉ before.map f := by
  rw [List.map_append, List.nodup_append] at hnodup
  exact fun hmem => hnodup.2.2 _ hmem _ List.mem_cons_self rfl

-- The induction is on the entries that are back.
theorem Invariant.regains {store : BookStore} (h : store.Invariant)
    (haccurate : store.symbol_directory.Accurate) {requested : List Symbol} {capacity : UInt64}
    {start : BookStore} (hcreate : create requested capacity = .ok start)
    (hwanted : ∀ entry ∈ store.canonical.books, entry.symbol ∈ normalized requested)
    (template : StockDirectory) (header : OrderId → ItchCommonHeader)
    {before after : List CanonicalBook} (hbooks : store.canonical.books = before ++ after) :
    Machine.Admits BookStore.apply Accepts start
        (before.flatMap (CanonicalBook.recovery template header)) ∧
      Regained store before (Machine.run BookStore.apply start
        (before.flatMap (CanonicalBook.recovery template header))) := by
  induction before using List.reverseRecOn generalizing after with
  | nil =>
    obtain ⟨hdirectory, hempty⟩ := create_directory hcreate
    have hnone := (SymbolDirectory.create_created hdirectory).symbols
    refine ⟨trivial, ?_, ?_⟩
    · ext ⟨stock_locate, symbol⟩
      simp [mem_registry, hnone]
    · intro stock_locate
      simp [hempty]
  | append_singleton before entry ih =>
    rw [List.append_assoc, List.singleton_append] at hbooks
    obtain ⟨hadmits, hregained⟩ := ih hbooks
    have hentry : entry ∈ store.canonical.books := by
      rw [hbooks]
      exact List.mem_append_right _ List.mem_cons_self
    have hrequested : Requested requested (Machine.run BookStore.apply start
        (before.flatMap (CanonicalBook.recovery template header))) :=
      Machine.run_invariant BookStore.apply (Requested requested)
        (fun _ message hrequested => hrequested.apply message) start (create_requested hcreate) _
    have hlocates := h.canonical_locates_nodup
    have hsymbols : (store.canonical.books.map CanonicalBook.symbol).Nodup :=
      ((Sorting.sortBy_perm compare CanonicalBook.symbol _).map _).nodup_iff.mpr
        h.canonical_symbols_nodup
    rw [hbooks] at hlocates hsymbols
    have hlocate := not_mem_map_before hlocates
    have hsymbol := not_mem_map_before hsymbols
    rw [List.flatMap_append, List.flatMap_singleton, Machine.admits_append, Machine.run_append]
    obtain ⟨hadmits', hregained'⟩ := h.regains_entry haccurate hentry hrequested hregained hlocate
      hsymbol (hwanted entry hentry) template header
    exact ⟨⟨hadmits, hadmits'⟩, hregained'⟩

theorem Invariant.recovered {store : BookStore} (h : store.Invariant)
    (haccurate : store.symbol_directory.Accurate) {requested : List Symbol} {capacity : UInt64}
    {start : BookStore} (hcreate : create requested capacity = .ok start)
    (hwanted : ∀ entry ∈ store.canonical.books, entry.symbol ∈ normalized requested)
    (template : StockDirectory) (header : OrderId → ItchCommonHeader) :
    let messages := store.canonical.recovery template header
    Machine.Admits BookStore.apply Accepts start messages ∧
      (Machine.run BookStore.apply start messages).books_by_locate = store.books_by_locate ∧
      SameState (Machine.run BookStore.apply start messages) store := by
  intro messages
  obtain ⟨hadmits, hnames, hbooks⟩ := h.regains haccurate hcreate hwanted template header
    (List.append_nil _).symm
  have hsame : (Machine.run BookStore.apply start messages).books_by_locate =
      store.books_by_locate := by
    apply ExtTreeMap.ext_getElem?
    intro stock_locate
    refine (hbooks stock_locate).trans ?_
    by_cases howned : stock_locate ∈
        store.canonical.books.map fun entry => entry.book.stock_locate
    · rw [if_pos howned]
    · rw [if_neg howned]
      rw [h.mem_canonical_locates, ← h.owned, FiniteMap.not_contains_iff] at howned
      exact howned.symm
  have hinvariant := ((Reachable.created hcreate).run messages).invariant
  refine ⟨hadmits, hsame, SameState.of_canonical_eq hinvariant h
    (canonical_eq_of_books_eq h ?_ hsame)⟩
  rintro symbol stock_locate ⟨hsymbol, hselected⟩
  constructor
  · obtain ⟨entry, hentry, rfl⟩ := List.mem_map.mp ((h.mem_canonical_locates stock_locate).mpr
      hselected)
    cases (h.canonical_symbol_for hentry).symm.trans hsymbol
    have hknown : (entry.book.stock_locate, entry.symbol) ∈
        (Machine.run BookStore.apply start messages).symbol_directory.registry :=
      hnames ▸ ⟨entry, hentry, rfl⟩
    exact hknown
  · rw [← hinvariant.owned, hsame, h.owned]
    exact hselected

-- A snapshot is enough to go on with: another store that requests its names, told the
-- listing and the orders of every book that the snapshot shows, accepts all of them and is
-- in the same state, whatever messages and requests led to the first.
theorem Reachable.takes_over {store : BookStore} (h : store.Reachable) (order : HashOrder store)
    {snapshot : CanonicalBookStore} (hsnapshot : store.canonical_snapshot order = .ok snapshot)
    {requested : List Symbol} {capacity : UInt64} {start : BookStore}
    (hcreate : create requested capacity = .ok start)
    (hwanted : ∀ entry ∈ snapshot.books, entry.symbol ∈ normalized requested)
    (template : StockDirectory) (header : OrderId → ItchCommonHeader) :
    let messages := snapshot.recovery template header
    Machine.Admits BookStore.apply Accepts start messages ∧
      (Machine.run BookStore.apply start messages).books_by_locate = store.books_by_locate ∧
      SameState (Machine.run BookStore.apply start messages) store := by
  cases (h.invariant.canonical_snapshot_ok order).symm.trans hsnapshot
  exact h.invariant.recovered h.accurate hcreate hwanted template header

-- A store that requests one more name takes over from the sample store.
theorem sampleWide_recovered :
    let store := sampleStore [.directory sampleListing, .order (.add (sampleAdd 7 60)),
      .order (.cancel (sampleCancel 20))]
    let messages := store.canonical.recovery sampleListing fun _ => sampleHeader 'A' 0
    messages.length = 2 ∧
      (Machine.run BookStore.apply sampleWide messages).books_by_locate = store.books_by_locate := by
  intro store messages
  have hstore : store.Reachable := sampleStore_reachable _
  exact ⟨by decide, (hstore.takes_over (.ascending store)
    (hstore.invariant.canonical_snapshot_ok _) sampleWide_created (by decide) sampleListing
    fun _ => sampleHeader 'A' 0).2.1⟩

end BookStore

end AegisFeed
