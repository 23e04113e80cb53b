import AegisFeed.Book.BookStore.Market
import AegisFeed.Book.BookStore.Totals
import AegisFeed.Book.OrderBook.Queries

namespace AegisFeed

open Std
open FiniteMap (Visit)
open SymbolDirectory (normalized)

namespace Market

variable (requested : List Symbol)

-- The requested names that have a locate, and the locates that have a requested name.
def found (market : Market) : Set Symbol :=
  {symbol | symbol ∈ normalized requested ∧
    ∃ stock_locate : StockLocate, market.names[stock_locate]? = some symbol}

def selected (market : Market) : Set StockLocate :=
  {stock_locate | market.Selects requested stock_locate}

-- The locate of a name that is requested.
def wantedHolder (market : Market) (symbol : Symbol) : Option StockLocate :=
  if symbol ∈ normalized requested then market.holder symbol else none

end Market

-- Every query of a directory answers from the names of its market.
structure SymbolDirectory.Answers (directory : SymbolDirectory) (requested : List Symbol)
    (market : Market) : Prop where
  known_locate_count : directory.known_locate_count = market.names.size
  requested_symbol_count : directory.requested_symbol_count = (normalized requested).ncard
  discovered_requested_symbol_count :
    directory.discovered_requested_symbol_count.toNat = (market.found requested).ncard
  symbol_for : ∀ stock_locate : StockLocate,
    directory.symbol_for stock_locate = market.names[stock_locate]?
  is_known : ∀ stock_locate, directory.is_known stock_locate ↔ stock_locate ∈ market.names
  is_selected : ∀ stock_locate,
    directory.is_selected stock_locate ↔ stock_locate ∈ market.selected requested
  discovered_locate : ∀ text, directory.discovered_locate text =
    (normalize_requested_symbol text).map (market.wantedHolder requested)
  requested_symbol_discovered : ∀ text, directory.requested_symbol_discovered text =
    (normalize_requested_symbol text).map fun name => (market.wantedHolder requested name).isSome
  all_requested_symbols_discovered : directory.all_requested_symbols_discovered ↔
    normalized requested ⊆ market.found requested

-- Every query of a store answers from its market.
structure BookStore.Answers (store : BookStore) (requested : List Symbol) (market : Market) :
    Prop where
  symbol_directory : store.symbol_directory.Answers requested market
  has_book : ∀ stock_locate,
    store.has_book stock_locate ↔ stock_locate ∈ market.selected requested
  book_count : store.book_count = (market.selected requested).ncard
  book : ∀ stock_locate book, store.book stock_locate = some book →
    book.Answers stock_locate (market.ledgers stock_locate)
  unselected : ∀ stock_locate, stock_locate ∉ market.selected requested →
    market.ledgers stock_locate = ∅
  canonical_snapshot : ∀ order, ∃ snapshot, store.canonical_snapshot order = .ok snapshot ∧
    snapshot.books.Pairwise (fun a b => compare a.symbol b.symbol = .lt) ∧
    (∀ entry ∈ snapshot.books, ∃ stock_locate ∈ market.selected requested,
      market.names[stock_locate]? = some entry.symbol ∧
        entry.book.Shows stock_locate (market.ledgers stock_locate)) ∧
    ∀ stock_locate ∈ market.selected requested, ∃ entry ∈ snapshot.books,
      market.names[stock_locate]? = some entry.symbol ∧
        entry.book.Shows stock_locate (market.ledgers stock_locate)

namespace BookStore

variable {requested : List Symbol}

section Answers

variable {store : BookStore} (h : Requested requested store)

include h

theorem mem_selected_iff (stock_locate : StockLocate) :
    stock_locate ∈ store.market.selected requested ↔
      store.symbol_directory.is_selected stock_locate :=
  selects_iff h stock_locate

theorem wanted_iff (name : Symbol) : name ∈ normalized requested ↔
    ∃ discovered, store.symbol_directory.requested_symbols[name]? = some discovered := by
  rw [← h.requests, SymbolDirectory.requests_iff]

theorem wantedHolder_of_none {name : Symbol}
    (hfree : store.symbol_directory.requested_symbols[name]? = none) :
    store.market.wantedHolder requested name = none := by
  refine if_neg ?_
  rw [wanted_iff h, hfree]
  nofun

theorem wantedHolder_of_some {name : Symbol} {discovered : Option StockLocate}
    (hrequested : store.symbol_directory.requested_symbols[name]? = some discovered) :
    store.market.wantedHolder requested name = discovered := by
  rw [Market.wantedHolder, if_pos ((wanted_iff h name).mpr ⟨_, hrequested⟩),
    holder_eq h hrequested]

-- A requested name is found when it is discovered.
theorem mem_found_iff (name : Symbol) :
    name ∈ store.market.found requested ↔ ∃ discovered,
      store.symbol_directory.requested_symbols[name]? = some discovered ∧ discovered.isSome := by
  unfold Market.found
  rw [Set.mem_ofPred_eq, wanted_iff h]
  constructor
  · rintro ⟨⟨discovered, hrequested⟩, stock_locate, hname⟩
    have hdiscovered := (h.invariant.directory name discovered hrequested stock_locate).mp hname
    exact ⟨discovered, hrequested, Option.isSome_iff_exists.mpr ⟨_, hdiscovered⟩⟩
  · rintro ⟨discovered, hrequested, hsome⟩
    obtain ⟨stock_locate, hdiscovered⟩ := Option.isSome_iff_exists.mp hsome
    have hname := (h.invariant.directory name discovered hrequested stock_locate).mpr hdiscovered
    exact ⟨⟨discovered, hrequested⟩, stock_locate, hname⟩

theorem directory_answers (haccurate : store.symbol_directory.Accurate) :
    store.symbol_directory.Answers requested store.market where
  known_locate_count := rfl
  requested_symbol_count := by
    refine FiniteMap.size_eq_ncard _ fun name => ?_
    rw [wanted_iff h, FiniteMap.mem_iff_getElem?]
  discovered_requested_symbol_count := by
    rw [haccurate.count]
    exact FiniteMap.countP_eq_ncard Option.isSome _ fun name => (mem_found_iff h name).symm
  symbol_for _ := rfl
  is_known _ := ExtTreeMap.contains_iff_mem
  is_selected stock_locate := (mem_selected_iff h stock_locate).symm
  discovered_locate text := by
    unfold SymbolDirectory.discovered_locate
    cases normalize_requested_symbol text with
    | error error => rfl
    | ok name =>
      dsimp only [Except.map]
      cases hrequested : store.symbol_directory.requested_symbols[name]? with
      | none => rw [wantedHolder_of_none h hrequested]
      | some discovered => rw [wantedHolder_of_some h hrequested]
  requested_symbol_discovered text := by
    unfold SymbolDirectory.requested_symbol_discovered
    cases normalize_requested_symbol text with
    | error error => rfl
    | ok name =>
      dsimp only [Except.map]
      cases hrequested : store.symbol_directory.requested_symbols[name]? with
      | none => rw [wantedHolder_of_none h hrequested, Option.isSome_none]
      | some discovered => rw [wantedHolder_of_some h hrequested]
  all_requested_symbols_discovered := by
    rw [haccurate.all_discovered_iff]
    constructor
    · intro hall name hwanted
      obtain ⟨discovered, hrequested⟩ := (wanted_iff h name).mp hwanted
      obtain ⟨stock_locate, hdiscovered⟩ := hall name discovered hrequested
      exact (mem_found_iff h name).mpr ⟨discovered, hrequested, hdiscovered ▸ rfl⟩
    · intro hall name discovered hrequested
      have hfound := hall ((wanted_iff h name).mpr ⟨discovered, hrequested⟩)
      obtain ⟨other, hother, hsome⟩ := (mem_found_iff h name).mp hfound
      rw [hrequested, Option.some.injEq] at hother
      exact Option.isSome_iff_exists.mp (hother ▸ hsome)

-- The snapshot has one entry for each selected locate and no other.
theorem canonical_shows {entry : CanonicalBook} {stock_locate : StockLocate} {book : OrderBook}
    (howned : store.books_by_locate[stock_locate]? = some book)
    (hentry : entry = store.canonicalEntry (stock_locate, book)) :
    stock_locate ∈ store.market.selected requested ∧
      store.market.names[stock_locate]? = some entry.symbol ∧
        entry.book.Shows stock_locate (store.market.ledgers stock_locate) := by
  obtain ⟨symbol, hsymbol, hrequested⟩ := h.invariant.symbol_of_owned howned
  obtain ⟨hbook, hlocate⟩ := h.invariant.books stock_locate book howned
  have hledger : store.market.ledgers stock_locate = book.view := by
    simp only [market, howned, Option.map_some, Option.getD_some]
  have hname : entry.symbol = symbol := by
    rw [hentry, canonicalEntry, hsymbol, Option.getD_some]
  refine ⟨⟨symbol, hsymbol, (h.requests symbol).mp hrequested⟩, hname ▸ hsymbol, ?_⟩
  have hshows := hbook.shows (Visit.ascending book.active_orders)
  rw [hlocate] at hshows
  rw [hledger, hentry]
  exact hshows

theorem Requested.answers (haccurate : store.symbol_directory.Accurate) :
    store.Answers requested store.market where
  symbol_directory := directory_answers h haccurate
  has_book stock_locate := by
    rw [mem_selected_iff h]
    exact h.invariant.owned stock_locate
  book_count := by
    refine FiniteMap.size_eq_ncard _ fun stock_locate => ?_
    rw [mem_selected_iff h, ← h.invariant.owned, ExtTreeMap.contains_iff_mem]
  book stock_locate book howned := by
    obtain ⟨hbook, hlocate⟩ := h.invariant.books stock_locate book howned
    have hledger : store.market.ledgers stock_locate = book.view := by
      rw [BookStore.book] at howned
      simp only [market, howned, Option.map_some, Option.getD_some]
    rw [hledger, ← hlocate]
    exact hbook.answers
  unselected stock_locate hunselected := by
    rw [mem_selected_iff h, ← h.invariant.owned, FiniteMap.not_contains_iff] at hunselected
    simp only [market, hunselected, Option.map_none, Option.getD_none]
  canonical_snapshot order := by
    refine ⟨_, h.invariant.canonical_snapshot_ok order, h.invariant.canonical_strict, ?_, ?_⟩
    · intro entry hentry
      obtain ⟨stock_locate, book, howned, heq⟩ := (mem_canonical entry).mp hentry
      exact ⟨stock_locate, canonical_shows h howned heq⟩
    · intro stock_locate hselected
      rw [mem_selected_iff h] at hselected
      obtain ⟨book, howned⟩ := h.invariant.book_of_selected hselected
      obtain ⟨-, hname, hshows⟩ := canonical_shows h howned rfl
      exact ⟨_, (mem_canonical _).mpr ⟨stock_locate, book, howned, rfl⟩, hname, hshows⟩

end Answers

-- What a store answers after any messages is what their market says.
theorem run_answers {capacity : UInt64} {start : BookStore}
    (hcreate : create requested capacity = .ok start) (messages : List StoreMessage) :
    (Machine.run BookStore.apply start messages).Answers requested
      (Machine.run (Market.step requested) Market.empty messages) := by
  have hrequested : Requested requested (Machine.run BookStore.apply start messages) :=
    Machine.run_invariant BookStore.apply (Requested requested) (fun _ message h => h.apply message)
      start (create_requested hcreate) messages
  have haccurate := ((Reachable.created hcreate).run messages).accurate
  have hanswers := hrequested.answers haccurate
  rwa [run_market hcreate] at hanswers

theorem sampleStart_answers :
    (Machine.run BookStore.apply sampleStart sampleRefusals).Answers [['z'.toUInt8, ' '.toUInt8]]
      (Machine.run (Market.step [['z'.toUInt8, ' '.toUInt8]]) Market.empty sampleRefusals) :=
  run_answers sampleStart_created sampleRefusals

end BookStore

end AegisFeed
