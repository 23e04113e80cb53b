import AegisFeed.Book.BookStore.Locality
import AegisFeed.Book.BookStore.Theorems
import AegisFeed.Book.OrderBook.Responses
import AegisFeed.Book.SymbolDirectory.Discovery

namespace AegisFeed

open Std
open ShortCircuit (fault)
open SymbolDirectory (normalized)

-- What a store is for: names by locate, and a ledger of orders for each locate. A
-- ledger is there from the start; only a requested name opens it.
structure Market where
  names : ExtTreeMap StockLocate Symbol compare
  ledgers : StockLocate → OrderLedger

namespace Market

def empty : Market :=
  { names := ∅, ledgers := fun _ => ∅ }

-- The locate that has a name.
def holder (market : Market) (symbol : Symbol) : Option StockLocate :=
  (market.names.toList.find? fun entry => entry.2 = symbol).map Prod.fst

variable (requested : List Symbol)

-- A locate keeps its name. A requested name keeps its locate.
def listingFaults (market : Market) (stock_locate : StockLocate) (symbol : Symbol) :
    List Error :=
  match market.names[stock_locate]? with
  | some existing => fault (existing ≠ symbol) (Error.conflicting_stock_locate stock_locate)
  | none =>
    match market.holder symbol with
    | none => []
    | some discovered =>
      fault (symbol ∈ normalized requested)
        (Error.conflicting_selected_symbol_locate discovered stock_locate)

def list (market : Market) (message : StockDirectory) : Result Unit × Market :=
  match normalize_feed_symbol message.stock with
  | .error error => (.error error, market)
  | .ok symbol =>
    match market.listingFaults requested message.header.stock_locate symbol with
    | error :: _ => (.error error, market)
    | [] => (.ok (), { market with
        names := market.names.insert message.header.stock_locate symbol })

def Selects (market : Market) (stock_locate : StockLocate) : Prop :=
  ∃ symbol, market.names[stock_locate]? = some symbol ∧ symbol ∈ normalized requested

def route (market : Market) (event : OrderEvent) : Result BookRouteStatus × Market :=
  match market.names[event.stock_locate]? with
  | none => (.error (Error.unknown_stock_locate event.stock_locate), market)
  | some symbol =>
    if symbol ∈ normalized requested then
      match OrderLedger.step event.stock_locate (market.ledgers event.stock_locate) event with
      | (.error error, _) => (.error error, market)
      | (.ok (), ledger) => (.ok .Applied, { market with
          ledgers := Function.update market.ledgers event.stock_locate ledger })
    else (.ok .KnownUnselected, market)

def step (market : Market) : StoreMessage → StoreResponse × Market
  | .directory message =>
    (.observed (market.list requested message).1, (market.list requested message).2)
  | .order event =>
    (.routed (market.route requested event).1, (market.route requested event).2)

end Market

namespace BookStore

def market (store : BookStore) : Market :=
  { names := store.symbol_directory.symbols_by_locate,
    ledgers := fun stock_locate =>
      (store.books_by_locate[stock_locate]?.map OrderBook.view).getD ∅ }

-- A store that was created for the requests.
structure Requested (requested : List Symbol) (store : BookStore) : Prop where
  invariant : store.Invariant
  requests : ∀ symbol, store.symbol_directory.Requests symbol ↔ symbol ∈ normalized requested

variable {requested : List Symbol} {store : BookStore}

theorem create_requested {capacity : UInt64} (hcreate : create requested capacity = .ok store) :
    Requested requested store := by
  obtain ⟨hdirectory, -⟩ := create_directory hcreate
  exact ⟨create_invariant hcreate, (SymbolDirectory.create_created hdirectory).requests_iff⟩

theorem create_market {capacity : UInt64} (hcreate : create requested capacity = .ok store) :
    store.market = Market.empty := by
  obtain ⟨hdirectory, hbooks⟩ := create_directory hcreate
  unfold market Market.empty
  rw [(SymbolDirectory.create_created hdirectory).symbols, hbooks]
  simp

theorem selects_iff (h : Requested requested store) (stock_locate : StockLocate) :
    store.market.Selects requested stock_locate ↔
      store.symbol_directory.is_selected stock_locate := by
  rw [SymbolDirectory.is_selected_iff]
  simp only [Market.Selects, ← h.requests]
  rfl

section Directory

variable (h : Requested requested store)

-- A new book has the ledger that its locate had before.
theorem ledgers_opened (books : ExtTreeMap StockLocate OrderBook compare)
    (stock_locate : StockLocate) (capacity : UInt64) :
    (fun other : StockLocate => ((books.insertIfNew stock_locate
      (OrderBook.new stock_locate capacity))[other]?.map OrderBook.view).getD ∅) =
      fun other : StockLocate => (books[other]?.map OrderBook.view).getD ∅ := by
  funext other
  rw [FiniteMap.getElem?_insertIfNew]
  split_ifs with hnew
  · obtain ⟨rfl, hnone⟩ := hnew
    rw [hnone, Option.map_some, OrderBook.view_new]
    rfl
  · rfl

theorem observe_market (store : BookStore) (message : StockDirectory) :
    (store.observe message).2.market = { store.market with
      names := (store.symbol_directory.observe message).2.symbols_by_locate } := by
  unfold observe
  rcases store.symbol_directory.observe message with ⟨result, directory⟩
  cases result with
  | error error => rfl
  | ok =>
    dsimp only
    by_cases hselected : directory.is_selected message.header.stock_locate
    · rw [if_pos hselected]
      unfold market
      rw [ledgers_opened]
    · rw [if_neg hselected]
      rfl

include h

theorem holder_eq {symbol : Symbol} {discovered : Option StockLocate}
    (hrequested : store.symbol_directory.requested_symbols[symbol]? = some discovered) :
    store.market.holder symbol = discovered := by
  have hmapped := h.invariant.directory symbol discovered hrequested
  unfold Market.holder
  cases hfind : store.market.names.toList.find? fun entry => entry.2 = symbol with
  | none =>
    cases discovered with
    | none => rfl
    | some stock_locate =>
      have hentry := (hmapped stock_locate).mpr rfl
      have hmem := ExtTreeMap.mem_toList_iff_getElem?_eq_some.mpr hentry
      exact absurd (decide_eq_true rfl) (List.find?_eq_none.mp hfind _ hmem)
  | some entry =>
    have hsymbol : entry.2 = symbol := by simpa using List.find?_some hfind
    have hmem := ExtTreeMap.mem_toList_iff_getElem?_eq_some.mp (List.mem_of_find?_eq_some hfind)
    rw [hsymbol] at hmem
    exact ((hmapped entry.1).mp hmem).symm

theorem list_eq (message : StockDirectory) :
    store.market.list requested message =
      ((store.symbol_directory.observe message).1, { store.market with
        names := (store.symbol_directory.observe message).2.symbols_by_locate }) := by
  unfold Market.list SymbolDirectory.observe
  cases normalize_feed_symbol message.stock with
  | error error => rfl
  | ok symbol =>
    dsimp only
    cases hknown : store.symbol_directory.symbols_by_locate[message.header.stock_locate]? with
    | some existing =>
      have hnamed : store.market.names[message.header.stock_locate]? = some existing := hknown
      simp only [Market.listingFaults, hnamed, fault]
      by_cases hsame : existing = symbol
      · rw [if_neg (not_not.mpr hsame), if_pos hsame, ← hsame]
        simp only [FiniteMap.insert_of_getElem? _ _ _ hnamed]
        rfl
      · rw [if_pos hsame, if_neg hsame]
        rfl
    | none =>
      have hnamed : store.market.names[message.header.stock_locate]? = none := hknown
      simp only [Market.listingFaults, hnamed, FiniteMap.insertIfNew_of_none _ _ _ hknown]
      cases hrequested : store.symbol_directory.requested_symbols[symbol]? with
      | none =>
        -- a name that is not requested may have more than one locate
        have hfree : symbol ∉ normalized requested := by
          rw [← h.requests, SymbolDirectory.requests_iff, hrequested]
          rintro ⟨_, hfound⟩
          cases hfound
        simp only [fault, if_neg hfree]
        cases store.market.holder symbol with
        | none => rfl
        | some discovered => rfl
      | some discovered =>
        rw [holder_eq h hrequested]
        cases discovered with
        | none => rfl
        | some discovered =>
          have hwanted : symbol ∈ normalized requested := by
            rw [← h.requests, SymbolDirectory.requests_iff]
            exact ⟨_, hrequested⟩
          have hother : discovered ≠ message.header.stock_locate := by
            rintro rfl
            have hmapped := (h.invariant.directory symbol _ hrequested _).mpr rfl
            rw [hknown] at hmapped
            cases hmapped
          simp only [fault, if_pos hwanted, if_pos hother]
          rfl

theorem observe_step (message : StockDirectory) :
    store.market.list requested message =
      ((store.observe message).1, (store.observe message).2.market) := by
  rw [list_eq h, observe_result, observe_market]

end Directory

section Order

variable (h : Requested requested store) (event : OrderEvent)

theorem market_insert (store : BookStore) (stock_locate : StockLocate) (book : OrderBook) :
    market { store with
        books_by_locate := store.books_by_locate.insert stock_locate book } =
      { store.market with
        ledgers := Function.update store.market.ledgers stock_locate book.view } := by
  simp only [market, Market.mk.injEq, true_and]
  funext other
  rw [FiniteMap.getElem?_insert, Function.update_apply]
  by_cases heq : stock_locate = other
  · rw [if_pos heq, if_pos heq.symm, Option.map_some, Option.getD_some]
  · rw [if_neg heq, if_neg (Ne.symm heq)]

include h

theorem route_step :
    store.market.route requested event =
      ((store.apply_event event).1, (store.apply_event event).2.market) := by
  unfold Market.route
  cases hname : store.market.names[event.stock_locate]? with
  | none =>
    have hunknown : ¬store.symbol_directory.is_known event.stock_locate :=
      (FiniteMap.not_contains_iff _ _).mpr hname
    rw [apply_event_eq]
    simp only [route, resolve_book, if_pos hunknown]
  | some symbol =>
    have hknown : ¬¬store.symbol_directory.is_known event.stock_locate := by
      rw [not_not, SymbolDirectory.is_known_iff]
      exact ⟨symbol, hname⟩
    have hselected : store.symbol_directory.is_selected event.stock_locate ↔
        symbol ∈ normalized requested := by
      rw [← selects_iff h, Market.Selects, hname]
      simp
    dsimp only
    by_cases hwanted : symbol ∈ normalized requested
    · obtain ⟨book, howned⟩ := h.invariant.book_of_selected (hselected.mpr hwanted)
      obtain ⟨hbook, hlocate⟩ := h.invariant.books _ book howned
      have hledger : store.market.ledgers event.stock_locate = book.view := by
        simp only [market, howned, Option.map_some, Option.getD_some]
      have hstep := OrderBook.apply_step hbook event
      rw [if_pos hwanted, hledger, ← hlocate, hstep]
      cases hresult : (book.apply event).1 with
      | error error => rw [h.invariant.apply_event_error howned hresult]
      | ok =>
        rw [h.invariant.apply_event_ok howned hresult, hlocate]
        exact congrArg (Prod.mk _) (market_insert store event.stock_locate _).symm
    · rw [if_neg hwanted, apply_event_eq]
      simp only [route, resolve_book, if_neg hknown, if_pos (mt hselected.mp hwanted)]

end Order

theorem apply_step (h : Requested requested store) (message : StoreMessage) :
    store.market.step requested message =
      ((store.apply message).1, (store.apply message).2.market) := by
  cases message with
  | directory message =>
    rw [Market.step, observe_step h]
    rfl
  | order event =>
    rw [Market.step, route_step h]
    rfl

theorem Requested.apply (h : Requested requested store) (message : StoreMessage) :
    Requested requested (store.apply message).2 := by
  refine ⟨h.invariant.apply message, fun symbol => ?_⟩
  rw [← h.requests symbol]
  cases message with
  | directory message =>
    show (store.observe message).2.symbol_directory.Requests symbol ↔ _
    rw [observe_directory]
    exact SymbolDirectory.observe_requests _ message symbol
  | order event =>
    show (store.apply_event event).2.symbol_directory.Requests symbol ↔ _
    rw [apply_event_directory]

section Run

variable {capacity : UInt64} {start : BookStore}
  (hcreate : create requested capacity = .ok start) (messages : List StoreMessage)

include hcreate

theorem run_market : (Machine.run BookStore.apply start messages).market =
    Machine.run (Market.step requested) Market.empty messages := by
  rw [← create_market hcreate]
  exact (Machine.run_simulation BookStore.apply (Market.step requested) market id
    (Requested requested) (fun _ message h => h.apply message)
    (fun _ message h => apply_step h message) (create_requested hcreate) messages).symm

-- From creation, a store returns what its market returns, for every message of every
-- sequence, with the errors of the directory, of the routing and of the books.
theorem transcript_eq_market :
    Machine.transcript BookStore.apply start messages =
        Machine.transcript (Market.step requested) Market.empty messages ∧
      (Machine.run BookStore.apply start messages).market =
        Machine.run (Market.step requested) Market.empty messages := by
  refine ⟨?_, run_market hcreate messages⟩
  rw [← create_market hcreate, Machine.transcript_simulation BookStore.apply
    (Market.step requested) market id (Requested requested) (fun _ message h => h.apply message)
    (fun _ message h => apply_step h message) (create_requested hcreate) messages]
  exact (List.map_id _).symm

end Run

-- A cancellation of more shares than remain, between two orders of one reference.
def sampleRefusals : List StoreMessage :=
  [.directory sampleListing, .order (.add (sampleAdd 7 60)), .order (.cancel (sampleCancel 80)),
    .order (.add (sampleAdd 7 60)), .order (.add (sampleAdd 8 60))]

theorem sampleStart_market :
    (Machine.transcript BookStore.apply sampleStart sampleRefusals).map Prod.snd =
        [.observed (.ok ()), .routed (.ok .Applied), .routed (.error (Error.over_cancel 80 60)),
          .routed (.error (Error.duplicate_order_reference 1)),
          .routed (.error (Error.unknown_stock_locate 8))] ∧
      Machine.transcript BookStore.apply sampleStart sampleRefusals =
        Machine.transcript (Market.step [['z'.toUInt8, ' '.toUInt8]]) Market.empty
          sampleRefusals :=
  ⟨by decide, (transcript_eq_market sampleStart_created sampleRefusals).1⟩

end BookStore

end AegisFeed
