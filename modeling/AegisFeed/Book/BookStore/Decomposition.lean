import AegisFeed.Book.BookStore.Market

namespace AegisFeed

open Std
open Machine (heard)
open SymbolDirectory (normalized)

def StoreMessage.event_at (stock_locate : StockLocate) : StoreMessage → Option OrderEvent
  | .directory _ => none
  | .order event => if event.stock_locate = stock_locate then some event else none

theorem StoreMessage.event_at_eq_some {stock_locate : StockLocate} {message : StoreMessage}
    {event : OrderEvent} (h : message.event_at stock_locate = some event) :
    message = .order event ∧ event.stock_locate = stock_locate := by
  cases message with
  | directory message => cases h
  | order other =>
    simp only [event_at, Option.ite_none_right_eq_some, Option.some.injEq] at h
    obtain ⟨hlocate, rfl⟩ := h
    exact ⟨rfl, hlocate⟩

namespace BookStore

-- What a store answers to the order events of a locate.
def answers (stock_locate : StockLocate) (store : BookStore) (messages : List StoreMessage) :
    List (OrderEvent × StoreResponse) :=
  heard (StoreMessage.event_at stock_locate) (Machine.transcript BookStore.apply store messages)

-- What a store keeps for a listed locate, on its own: a book, or none for a name that was
-- not requested.
def desk : Option OrderBook → OrderEvent → Result BookRouteStatus × Option OrderBook
  | none, _ => (.ok .KnownUnselected, none)
  | some book, event => ((book.apply event).1.map fun _ => .Applied, some (book.apply event).2)

structure ListedAs (stock_locate : StockLocate) (symbol : Symbol) (store : BookStore) : Prop where
  invariant : store.Invariant
  name : store.symbol_directory.symbol_for stock_locate = some symbol

variable {store : BookStore} {stock_locate : StockLocate} {symbol : Symbol}

section Listed

variable (h : ListedAs stock_locate symbol store)

include h

theorem ListedAs.known : store.symbol_directory.is_known stock_locate :=
  (SymbolDirectory.is_known_iff _ _).mpr ⟨symbol, h.name⟩

-- A locate keeps its name.
theorem ListedAs.apply (message : StoreMessage) :
    ListedAs stock_locate symbol (store.apply message).2 := by
  refine ⟨h.invariant.apply message, ?_⟩
  cases message with
  | directory message =>
    show (store.observe message).2.symbol_directory.symbol_for stock_locate = some symbol
    rw [observe_directory]
    exact (store.symbol_directory.observe_spec message).symbol_for_mono h.name
  | order event =>
    show (store.apply_event event).2.symbol_directory.symbol_for stock_locate = some symbol
    rw [apply_event_directory]
    exact h.name

-- A directory message opens no book at a locate that is listed.
theorem ListedAs.observe_book (message : StockDirectory) :
    (store.observe message).2.books_by_locate[stock_locate]? =
      store.books_by_locate[stock_locate]? := by
  by_cases hlocate : stock_locate = message.header.stock_locate
  swap
  · exact store.observe_book_of_ne message hlocate
  subst hlocate
  have hspec := observe_spec store message
  generalize store.observe message = outcome at hspec ⊢
  cases hspec with
  | rejected _ => rfl
  | unselected _ _ _ => rfl
  | selected directory observed selected =>
    have hname := h.name
    cases observed with
    | repeated _ _ =>
      obtain ⟨book, howned⟩ := h.invariant.book_of_selected selected
      rw [FiniteMap.insertIfNew_of_some _ _ _ howned]
    | mapped _ unknown _ => cases unknown.symm.trans hname
    | discovered _ unknown _ => cases unknown.symm.trans hname

theorem ListedAs.idle (message : StoreMessage) (hmessage : message.event_at stock_locate = none) :
    (store.apply message).2.books_by_locate[stock_locate]? =
      store.books_by_locate[stock_locate]? := by
  cases message with
  | directory message => exact h.observe_book message
  | order event =>
    have hne : event.stock_locate ≠ stock_locate := by
      intro hlocate
      rw [StoreMessage.event_at, if_pos hlocate] at hmessage
      cases hmessage
    exact store.apply_event_book_of_ne event hne.symm

theorem ListedAs.moves {message : StoreMessage} {event : OrderEvent}
    (hmessage : message.event_at stock_locate = some event) :
    (store.apply message).1 =
        .routed (desk store.books_by_locate[stock_locate]? event).1 ∧
      (store.apply message).2.books_by_locate[stock_locate]? =
        (desk store.books_by_locate[stock_locate]? event).2 := by
  obtain ⟨rfl, rfl⟩ := StoreMessage.event_at_eq_some hmessage
  have hrouted := h.invariant.routed event
  show StoreResponse.routed (store.apply_event event).1 = _ ∧
    (store.apply_event event).2.books_by_locate[event.stock_locate]? = _
  generalize store.apply_event event = outcome at hrouted ⊢
  cases hrouted with
  | unknown unknown => exact absurd h.known unknown
  | unselected unselected =>
    have hnone : store.books_by_locate[event.stock_locate]? = none := by
      rw [← FiniteMap.not_contains_iff, h.invariant.owned]
      exact unselected
    rw [hnone]
    exact ⟨rfl, rfl⟩
  | rejected book error owned result =>
    have hsame := OrderBook.apply_error_unchanged (h.invariant.books _ book owned).1 event result
    rw [owned]
    simp only [desk, result, hsame]
    exact ⟨rfl, trivial⟩
  | applied book owned result =>
    rw [owned]
    simp only [desk, result, ExtTreeMap.getElem?_insert_self]
    exact ⟨rfl, trivial⟩

-- From its listing on, a locate is a desk of its own.
theorem ListedAs.run (messages : List StoreMessage) :
    let events := messages.filterMap (StoreMessage.event_at stock_locate)
    (Machine.run BookStore.apply store messages).books_by_locate[stock_locate]? =
        Machine.run desk store.books_by_locate[stock_locate]? events ∧
      answers stock_locate store messages =
        (Machine.transcript desk store.books_by_locate[stock_locate]? events).map
          fun entry => (entry.1, .routed entry.2) :=
  @Machine.run_part _ _ _ _ _ _ BookStore.apply desk (ListedAs stock_locate symbol)
    (fun store => store.books_by_locate[stock_locate]?) _ StoreResponse.routed
    (fun _ message hlisted => ListedAs.apply hlisted message)
    (fun _ message hlisted => ListedAs.idle hlisted message)
    (fun _ _ _ hlisted => ListedAs.moves hlisted) store h messages

end Listed

section Desk

variable (events : List OrderEvent)

theorem run_desk_some (book : OrderBook) :
    Machine.run desk (some book) events = some (Machine.run OrderBook.apply book events) ∧
      Machine.transcript desk (some book) events =
        (Machine.transcript OrderBook.apply book events).map
          fun entry => (entry.1, entry.2.map fun _ => .Applied) :=
  ⟨Machine.run_simulation OrderBook.apply desk some _ (fun _ => True) (fun _ _ _ => trivial)
      (fun _ _ _ => rfl) trivial events,
    Machine.transcript_simulation OrderBook.apply desk some _ (fun _ => True)
      (fun _ _ _ => trivial) (fun _ _ _ => rfl) trivial events⟩

theorem run_desk_none : Machine.run desk none events = none ∧
    ∀ entry ∈ Machine.transcript desk none events, entry.2 = .ok .KnownUnselected := by
  induction events with
  | nil => exact ⟨rfl, List.forall_mem_nil _⟩
  | cons event rest ih => exact ⟨ih.1, List.forall_mem_cons.mpr ⟨rfl, ih.2⟩⟩

end Desk

section Unlisted

-- All that a store answers for a locate that is not listed.
def Unknown (stock_locate : StockLocate) (entries : List (OrderEvent × StoreResponse)) : Prop :=
  ∀ entry ∈ entries, entry.2 = .routed (.error (Error.unknown_stock_locate stock_locate))

variable (hunlisted : store.symbol_directory.symbol_for stock_locate = none)

include hunlisted

theorem unlisted_event {event : OrderEvent} (hevent : event.stock_locate = stock_locate) :
    store.apply_event event = (.error (Error.unknown_stock_locate stock_locate), store) := by
  subst hevent
  have hunknown : ¬store.symbol_directory.is_known event.stock_locate :=
    (FiniteMap.not_contains_iff _ _).mpr hunlisted
  rw [apply_event_eq]
  simp only [route, resolve_book, if_pos hunknown]

-- A message that does not list a locate leaves it unlisted.
theorem apply_unlisted (message : StoreMessage)
    (hmessage : ∀ listing, message = .directory listing →
      listing.header.stock_locate = stock_locate → (store.observe listing).1 ≠ .ok ()) :
    (store.apply message).2.symbol_directory.symbol_for stock_locate = none := by
  cases message with
  | order event =>
    show (store.apply_event event).2.symbol_directory.symbol_for stock_locate = none
    rw [apply_event_directory]
    exact hunlisted
  | directory listing =>
    show (store.observe listing).2.symbol_directory.symbol_for stock_locate = none
    have hspec := store.symbol_directory.observe_spec listing
    by_cases hlocate : listing.header.stock_locate = stock_locate
    · have hfailed := hmessage listing rfl hlocate
      rw [observe_result] at hfailed
      rw [observe_directory, SymbolDirectory.observe_error_unchanged hfailed]
      exact hunlisted
    · rw [observe_directory, hspec.symbol_for_of_ne (Ne.symm hlocate)]
      exact hunlisted

-- The messages up to the one that lists a locate, if there is one.
theorem run_unlisted_or (messages : List StoreMessage) :
    ((Machine.run BookStore.apply store messages).symbol_directory.symbol_for stock_locate =
        none ∧ Unknown stock_locate (answers stock_locate store messages)) ∨
    ∃ before listing after, messages = before ++ .directory listing :: after ∧
      listing.header.stock_locate = stock_locate ∧
      Unknown stock_locate (answers stock_locate store before) ∧
      (Machine.run BookStore.apply store before).symbol_directory.symbol_for stock_locate =
        none ∧
      ((Machine.run BookStore.apply store before).observe listing).1 = .ok () := by
  induction messages generalizing store with
  | nil => exact .inl ⟨hunlisted, List.forall_mem_nil _⟩
  | cons message rest ih =>
    by_cases hlists : ∃ listing, message = .directory listing ∧
        listing.header.stock_locate = stock_locate ∧ (store.observe listing).1 = .ok ()
    · obtain ⟨listing, rfl, hlocate, hok⟩ := hlists
      exact .inr ⟨[], listing, rest, rfl, hlocate, List.forall_mem_nil _, hunlisted, hok⟩
    · have hnext := apply_unlisted hunlisted message fun listing hmessage hlocate hok =>
        hlists ⟨listing, hmessage, hlocate, hok⟩
      have hanswers : ∀ messages, Unknown stock_locate
          (answers stock_locate (store.apply message).2 messages) →
          Unknown stock_locate (answers stock_locate store (message :: messages)) := by
        intro messages hunknown
        unfold answers
        rw [Machine.transcript_cons]
        cases hmessage : message.event_at stock_locate with
        | none =>
          rw [Machine.heard_cons_of_none _ _ hmessage]
          exact hunknown
        | some event =>
          obtain ⟨rfl, hlocate⟩ := StoreMessage.event_at_eq_some hmessage
          rw [Machine.heard_cons_of_some _ _ hmessage]
          refine List.forall_mem_cons.mpr ⟨?_, hunknown⟩
          show StoreResponse.routed (store.apply_event event).1 = _
          rw [unlisted_event hunlisted hlocate]
      rcases ih hnext with ⟨hfinal, hunknown⟩ | ⟨before, listing, after, rfl, hlocate, hunknown,
        hbefore, hok⟩
      · exact .inl ⟨hfinal, hanswers _ hunknown⟩
      · exact .inr ⟨message :: before, listing, after, rfl, hlocate, hanswers _ hunknown,
          hbefore, hok⟩

end Unlisted

section Listing

variable {requested : List Symbol} {listing : StockDirectory}

theorem listing_named {directory : SymbolDirectory}
    (hok : (directory.observe listing).1 = .ok ()) :
    ∃ symbol, normalize_feed_symbol listing.stock = .ok symbol ∧
      (directory.observe listing).2.symbol_for listing.header.stock_locate = some symbol := by
  cases hname : normalize_feed_symbol listing.stock with
  | error error =>
    unfold SymbolDirectory.observe at hok
    rw [hname] at hok
    cases hok
  | ok symbol =>
    obtain ⟨-, rfl⟩ := (normalize_feed_symbol_ok_iff _ _).mp hname
    have hregistry := SymbolDirectory.observe_registry hok
    refine ⟨_, rfl, SymbolDirectory.mem_registry.mp ?_⟩
    rw [hregistry]
    exact Set.mem_insert _ _

variable (h : Requested requested store)
  (hunlisted : store.symbol_directory.symbol_for listing.header.stock_locate = none)
  (hok : (store.observe listing).1 = .ok ())

include h hunlisted hok

-- The listing names the locate, and opens a book when the name was requested.
theorem listing_opens (capacity : UInt64) :
    ∃ symbol, normalize_feed_symbol listing.stock = .ok symbol ∧
      ListedAs listing.header.stock_locate symbol (store.observe listing).2 ∧
      (store.observe listing).2.books_by_locate[listing.header.stock_locate]? =
        if symbol ∈ normalized requested then
          some (OrderBook.new listing.header.stock_locate capacity)
        else none := by
  have hnext : Requested requested (store.observe listing).2 := h.apply (.directory listing)
  rw [observe_result] at hok
  obtain ⟨symbol, hsymbol, hname⟩ := listing_named hok
  rw [← observe_directory] at hname
  refine ⟨symbol, hsymbol, ⟨hnext.invariant, hname⟩, ?_⟩
  have hselected : (store.observe listing).2.symbol_directory.is_selected
      listing.header.stock_locate ↔ symbol ∈ normalized requested := by
    have hmarket : (store.observe listing).2.market.names[listing.header.stock_locate]? =
        some symbol := hname
    rw [← selects_iff hnext, Market.Selects, hmarket]
    simp
  have hclosed : store.books_by_locate[listing.header.stock_locate]? = none := by
    rw [← FiniteMap.not_contains_iff, h.invariant.owned, SymbolDirectory.is_selected_iff,
      hunlisted]
    rintro ⟨_, hfound, -⟩
    cases hfound
  rw [← observe_result] at hok
  have hspec := observe_spec store listing
  generalize store.observe listing = outcome at hspec hselected hok ⊢
  cases hspec with
  | rejected _ => cases hok
  | unselected _ _ unselected =>
    rw [if_neg (mt hselected.mpr unselected)]
    exact hclosed
  | selected _ _ selected =>
    rw [if_pos (hselected.mp selected), FiniteMap.insertIfNew_of_none _ _ _ hclosed,
      ExtTreeMap.getElem?_insert_self]
    rfl

end Listing

-- A store is a directory and one book for each requested name, on its own. Until the first
-- accepted listing of a locate its events are unknown. From then on the locate keeps its
-- name, and either a new book takes its events in their order, and answers them, or they
-- are those of a name that was not requested.
theorem run_decomposed {requested : List Symbol} {capacity : UInt64} {start : BookStore}
    (hcreate : create requested capacity = .ok start) (messages : List StoreMessage)
    (stock_locate : StockLocate) :
    let store := Machine.run BookStore.apply start messages
    (store.symbol_directory.symbol_for stock_locate = none ∧ store.book stock_locate = none ∧
      Unknown stock_locate (answers stock_locate start messages)) ∨
    ∃ before listing after symbol, messages = before ++ .directory listing :: after ∧
      listing.header.stock_locate = stock_locate ∧
      (Machine.run BookStore.apply start before).symbol_directory.symbol_for stock_locate =
        none ∧
      ((Machine.run BookStore.apply start before).observe listing).1 = .ok () ∧
      normalize_feed_symbol listing.stock = .ok symbol ∧
      store.symbol_directory.symbol_for stock_locate = some symbol ∧
      Unknown stock_locate (answers stock_locate start before) ∧
      let listed := Machine.run BookStore.apply start (before ++ [.directory listing])
      let events := after.filterMap (StoreMessage.event_at stock_locate)
      let opened := OrderBook.new stock_locate capacity
      (symbol ∈ normalized requested →
        store.book stock_locate = some (Machine.run OrderBook.apply opened events) ∧
        answers stock_locate listed after = (Machine.transcript OrderBook.apply opened events).map
          fun entry => (entry.1, .routed (entry.2.map fun _ => .Applied))) ∧
      (symbol ∉ normalized requested → store.book stock_locate = none ∧
        ∀ entry ∈ answers stock_locate listed after, entry.2 = .routed (.ok .KnownUnselected)) := by
  intro store
  have hrequested : ∀ messages, Requested requested (Machine.run BookStore.apply start messages) :=
    Machine.run_invariant BookStore.apply (Requested requested) (fun _ message h => h.apply message)
      start (create_requested hcreate)
  have hstart : start.symbol_directory.symbol_for stock_locate = none := by
    obtain ⟨hdirectory, -⟩ := create_directory hcreate
    rw [SymbolDirectory.symbol_for, (SymbolDirectory.create_created hdirectory).symbols]
    exact ExtTreeMap.getElem?_empty
  rcases run_unlisted_or hstart messages with ⟨hunlisted, hunknown⟩ |
    ⟨before, listing, after, rfl, rfl, hunknown, hunlisted, hok⟩
  · refine .inl ⟨hunlisted, ?_, hunknown⟩
    show store.books_by_locate[stock_locate]? = none
    rw [← FiniteMap.not_contains_iff, (hrequested messages).invariant.owned,
      SymbolDirectory.is_selected_iff, hunlisted]
    rintro ⟨_, hfound, -⟩
    cases hfound
  · right
    obtain ⟨symbol, hsymbol, hlisted, hopened⟩ :=
      listing_opens (hrequested before) hunlisted hok capacity
    have hstore : store = Machine.run BookStore.apply
        ((Machine.run BookStore.apply start before).observe listing).2 after :=
      Machine.run_append BookStore.apply start before (.directory listing :: after)
    have hname := (Machine.run_invariant BookStore.apply
      (ListedAs listing.header.stock_locate symbol) (fun _ message h => h.apply message)
      _ hlisted after).name
    obtain ⟨hbook, hanswers⟩ := hlisted.run after
    rw [← hstore] at hname hbook
    refine ⟨before, listing, after, symbol, rfl, rfl, hunlisted, hok, hsymbol, hname, hunknown,
      ?_⟩
    intro listed events opened
    have hlistedStore : listed = ((Machine.run BookStore.apply start before).observe listing).2 :=
      Machine.run_append BookStore.apply start before [.directory listing]
    rw [hlistedStore, hanswers]
    show (_ → store.books_by_locate[listing.header.stock_locate]? = _ ∧ _) ∧
      (_ → store.books_by_locate[listing.header.stock_locate]? = _ ∧ _)
    rw [hbook, hopened]
    refine ⟨fun hwanted => ?_, fun hunwanted => ?_⟩
    · obtain ⟨hrun, htranscript⟩ := run_desk_some events opened
      rw [if_pos hwanted]
      refine ⟨hrun, ?_⟩
      rw [htranscript, List.map_map]
      rfl
    · obtain ⟨hrun, hall⟩ := run_desk_none events
      rw [if_neg hunwanted]
      refine ⟨hrun, List.forall_mem_map.mpr fun entry hmem => ?_⟩
      exact congrArg StoreResponse.routed (hall entry hmem)

-- The refused events are among those that the book of locate 7 takes.
theorem sampleStart_decomposed : ∃ after : List StoreMessage,
    (Machine.run BookStore.apply sampleStart sampleRefusals).book 7 =
      some (Machine.run OrderBook.apply (OrderBook.new 7 0)
        (after.filterMap (StoreMessage.event_at 7))) := by
  rcases run_decomposed sampleStart_created sampleRefusals 7 with ⟨hunlisted, -⟩ |
    ⟨before, listing, after, symbol, -, -, -, -, -, hname, -, hwanted, -⟩
  · exact absurd hunlisted (by decide)
  · have hsample : (Machine.run BookStore.apply sampleStart
        sampleRefusals).symbol_directory.symbol_for 7 = some ['Z'.toUInt8] := by decide
    obtain rfl : symbol = ['Z'.toUInt8] := Option.some.inj (hname.symm.trans hsample)
    exact ⟨after, (hwanted (by decide)).1⟩

end BookStore

end AegisFeed
