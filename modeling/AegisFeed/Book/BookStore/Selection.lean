import AegisFeed.Book.BookStore.Theorems
import AegisFeed.Book.SymbolDirectory.Discovery

namespace AegisFeed

open Std

namespace BookStore

section Directory

variable (store : BookStore)

-- What the directory of a store does under messages.
theorem apply_requests (message : StoreMessage) (symbol : Symbol) :
    (store.apply message).2.symbol_directory.Requests symbol ↔
      store.symbol_directory.Requests symbol := by
  cases message with
  | directory message =>
    show (store.observe message).2.symbol_directory.Requests symbol ↔ _
    rw [observe_directory, SymbolDirectory.observe_requests]
  | order event =>
    show (store.apply_event event).2.symbol_directory.Requests symbol ↔ _
    rw [apply_event_directory]

theorem apply_symbol_for_mono (message : StoreMessage) {stock_locate : StockLocate}
    {symbol : Symbol} (hknown : store.symbol_directory.symbol_for stock_locate = some symbol) :
    (store.apply message).2.symbol_directory.symbol_for stock_locate = some symbol := by
  cases message with
  | directory message =>
    show (store.observe message).2.symbol_directory.symbol_for stock_locate = _
    rw [observe_directory]
    exact (store.symbol_directory.observe_spec message).symbol_for_mono hknown
  | order event =>
    show (store.apply_event event).2.symbol_directory.symbol_for stock_locate = _
    rw [apply_event_directory]
    exact hknown

theorem run_requests (messages : List StoreMessage) (symbol : Symbol) :
    (Machine.run BookStore.apply store messages).symbol_directory.Requests symbol ↔
      store.symbol_directory.Requests symbol :=
  Machine.run_invariant BookStore.apply
    (fun other => other.symbol_directory.Requests symbol ↔
      store.symbol_directory.Requests symbol)
    (fun other message hsame => (other.apply_requests message symbol).trans hsame) store Iff.rfl
    messages

theorem run_symbol_for_mono (messages : List StoreMessage) {stock_locate : StockLocate}
    {symbol : Symbol} (hknown : store.symbol_directory.symbol_for stock_locate = some symbol) :
    (Machine.run BookStore.apply store messages).symbol_directory.symbol_for stock_locate =
      some symbol :=
  Machine.run_invariant BookStore.apply
    (fun other => other.symbol_directory.symbol_for stock_locate = some symbol)
    (fun other message => other.apply_symbol_for_mono message) store hknown messages

end Directory

section Listed

variable {store : BookStore} {before after : List StoreMessage}

-- All directory messages among the messages are accepted.
def Listed (store : BookStore) (messages : List StoreMessage) : Prop :=
  ∀ entry ∈ Machine.transcript BookStore.apply store messages,
    entry.1.is_directory → entry.2 = .observed (.ok ())

theorem Listed.earlier (hlisted : store.Listed (before ++ after)) : store.Listed before := by
  rintro ⟨message, response⟩ hentry
  obtain ⟨first, second, rfl, hresponse⟩ := (Machine.mem_transcript_iff _ _ _ _ _).mp hentry
  refine hlisted (message, response) ((Machine.mem_transcript_iff _ _ _ _ _).mpr ?_)
  exact ⟨first, second ++ after, by simp, hresponse⟩

theorem Listed.accepted {message : StoreMessage}
    (hlisted : store.Listed (before ++ message :: after)) (hdirectory : message.is_directory) :
    ((Machine.run BookStore.apply store before).apply message).1 = .observed (.ok ()) :=
  hlisted (message, _)
    ((Machine.mem_transcript_iff _ _ _ _ _).mpr ⟨before, after, rfl, rfl⟩) hdirectory

end Listed

-- A store beside one that requests more: the same symbols, and the same books where both
-- select the locate.
structure Narrows (narrow wide : BookStore) : Prop where
  invariant : narrow.Invariant
  wide_invariant : wide.Invariant
  symbols : narrow.symbol_directory.symbols_by_locate = wide.symbol_directory.symbols_by_locate
  requests : ∀ symbol, narrow.symbol_directory.Requests symbol →
    wide.symbol_directory.Requests symbol
  books : ∀ stock_locate, narrow.symbol_directory.is_selected stock_locate →
    narrow.books_by_locate[stock_locate]? = wide.books_by_locate[stock_locate]?

section Narrows

variable {narrow wide : BookStore} (h : Narrows narrow wide)

include h

theorem Narrows.symbol_for (stock_locate : StockLocate) :
    narrow.symbol_directory.symbol_for stock_locate =
      wide.symbol_directory.symbol_for stock_locate := by
  unfold SymbolDirectory.symbol_for
  rw [h.symbols]

theorem Narrows.is_selected {stock_locate : StockLocate}
    (hselected : narrow.symbol_directory.is_selected stock_locate) :
    wide.symbol_directory.is_selected stock_locate :=
  SymbolDirectory.is_selected_widen h.symbols h.requests hselected

theorem Narrows.is_known (stock_locate : StockLocate) :
    narrow.symbol_directory.is_known stock_locate =
      wide.symbol_directory.is_known stock_locate := by
  unfold SymbolDirectory.is_known
  rw [h.symbols]

-- An event cannot tell the stores apart where the narrow one selects.
theorem Narrows.sameAt {stock_locate : StockLocate}
    (hselected : narrow.symbol_directory.is_selected stock_locate) :
    SameAt stock_locate narrow wide :=
  ⟨h.is_known stock_locate, hselected.trans (h.is_selected hselected).symm,
    h.books stock_locate hselected⟩

section Events

variable {event : OrderEvent}

theorem Narrows.event_unknown
    (hunknown : narrow.symbol_directory.symbol_for event.stock_locate = none) :
    (narrow.apply_event event).1 = (wide.apply_event event).1 := by
  have hknown : ¬narrow.symbol_directory.is_known event.stock_locate := by
    rw [SymbolDirectory.is_known_iff, hunknown]
    simp
  have hknown' : ¬wide.symbol_directory.is_known event.stock_locate := by
    rwa [← h.is_known]
  rw [apply_event_eq, apply_event_eq]
  unfold route resolve_book
  rw [if_pos hknown, if_pos hknown']

omit h in
theorem event_unselected {store : BookStore} {symbol : Symbol}
    (hknown : store.symbol_directory.symbol_for event.stock_locate = some symbol)
    (hrequests : ¬store.symbol_directory.Requests symbol) :
    (store.apply_event event).1 = .ok .KnownUnselected := by
  have hselected : ¬store.symbol_directory.is_selected event.stock_locate := by
    rw [SymbolDirectory.is_selected_iff, hknown]
    rintro ⟨_, ⟨⟩, hrequested⟩
    exact hrequests hrequested
  have hknown' : store.symbol_directory.is_known event.stock_locate :=
    (SymbolDirectory.is_known_iff _ _).mpr ⟨symbol, hknown⟩
  rw [apply_event_eq]
  unfold route resolve_book
  rw [if_neg (not_not.mpr hknown'), if_pos hselected]

theorem Narrows.apply_event (event : OrderEvent) :
    Narrows (narrow.apply_event event).2 (wide.apply_event event).2 := by
  refine ⟨(h.invariant.routed event).invariant h.invariant,
    (h.wide_invariant.routed event).invariant h.wide_invariant, ?_, ?_, ?_⟩
  · rw [apply_event_directory, apply_event_directory, h.symbols]
  · rw [apply_event_directory, apply_event_directory]
    exact h.requests
  · intro stock_locate hselected
    rw [apply_event_directory] at hselected
    by_cases heq : stock_locate = event.stock_locate
    · subst heq
      exact (h.sameAt hselected).apply_event.2
    · rw [apply_event_book_of_ne _ _ heq, apply_event_book_of_ne _ _ heq]
      exact h.books stock_locate hselected

end Events

section Listings

variable {message : StockDirectory}

-- What the wide store accepts in a listing, the narrow one does: it has fewer names that
-- may not be listed twice.
theorem Narrows.observe_ok (hok : (wide.observe message).1 = .ok ()) :
    (narrow.observe message).1 = .ok () := by
  rw [observe_result, SymbolDirectory.observe_ok_iff h.wide_invariant.directory] at hok
  rw [observe_result, SymbolDirectory.observe_ok_iff h.invariant.directory]
  have hregistry : narrow.symbol_directory.registry = wide.symbol_directory.registry := by
    unfold SymbolDirectory.registry
    rw [h.symbols]
  rw [hregistry]
  exact ⟨hok.1, hok.2.mono h.requests⟩

omit h in
-- A listing opens an empty book for a locate that becomes selected.
theorem observe_opens {store : BookStore} (hok : (store.observe message).1 = .ok ())
    (hselected : (store.observe message).2.symbol_directory.is_selected
      message.header.stock_locate)
    (hnone : store.books_by_locate[message.header.stock_locate]? = none) :
    (store.observe message).2.books_by_locate[message.header.stock_locate]? =
      some (OrderBook.new message.header.stock_locate 0) := by
  have hobserved := observe_spec store message
  generalize store.observe message = outcome at *
  cases hobserved with
  | rejected _ => cases hok
  | unselected _ _ unselected => exact absurd hselected unselected
  | selected _ _ _ =>
    show (store.books_by_locate.insertIfNew _ _)[_]? = _
    rw [FiniteMap.getElem?_insertIfNew, if_pos ⟨rfl, hnone⟩]
    rfl

-- A locate that the narrow store first selects by a listing had no symbol before it.
theorem Narrows.unselected_before
    (hbefore : ¬narrow.symbol_directory.is_selected message.header.stock_locate)
    (hselected : (narrow.observe message).2.symbol_directory.is_selected
      message.header.stock_locate) :
    ¬wide.symbol_directory.is_selected message.header.stock_locate := by
  intro hwide
  obtain ⟨symbol, hsymbol, -⟩ := (SymbolDirectory.is_selected_iff _ _).mp hwide
  rw [← h.symbol_for] at hsymbol
  obtain ⟨found, hfound, hrequested⟩ := (SymbolDirectory.is_selected_iff _ _).mp hselected
  rw [observe_directory] at hfound hrequested
  have hobserved := narrow.symbol_directory.observe_spec message
  cases hfound.symm.trans (hobserved.symbol_for_mono hsymbol)
  rw [hobserved.requested_contains] at hrequested
  exact hbefore ((SymbolDirectory.is_selected_iff _ _).mpr ⟨symbol, hsymbol, hrequested⟩)

theorem Narrows.observe_requests (message : StockDirectory) (symbol : Symbol)
    (hrequested : (narrow.observe message).2.symbol_directory.Requests symbol) :
    (wide.observe message).2.symbol_directory.Requests symbol := by
  rw [observe_directory, SymbolDirectory.observe_requests] at hrequested ⊢
  exact h.requests symbol hrequested

section Accepted

variable (hok : (wide.observe message).1 = .ok ())

include hok

theorem Narrows.observe_symbols :
    (narrow.observe message).2.symbol_directory.symbols_by_locate =
      (wide.observe message).2.symbol_directory.symbols_by_locate := by
  have hnarrow := (observe_result narrow message).symm.trans (h.observe_ok hok)
  have hwide := (observe_result wide message).symm.trans hok
  rw [observe_directory, observe_directory]
  apply SymbolDirectory.symbols_eq_of_registry
  rw [SymbolDirectory.observe_registry hnarrow, SymbolDirectory.observe_registry hwide]
  unfold SymbolDirectory.registry
  rw [h.symbols]

theorem Narrows.observe_book
    (hselected : (narrow.observe message).2.symbol_directory.is_selected
      message.header.stock_locate) :
    (narrow.observe message).2.books_by_locate[message.header.stock_locate]? =
      (wide.observe message).2.books_by_locate[message.header.stock_locate]? := by
  by_cases hbefore : narrow.symbol_directory.is_selected message.header.stock_locate
  · -- both keep their book
    obtain ⟨book, howned⟩ := h.invariant.book_of_selected hbefore
    have howned' := (h.books _ hbefore).symm.trans howned
    rw [(observe_spec narrow message).book_kept howned,
      (observe_spec wide message).book_kept howned']
  · -- both open a book
    have hbefore' := h.unselected_before hbefore hselected
    rw [← h.invariant.owned, FiniteMap.not_contains_iff] at hbefore
    rw [← h.wide_invariant.owned, FiniteMap.not_contains_iff] at hbefore'
    have hselected' := SymbolDirectory.is_selected_widen (h.observe_symbols hok)
      (h.observe_requests message) hselected
    rw [observe_opens (h.observe_ok hok) hselected hbefore, observe_opens hok hselected' hbefore']

theorem Narrows.observe : Narrows (narrow.observe message).2 (wide.observe message).2 := by
  refine ⟨(observe_spec narrow message).invariant h.invariant,
    (observe_spec wide message).invariant h.wide_invariant, h.observe_symbols hok,
    h.observe_requests message, ?_⟩
  intro stock_locate hselected
  by_cases heq : stock_locate = message.header.stock_locate
  · subst heq
    exact h.observe_book hok hselected
  · rw [observe_directory,
      (narrow.symbol_directory.observe_spec message).is_selected_of_ne heq] at hselected
    rw [observe_book_of_ne _ _ heq, observe_book_of_ne _ _ heq]
    exact h.books stock_locate hselected

end Accepted

end Listings

theorem Narrows.apply (message : StoreMessage)
    (hlisted : message.is_directory → (wide.apply message).1 = .observed (.ok ())) :
    Narrows (narrow.apply message).2 (wide.apply message).2 := by
  cases message with
  | directory message => exact h.observe (StoreResponse.observed.inj (hlisted rfl))
  | order event => exact h.apply_event event

theorem Narrows.canonicalEntry :
    narrow.canonicalEntry = wide.canonicalEntry := by
  funext entry
  unfold BookStore.canonicalEntry
  rw [h.symbol_for]

-- The narrow store shows those books of the wide one whose symbols it requests.
theorem Narrows.mem_canonical_iff (entry : CanonicalBook) :
    entry ∈ narrow.canonical.books ↔
      entry ∈ wide.canonical.books ∧ narrow.symbol_directory.Requests entry.symbol := by
  rw [mem_canonical, mem_canonical, h.canonicalEntry]
  constructor
  · rintro ⟨stock_locate, book, howned, rfl⟩
    obtain ⟨symbol, hsymbol, hrequested⟩ := h.invariant.symbol_of_owned howned
    have hselected := (SymbolDirectory.is_selected_iff _ _).mpr ⟨symbol, hsymbol, hrequested⟩
    refine ⟨⟨stock_locate, book, (h.books _ hselected).symm.trans howned, rfl⟩, ?_⟩
    rw [h.symbol_for] at hsymbol
    simp only [BookStore.canonicalEntry, hsymbol, Option.getD_some]
    exact hrequested
  · rintro ⟨⟨stock_locate, book, howned, rfl⟩, hrequested⟩
    obtain ⟨symbol, hsymbol, -⟩ := h.wide_invariant.symbol_of_owned howned
    simp only [BookStore.canonicalEntry, hsymbol, Option.getD_some] at hrequested
    rw [← h.symbol_for] at hsymbol
    have hselected := (SymbolDirectory.is_selected_iff _ _).mpr ⟨symbol, hsymbol, hrequested⟩
    exact ⟨stock_locate, book, (h.books _ hselected).trans howned, rfl⟩

theorem Narrows.canonical_eq (selects : Symbol → Bool)
    (hselects : ∀ symbol, selects symbol ↔ narrow.symbol_directory.Requests symbol) :
    narrow.canonical =
      { books := wide.canonical.books.filter fun entry => selects entry.symbol } := by
  have hbooks : narrow.canonical.books =
      wide.canonical.books.filter fun entry => selects entry.symbol := by
    refine Sorting.eq_of_strict compare CanonicalBook.symbol h.invariant.canonical_strict
      (h.wide_invariant.canonical_strict.filter _) ?_
    intro entry
    rw [h.mem_canonical_iff, List.mem_filter, hselects]
  rw [← hbooks]

theorem Narrows.run (messages : List StoreMessage) (hlisted : wide.Listed messages) :
    Narrows (Machine.run BookStore.apply narrow messages)
      (Machine.run BookStore.apply wide messages) :=
  Machine.run_relation BookStore.apply BookStore.apply Narrows
    (fun message response => message.is_directory → response = .observed (.ok ()))
    (fun _ _ message hnarrows hadmitted => hnarrows.apply message hadmitted) h messages hlisted

theorem Narrows.listed {messages : List StoreMessage} (hlisted : wide.Listed messages) :
    narrow.Listed messages := by
  rintro ⟨message, response⟩ hentry hdirectory
  obtain ⟨before, after, rfl, rfl⟩ := (Machine.mem_transcript_iff _ _ _ _ _).mp hentry
  have hbefore := h.run before hlisted.earlier
  cases message with
  | directory message =>
    have hok := StoreResponse.observed.inj (hlisted.accepted hdirectory)
    exact congrArg StoreResponse.observed (hbefore.observe_ok hok)
  | order event => cases hdirectory

end Narrows

theorem create_narrows {narrow wide : BookStore} {requested requested' : List Symbol}
    {capacity capacity' : UInt64} (hwide : create requested capacity = .ok wide)
    (hnarrow : create requested' capacity' = .ok narrow)
    (hsubset : SymbolDirectory.normalized requested' ⊆ SymbolDirectory.normalized requested) :
    Narrows narrow wide := by
  obtain ⟨hdirectory, hbooks⟩ := create_directory hwide
  obtain ⟨hdirectory', hbooks'⟩ := create_directory hnarrow
  have hcreated := SymbolDirectory.create_created hdirectory
  have hcreated' := SymbolDirectory.create_created hdirectory'
  refine ⟨create_invariant hnarrow, create_invariant hwide, ?_, ?_, ?_⟩
  · rw [hcreated.symbols, hcreated'.symbols]
  · intro symbol hrequested
    rw [hcreated'.requests_iff] at hrequested
    exact (hcreated.requests_iff symbol).mpr (hsubset hrequested)
  · intro stock_locate _
    rw [hbooks, hbooks']

-- What is selected besides does not influence a selected book: a store that requests less
-- accepts the same listings, answers every event for its symbols alike and the others not
-- at all, and shows the part of the snapshot that it requests.
theorem selection_noninterference {narrow wide : BookStore} {requested requested' : List Symbol}
    {capacity capacity' : UInt64} (hwide : create requested capacity = .ok wide)
    (hnarrow : create requested' capacity' = .ok narrow)
    (hsubset : SymbolDirectory.normalized requested' ⊆ SymbolDirectory.normalized requested)
    (messages : List StoreMessage) (hlisted : wide.Listed messages) :
    let narrow' := Machine.run BookStore.apply narrow messages
    let wide' := Machine.run BookStore.apply wide messages
    narrow.Listed messages ∧
    narrow'.symbol_directory.symbols_by_locate = wide'.symbol_directory.symbols_by_locate ∧
    (∀ before event after, messages = before ++ .order event :: after →
      let store := Machine.run BookStore.apply narrow before
      let other := Machine.run BookStore.apply wide before
      ((∀ symbol, narrow'.symbol_directory.symbol_for event.stock_locate = some symbol →
          symbol ∈ SymbolDirectory.normalized requested') →
        (store.apply (.order event)).1 = (other.apply (.order event)).1) ∧
      ∀ symbol, store.symbol_directory.symbol_for event.stock_locate = some symbol →
        symbol ∉ SymbolDirectory.normalized requested' →
          (store.apply (.order event)).1 = .routed (.ok .KnownUnselected)) ∧
    ∀ (order : HashOrder narrow') (order' : HashOrder wide'), ∃ snapshot,
      wide'.canonical_snapshot order' = .ok snapshot ∧
      narrow'.canonical_snapshot order = .ok { books := snapshot.books.filter fun entry =>
        entry.symbol ∈ SymbolDirectory.normalized requested' } := by
  intro narrow' wide'
  have h := create_narrows hwide hnarrow hsubset
  have hrun := h.run messages hlisted
  have hrequests : ∀ before symbol,
      (Machine.run BookStore.apply narrow before).symbol_directory.Requests symbol ↔
        symbol ∈ SymbolDirectory.normalized requested' := by
    intro before symbol
    rw [run_requests]
    exact (SymbolDirectory.create_created (create_directory hnarrow).1).requests_iff symbol
  refine ⟨h.listed hlisted, hrun.symbols, ?_, ?_⟩
  · rintro before event after rfl
    have hbefore := h.run before hlisted.earlier
    refine ⟨?_, ?_⟩
    · intro hfinal
      refine congrArg StoreResponse.routed ?_
      cases hknown : (Machine.run BookStore.apply narrow before).symbol_directory.symbol_for
          event.stock_locate with
      | none => exact hbefore.event_unknown hknown
      | some symbol =>
        have hkept := run_symbol_for_mono _ (.order event :: after) hknown
        rw [← Machine.run_append] at hkept
        have hselected := (SymbolDirectory.is_selected_iff _ _).mpr
          ⟨symbol, hknown, (hrequests before symbol).mpr (hfinal symbol hkept)⟩
        exact (hbefore.sameAt hselected).apply_event.1
    · intro symbol hknown hsymbol
      rw [← hrequests before] at hsymbol
      exact congrArg StoreResponse.routed (event_unselected hknown hsymbol)
  · intro order order'
    refine ⟨wide'.canonical, hrun.wide_invariant.canonical_snapshot_ok order', ?_⟩
    rw [hrun.invariant.canonical_snapshot_ok order]
    refine congrArg Except.ok (hrun.canonical_eq
      (fun symbol => decide (symbol ∈ SymbolDirectory.normalized requested')) fun symbol => ?_)
    rw [decide_eq_true_iff, hrequests messages]

-- The first store does not request the second stock, and refuses none of the messages.
def sampleMessages : List StoreMessage :=
  [.directory sampleListing, .directory sampleSecond, .order (.add (sampleAdd 7 60)),
    .order (.add { sampleAdd 8 40 with stock := sampleSecond.stock })]

theorem sampleWide_noninterference :
    let narrow' := sampleStore sampleMessages
    let wide' := Machine.run BookStore.apply sampleWide sampleMessages
    let event := StoreMessage.order (.add { sampleAdd 8 40 with stock := sampleSecond.stock })
    narrow'.symbol_directory.symbols_by_locate = wide'.symbol_directory.symbols_by_locate ∧
    ((Machine.run BookStore.apply sampleWide (sampleMessages.take 3)).apply event).1 =
      .routed (.ok .Applied) ∧
    ((sampleStore (sampleMessages.take 3)).apply event).1 = .routed (.ok .KnownUnselected) := by
  intro narrow' wide' event
  have hsubset : SymbolDirectory.normalized [['z'.toUInt8, ' '.toUInt8]] ⊆
      SymbolDirectory.normalized [['z'.toUInt8, ' '.toUInt8], ['Y'.toUInt8]] := by
    rintro name ⟨symbol, hsymbol, hname⟩
    exact ⟨symbol, List.mem_cons.mpr (.inl (List.mem_singleton.mp hsymbol)), hname⟩
  have hlisted : sampleWide.Listed sampleMessages := by
    unfold Listed
    decide
  obtain ⟨-, hsymbols, hevents, -⟩ := selection_noninterference sampleWide_created
    sampleStart_created hsubset sampleMessages hlisted
  refine ⟨hsymbols, by decide, ?_⟩
  exact (hevents _ _ [] rfl).2 ['Y'.toUInt8] (by decide) (by decide)

end BookStore

end AegisFeed
