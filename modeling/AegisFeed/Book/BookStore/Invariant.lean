import AegisFeed.Book.BookStore
import AegisFeed.Book.OrderBook.Refinement
import AegisFeed.Book.SymbolDirectory.Invariant

namespace AegisFeed

open Std

namespace BookStore

-- The store owns a book for exactly the selected locates.
structure Invariant (store : BookStore) : Prop where
  directory : store.symbol_directory.Invariant
  owned : ∀ stock_locate, store.books_by_locate.contains stock_locate ↔
    store.symbol_directory.is_selected stock_locate
  books : ∀ (stock_locate : StockLocate) (book : OrderBook),
    store.books_by_locate[stock_locate]? = some book →
      book.Invariant ∧ book.stock_locate = stock_locate

-- The stores that messages lead to, from creation.
inductive Reachable : BookStore → Prop
  | created {requested_symbols : List Symbol} {capacity : UInt64} {store : BookStore}
      (created : create requested_symbols capacity = .ok store) : Reachable store
  | applied {store : BookStore} (reachable : Reachable store) (message : StoreMessage) :
      Reachable (store.apply message).2

-- The ways an order event can end.
inductive Routed (store : BookStore) (event : OrderEvent) :
    Result BookRouteStatus × BookStore → Prop
  | unknown (unknown : ¬store.symbol_directory.is_known event.stock_locate) :
      Routed store event (.error (Error.unknown_stock_locate event.stock_locate), store)
  | unselected (unselected : ¬store.symbol_directory.is_selected event.stock_locate) :
      Routed store event (.ok .KnownUnselected, store)
  | rejected (book : OrderBook) (error : Error)
      (owned : store.books_by_locate[event.stock_locate]? = some book)
      (result : (book.apply event).1 = .error error) : Routed store event (.error error, store)
  | applied (book : OrderBook)
      (owned : store.books_by_locate[event.stock_locate]? = some book)
      (result : (book.apply event).1 = .ok ()) :
      Routed store event (.ok .Applied, { store with
        books_by_locate :=
          store.books_by_locate.insert event.stock_locate (book.apply event).2 })

-- The ways a directory message can end.
inductive Observed (store : BookStore) (message : StockDirectory) :
    Result Unit × BookStore → Prop
  | rejected (error : Error) : Observed store message (.error error, store)
  | unselected (directory : SymbolDirectory)
      (observed : store.symbol_directory.Observed message (.ok (), directory))
      (unselected : ¬directory.is_selected message.header.stock_locate) :
      Observed store message (.ok (), { store with symbol_directory := directory })
  | selected (directory : SymbolDirectory)
      (observed : store.symbol_directory.Observed message (.ok (), directory))
      (selected : directory.is_selected message.header.stock_locate) :
      Observed store message (.ok (), { store with
        symbol_directory := directory,
        books_by_locate := store.books_by_locate.insertIfNew message.header.stock_locate
          (OrderBook.new message.header.stock_locate
            store.expected_active_order_capacity_per_book) })

theorem apply_event_eq (store : BookStore) (event : OrderEvent) :
    store.apply_event event =
      store.route event.stock_locate fun book => book.apply event := by
  cases event <;> rfl

variable {store : BookStore}

theorem observe_spec (store : BookStore) (message : StockDirectory) :
    Observed store message (store.observe message) := by
  have hspec := store.symbol_directory.observe_spec message
  unfold observe
  generalize store.symbol_directory.observe message = outcome at hspec
  rcases outcome with ⟨result, directory⟩
  cases result with
  | error error =>
    have hsame : directory = store.symbol_directory := hspec.error_unchanged rfl
    subst hsame
    exact .rejected error
  | ok =>
    dsimp only
    split
    · rename_i hselected
      exact .selected directory hspec hselected
    · rename_i hselected
      exact .unselected directory hspec hselected

-- A selected locate resolves to a book of the store.
theorem Invariant.book_of_selected (h : store.Invariant) {stock_locate : StockLocate}
    (hselected : store.symbol_directory.is_selected stock_locate) :
    ∃ book, store.books_by_locate[stock_locate]? = some book := by
  have hcontains := (h.owned stock_locate).mpr hselected
  rwa [ExtTreeMap.contains_iff_mem, FiniteMap.mem_iff_getElem?] at hcontains

theorem Invariant.routed (h : store.Invariant) (event : OrderEvent) :
    Routed store event (store.apply_event event) := by
  rw [apply_event_eq]
  unfold route resolve_book
  by_cases hknown : store.symbol_directory.is_known event.stock_locate
  swap
  · rw [if_pos hknown]
    exact .unknown hknown
  by_cases hselected : store.symbol_directory.is_selected event.stock_locate
  swap
  · rw [if_neg (not_not.mpr hknown), if_pos hselected]
    exact .unselected hselected
  rw [if_neg (not_not.mpr hknown), if_neg (not_not.mpr hselected)]
  obtain ⟨book, howned⟩ := h.book_of_selected hselected
  rw [howned]
  have hbook := (h.books _ book howned).1
  cases hresult : (book.apply event).1 with
  | error error =>
    -- the book is as it was, and is put back
    have hsame := OrderBook.apply_error_unchanged hbook event hresult
    have hput := FiniteMap.insert_of_getElem? _ _ _ howned
    simp only [hresult, hsame, hput]
    exact .rejected book error howned hresult
  | ok =>
    simp only [hresult]
    exact .applied book howned hresult

-- An event at the locate of an owned book ends as that book does.
section Owned

variable (h : store.Invariant) {event : OrderEvent} {book : OrderBook}
  (howned : store.books_by_locate[event.stock_locate]? = some book)

include h howned

theorem Invariant.known_of_owned : store.symbol_directory.is_known event.stock_locate ∧
    store.symbol_directory.is_selected event.stock_locate := by
  have hcontains : store.books_by_locate.contains event.stock_locate := by
    rw [ExtTreeMap.contains_iff_mem, FiniteMap.mem_iff_getElem?]
    exact ⟨book, howned⟩
  have hselected := (h.owned event.stock_locate).mp hcontains
  obtain ⟨symbol, hknown, -⟩ := (SymbolDirectory.is_selected_iff _ _).mp hselected
  refine ⟨?_, hselected⟩
  unfold SymbolDirectory.is_known
  rw [ExtTreeMap.contains_iff_mem, FiniteMap.mem_iff_getElem?]
  exact ⟨symbol, hknown⟩

theorem Invariant.apply_event_error {error : Error}
    (herror : (book.apply event).1 = .error error) :
    store.apply_event event = (.error error, store) := by
  obtain ⟨hknown, hselected⟩ := h.known_of_owned howned
  have hrouted := h.routed event
  generalize store.apply_event event = outcome at hrouted ⊢
  cases hrouted with
  | unknown unknown => exact absurd hknown unknown
  | unselected unselected => exact absurd hselected unselected
  | rejected other error' owned result =>
    cases howned.symm.trans owned
    cases herror.symm.trans result
    rfl
  | applied other owned result =>
    cases howned.symm.trans owned
    cases herror.symm.trans result

theorem Invariant.apply_event_ok (hok : (book.apply event).1 = .ok ()) :
    store.apply_event event = (.ok .Applied, { store with
      books_by_locate :=
        store.books_by_locate.insert event.stock_locate (book.apply event).2 }) := by
  obtain ⟨hknown, hselected⟩ := h.known_of_owned howned
  have hrouted := h.routed event
  generalize store.apply_event event = outcome at hrouted ⊢
  cases hrouted with
  | unknown unknown => exact absurd hknown unknown
  | unselected unselected => exact absurd hselected unselected
  | rejected other error owned result =>
    cases howned.symm.trans owned
    cases hok.symm.trans result
  | applied other owned result =>
    cases howned.symm.trans owned
    rfl

end Owned

theorem Invariant.applied_iff (h : store.Invariant) (event : OrderEvent) :
    (store.apply_event event).1 = .ok .Applied ↔
      ∃ book, store.books_by_locate[event.stock_locate]? = some book ∧
        (book.apply event).1 = .ok () := by
  constructor
  · have hrouted := h.routed event
    generalize store.apply_event event = outcome at hrouted
    intro happlied
    cases hrouted with
    | unknown _ => cases happlied
    | unselected _ => cases happlied
    | rejected _ _ _ _ => cases happlied
    | applied book owned result => exact ⟨book, owned, result⟩
  · rintro ⟨book, howned, hok⟩
    rw [h.apply_event_ok howned hok]

-- An event that is not applied changes nothing.
theorem Invariant.unapplied_unchanged (h : store.Invariant) (event : OrderEvent)
    (hunapplied : (store.apply_event event).1 ≠ .ok .Applied) :
    (store.apply_event event).2 = store := by
  have hrouted := h.routed event
  generalize store.apply_event event = outcome at hrouted hunapplied
  cases hrouted with
  | unknown _ => rfl
  | unselected _ => rfl
  | rejected _ _ _ _ => rfl
  | applied _ _ _ => exact absurd rfl hunapplied

section Steps

variable {message : StockDirectory} {outcome : Result Unit × BookStore}

theorem Observed.invariant (hobserved : Observed store message outcome)
    (h : store.Invariant) : outcome.2.Invariant := by
  cases hobserved with
  | rejected error => exact h
  | unselected directory observed unselected =>
    refine ⟨observed.invariant h.directory, ?_, h.books⟩
    intro stock_locate
    rw [h.owned]
    by_cases heq : stock_locate = message.header.stock_locate
    · subst heq
      exact ⟨observed.is_selected_mono, fun hselected => absurd hselected unselected⟩
    · rw [observed.is_selected_of_ne heq]
  | selected directory observed selected =>
    refine ⟨observed.invariant h.directory, ?_, ?_⟩
    · intro stock_locate
      show (store.books_by_locate.insertIfNew _ _).contains stock_locate ↔ _
      rw [FiniteMap.contains_insertIfNew_iff, h.owned]
      by_cases heq : stock_locate = message.header.stock_locate
      · subst heq
        simp [selected]
      · rw [observed.is_selected_of_ne heq]
        exact or_iff_right (Ne.symm heq)
    · intro stock_locate book hfound
      rw [FiniteMap.getElem?_insertIfNew] at hfound
      split_ifs at hfound with hnew
      · obtain ⟨rfl, _⟩ := hnew
        cases hfound
        exact ⟨OrderBook.new_invariant _ _, rfl⟩
      · exact h.books stock_locate book hfound

theorem Routed.invariant {event : OrderEvent} {routed : Result BookRouteStatus × BookStore}
    (hrouted : Routed store event routed) (h : store.Invariant) : routed.2.Invariant := by
  cases hrouted with
  | unknown _ => exact h
  | unselected _ => exact h
  | rejected _ _ _ _ => exact h
  | applied book owned result =>
    obtain ⟨hbook, hlocate⟩ := h.books _ book owned
    have hmem : store.books_by_locate.contains event.stock_locate := by
      rw [ExtTreeMap.contains_iff_mem, FiniteMap.mem_iff_getElem?]
      exact ⟨book, owned⟩
    refine ⟨h.directory, ?_, ?_⟩
    · intro stock_locate
      rw [← h.owned stock_locate]
      show (store.books_by_locate.insert _ _).contains stock_locate ↔ _
      rw [FiniteMap.contains_insert_of_contains hmem]
    · intro stock_locate other hfound
      rw [FiniteMap.getElem?_insert] at hfound
      split_ifs at hfound with heq
      · cases hfound
        exact ⟨OrderBook.apply_invariant hbook event,
          (OrderBook.apply_stock_locate hbook event).trans (hlocate.trans heq)⟩
      · exact h.books stock_locate other hfound

end Steps

theorem create_directory {requested_symbols : List Symbol} {capacity : UInt64}
    (hcreate : create requested_symbols capacity = .ok store) :
    SymbolDirectory.create requested_symbols = .ok store.symbol_directory ∧
      store.books_by_locate = ∅ := by
  unfold create at hcreate
  cases hdirectory : SymbolDirectory.create requested_symbols with
  | error error =>
    rw [hdirectory] at hcreate
    cases hcreate
  | ok directory =>
    rw [hdirectory] at hcreate
    cases hcreate
    exact ⟨rfl, rfl⟩

theorem create_invariant {requested_symbols : List Symbol} {capacity : UInt64}
    (hcreate : create requested_symbols capacity = .ok store) : store.Invariant := by
  obtain ⟨hdirectory, hbooks⟩ := create_directory hcreate
  have hfresh := SymbolDirectory.create_fresh hdirectory
  refine ⟨hfresh.invariant, ?_, ?_⟩
  · intro stock_locate
    rw [SymbolDirectory.is_selected_iff, SymbolDirectory.symbol_for, hfresh.symbols, hbooks]
    simp
  · intro stock_locate book hfound
    simp [hbooks] at hfound

theorem Invariant.apply (h : store.Invariant) (message : StoreMessage) :
    (store.apply message).2.Invariant := by
  cases message with
  | directory message => exact (observe_spec store message).invariant h
  | order event => exact (h.routed event).invariant h

theorem Reachable.invariant (h : store.Reachable) : store.Invariant := by
  induction h with
  | created hcreate => exact create_invariant hcreate
  | applied _ message ih => exact ih.apply message

-- The stores of a run are reachable.
theorem Reachable.run (h : store.Reachable) (messages : List StoreMessage) :
    (Machine.run BookStore.apply store messages).Reachable :=
  Machine.run_invariant BookStore.apply Reachable (fun _ message hr => hr.applied message)
    store h messages

end BookStore

end AegisFeed
