import AegisFeed.Book.BookStore.Invariant
import AegisFeed.Library.Interleaving

namespace AegisFeed

open Std

def StoreMessage.is_directory : StoreMessage → Bool
  | .directory _ => true
  | .order _ => false

-- The channels of a message: its locate, and the directory for a directory message.
def StoreMessage.uses (message : StoreMessage) : Option StockLocate → Bool
  | none => message.is_directory
  | some stock_locate => message.stock_locate = stock_locate

namespace BookStore

-- What an event at a locate can see of a store.
structure SameAt (stock_locate : StockLocate) (store other : BookStore) : Prop where
  known : store.symbol_directory.is_known stock_locate =
    other.symbol_directory.is_known stock_locate
  selected : store.symbol_directory.is_selected stock_locate =
    other.symbol_directory.is_selected stock_locate
  book : store.books_by_locate[stock_locate]? = other.books_by_locate[stock_locate]?

-- What a directory message at a locate can see of a store.
structure SameDirectoryAt (stock_locate : StockLocate) (store other : BookStore) : Prop where
  directory : store.symbol_directory = other.symbol_directory
  capacity : store.expected_active_order_capacity_per_book =
    other.expected_active_order_capacity_per_book
  book : store.books_by_locate[stock_locate]? = other.books_by_locate[stock_locate]?

theorem ext_books {store other : BookStore}
    (hdirectory : store.symbol_directory = other.symbol_directory)
    (hcapacity : store.expected_active_order_capacity_per_book =
      other.expected_active_order_capacity_per_book)
    (hbooks : ∀ stock_locate : StockLocate,
      store.books_by_locate[stock_locate]? = other.books_by_locate[stock_locate]?) :
    store = other := by
  rcases store with ⟨directory, books, capacity⟩
  rcases other with ⟨directory', books', capacity'⟩
  have hb : books = books' := ExtTreeMap.ext_getElem? hbooks
  simp only at hdirectory hcapacity
  rw [hdirectory, hcapacity, hb]

variable (store : BookStore)

section Events

variable (event : OrderEvent)

-- An event changes nothing but the entry of its locate among the books.
theorem apply_event_frame :
    ∃ books, (store.apply_event event).2 = { store with books_by_locate := books } ∧
      ∀ stock_locate : StockLocate, stock_locate ≠ event.stock_locate →
        books[stock_locate]? = store.books_by_locate[stock_locate]? := by
  rw [apply_event_eq]
  unfold route
  split
  · exact ⟨store.books_by_locate, rfl, fun _ _ => rfl⟩
  · exact ⟨store.books_by_locate, rfl, fun _ _ => rfl⟩
  · rename_i book _
    refine ⟨store.books_by_locate.insert event.stock_locate (book.apply event).2, ?_, ?_⟩
    · dsimp only
      split <;> rfl
    · intro stock_locate hne
      rw [FiniteMap.getElem?_insert, if_neg hne.symm]

theorem apply_event_directory :
    (store.apply_event event).2.symbol_directory = store.symbol_directory := by
  obtain ⟨books, hstore, _⟩ := store.apply_event_frame event
  rw [hstore]

theorem apply_event_capacity :
    (store.apply_event event).2.expected_active_order_capacity_per_book =
      store.expected_active_order_capacity_per_book := by
  obtain ⟨books, hstore, _⟩ := store.apply_event_frame event
  rw [hstore]

theorem apply_event_book_of_ne {stock_locate : StockLocate}
    (hne : stock_locate ≠ event.stock_locate) :
    (store.apply_event event).2.books_by_locate[stock_locate]? =
      store.books_by_locate[stock_locate]? := by
  obtain ⟨books, hstore, hbooks⟩ := store.apply_event_frame event
  rw [hstore]
  exact hbooks stock_locate hne

theorem apply_event_sameAt {stock_locate : StockLocate}
    (hne : stock_locate ≠ event.stock_locate) :
    SameAt stock_locate (store.apply_event event).2 store := by
  refine ⟨?_, ?_, store.apply_event_book_of_ne event hne⟩
  · rw [apply_event_directory]
  · rw [apply_event_directory]

variable {store event} {other : BookStore}

-- An event does the same to stores that look the same at its locate.
theorem SameAt.apply_event (h : SameAt event.stock_locate store other) :
    (store.apply_event event).1 = (other.apply_event event).1 ∧
    (store.apply_event event).2.books_by_locate[event.stock_locate]? =
      (other.apply_event event).2.books_by_locate[event.stock_locate]? := by
  obtain ⟨hknown, hselected, hbook⟩ := h
  rw [apply_event_eq, apply_event_eq]
  unfold route resolve_book
  rw [hknown, hselected, hbook]
  by_cases hk : other.symbol_directory.is_known event.stock_locate
  swap
  · rw [if_pos hk]
    exact ⟨rfl, hbook⟩
  by_cases hs : other.symbol_directory.is_selected event.stock_locate
  swap
  · rw [if_neg (not_not.mpr hk), if_pos hs]
    exact ⟨rfl, hbook⟩
  rw [if_neg (not_not.mpr hk), if_neg (not_not.mpr hs)]
  cases hfound : other.books_by_locate[event.stock_locate]? with
  | none => exact ⟨rfl, hbook⟩
  | some book =>
    dsimp only
    cases (book.apply event).1 with
    | error error => exact ⟨rfl, by simp⟩
    | ok => exact ⟨rfl, by simp⟩

end Events

section Directory

variable (message : StockDirectory)

-- A directory message does to the directory what the directory does on its own, and
-- changes no other entry among the books.
theorem observe_frame :
    ∃ books, store.observe message = ((store.symbol_directory.observe message).1, { store with
        symbol_directory := (store.symbol_directory.observe message).2,
        books_by_locate := books }) ∧
      ∀ stock_locate : StockLocate, stock_locate ≠ message.header.stock_locate →
        books[stock_locate]? = store.books_by_locate[stock_locate]? := by
  unfold observe
  rcases store.symbol_directory.observe message with ⟨result, directory⟩
  cases result with
  | error error => exact ⟨store.books_by_locate, rfl, fun _ _ => rfl⟩
  | ok =>
    dsimp only
    split
    · refine ⟨_, rfl, ?_⟩
      intro stock_locate hne
      rw [FiniteMap.getElem?_insertIfNew, if_neg fun h => hne h.1.symm]
    · exact ⟨store.books_by_locate, rfl, fun _ _ => rfl⟩

theorem observe_directory :
    (store.observe message).2.symbol_directory = (store.symbol_directory.observe message).2 := by
  obtain ⟨books, hstore, _⟩ := store.observe_frame message
  rw [hstore]

theorem observe_result :
    (store.observe message).1 = (store.symbol_directory.observe message).1 := by
  obtain ⟨books, hstore, _⟩ := store.observe_frame message
  rw [hstore]

theorem observe_capacity :
    (store.observe message).2.expected_active_order_capacity_per_book =
      store.expected_active_order_capacity_per_book := by
  obtain ⟨books, hstore, _⟩ := store.observe_frame message
  rw [hstore]

theorem observe_book_of_ne {stock_locate : StockLocate}
    (hne : stock_locate ≠ message.header.stock_locate) :
    (store.observe message).2.books_by_locate[stock_locate]? =
      store.books_by_locate[stock_locate]? := by
  obtain ⟨books, hstore, hbooks⟩ := store.observe_frame message
  rw [hstore]
  exact hbooks stock_locate hne

-- A directory message never changes what another locate sees.
theorem observe_sameAt {stock_locate : StockLocate}
    (hne : stock_locate ≠ message.header.stock_locate) :
    SameAt stock_locate (store.observe message).2 store := by
  have hobserved := store.symbol_directory.observe_spec message
  refine ⟨?_, ?_, store.observe_book_of_ne message hne⟩
  · rw [observe_directory, hobserved.is_known_of_ne hne]
  · rw [observe_directory, hobserved.is_selected_of_ne hne]

variable {store message} {other : BookStore}

theorem SameDirectoryAt.observe
    (h : SameDirectoryAt message.header.stock_locate store other) :
    (store.observe message).2.books_by_locate[message.header.stock_locate]? =
      (other.observe message).2.books_by_locate[message.header.stock_locate]? := by
  obtain ⟨hdirectory, hcapacity, hbook⟩ := h
  unfold BookStore.observe
  rw [hdirectory]
  rcases other.symbol_directory.observe message with ⟨result, directory⟩
  cases result with
  | error error => exact hbook
  | ok =>
    dsimp only
    split
    · rw [FiniteMap.getElem?_insertIfNew, FiniteMap.getElem?_insertIfNew, hbook, hcapacity]
    · exact hbook

theorem apply_event_sameDirectoryAt (store : BookStore) {event : OrderEvent}
    {stock_locate : StockLocate} (hne : stock_locate ≠ event.stock_locate) :
    SameDirectoryAt stock_locate (store.apply_event event).2 store :=
  ⟨store.apply_event_directory event, store.apply_event_capacity event,
    store.apply_event_book_of_ne event hne⟩

end Directory

section Commute

theorem events_commute {first second : OrderEvent}
    (hne : first.stock_locate ≠ second.stock_locate) :
    ((store.apply_event first).2.apply_event second).2 =
      ((store.apply_event second).2.apply_event first).2 := by
  apply ext_books
  · simp only [apply_event_directory]
  · simp only [apply_event_capacity]
  · intro stock_locate
    by_cases hfirst : stock_locate = first.stock_locate
    · subst hfirst
      rw [apply_event_book_of_ne _ _ hne]
      exact ((store.apply_event_sameAt second hne).apply_event).2.symm
    · rw [apply_event_book_of_ne _ first hfirst]
      by_cases hsecond : stock_locate = second.stock_locate
      · subst hsecond
        exact ((store.apply_event_sameAt first hne.symm).apply_event).2
      · rw [apply_event_book_of_ne _ _ hsecond, apply_event_book_of_ne _ _ hfirst,
          apply_event_book_of_ne _ _ hsecond]

theorem observe_event_commute {message : StockDirectory} {event : OrderEvent}
    (hne : message.header.stock_locate ≠ event.stock_locate) :
    ((store.observe message).2.apply_event event).2 =
      ((store.apply_event event).2.observe message).2 := by
  apply ext_books
  · rw [apply_event_directory, observe_directory, observe_directory, apply_event_directory]
  · rw [apply_event_capacity, observe_capacity, observe_capacity, apply_event_capacity]
  · intro stock_locate
    by_cases hmessage : stock_locate = message.header.stock_locate
    · subst hmessage
      rw [apply_event_book_of_ne _ _ hne]
      exact (store.apply_event_sameDirectoryAt hne).observe.symm
    · rw [observe_book_of_ne _ _ hmessage]
      by_cases hevent : stock_locate = event.stock_locate
      · subst hevent
        exact ((store.observe_sameAt message hne.symm).apply_event).2
      · rw [apply_event_book_of_ne _ _ hevent, observe_book_of_ne _ _ hmessage,
          apply_event_book_of_ne _ _ hevent]

theorem independent_locates {first second : StoreMessage}
    (h : Machine.Independent StoreMessage.uses first second) :
    first.stock_locate ≠ second.stock_locate := by
  intro heq
  exact h (some first.stock_locate) ⟨by simp [StoreMessage.uses], by simp [StoreMessage.uses, heq]⟩

theorem apply_stepsCommute : Machine.StepsCommute StoreMessage.uses BookStore.apply := by
  intro store first second hindependent
  have hne := independent_locates hindependent
  cases first with
  | directory message =>
    cases second with
    | directory other => exact absurd ⟨rfl, rfl⟩ (hindependent none)
    | order event =>
      refine ⟨store.observe_event_commute hne, ?_⟩
      exact congrArg StoreResponse.routed (store.observe_sameAt message hne.symm).apply_event.1
  | order event =>
    cases second with
    | directory message =>
      refine ⟨(store.observe_event_commute hne.symm).symm, ?_⟩
      show StoreResponse.observed ((store.apply_event event).2.observe message).1 =
        .observed (store.observe message).1
      rw [observe_result, observe_result, apply_event_directory]
    | order other =>
      refine ⟨store.events_commute hne, ?_⟩
      exact congrArg StoreResponse.routed (store.apply_event_sameAt event hne.symm).apply_event.1

end Commute

end BookStore

end AegisFeed
