import AegisFeed.Book.BookStore.Theorems
import AegisFeed.Book.OrderBook.Algebra

namespace AegisFeed

open Std

-- The reference under which an event makes an order active.
def OrderEvent.enters : OrderEvent → Option OrderId
  | .add message => some message.order_reference
  | .execute _ => none
  | .execute_with_price _ => none
  | .cancel _ => none
  | .delete_order _ => none
  | .replace message => some message.new_order_reference

@[simp] theorem OrderEvent.entered_step (event : OrderEvent) :
    event.step.entered = event.enters := by
  cases event <;> rfl

-- What a book checks of an event at its locate before it looks for a duplicate.
def OrderEvent.Checked (book : OrderBook) : OrderEvent → Prop
  | .add message =>
    (message.side = Side.Buy ∨ message.side = Side.Sell) ∧ message.shares ≠ 0 ∧
    message.price_1e4 ≤ kMaxPrice4
  | .replace message =>
    message.shares ≠ 0 ∧ message.price_1e4 ≤ kMaxPrice4 ∧
    book.active_orders.contains message.original_order_reference
  | _ => True

namespace OrderBook

variable {book : OrderBook}

theorem contains_iff_mem_view (reference : OrderId) :
    book.active_orders.contains reference ↔ reference ∈ book.view := by
  rw [view, ExtTreeMap.mem_map, ExtTreeMap.contains_iff_mem]

variable (h : book.Invariant) {event : OrderEvent} {reference : OrderId}

include h

theorem contains_of_apply (hok : (book.apply event).1 = .ok ())
    (hactive : (book.apply event).2.active_orders.contains reference) :
    book.active_orders.contains reference ∨ event.enters = some reference := by
  have haccepts := ((apply_ok_iff_step h event).mp hok).2
  rw [contains_iff_mem_view, apply_view h hok] at hactive
  rw [contains_iff_mem_view, ← event.entered_step]
  exact Ledger.Step.mem_of_mem_effect haccepts.1 hactive

theorem apply_enters (hok : (book.apply event).1 = .ok ())
    (henters : event.enters = some reference) :
    ¬book.active_orders.contains reference ∧
      (book.apply event).2.active_orders.contains reference := by
  have haccepts := ((apply_ok_iff_step h event).mp hok).2
  rw [← event.entered_step] at henters
  rw [contains_iff_mem_view, contains_iff_mem_view, apply_view h hok]
  exact ⟨Ledger.Step.entered_not_mem haccepts.1 henters,
    Ledger.Step.entered_mem haccepts.1 henters⟩

theorem apply_active (henters : event.enters = some reference)
    (hactive : book.active_orders.contains reference) :
    ∃ error, (book.apply event).1 = .error error := by
  cases hresult : (book.apply event).1 with
  | error error => exact ⟨error, rfl⟩
  | ok => exact absurd hactive (apply_enters h hresult henters).1

theorem apply_duplicate (hlocate : event.stock_locate = book.stock_locate)
    (henters : event.enters = some reference)
    (hactive : book.active_orders.contains reference) (hchecked : event.Checked book) :
    (book.apply event).1 = .error (Error.duplicate_order_reference reference) := by
  cases event with
  | add message =>
    obtain rfl := Option.some_inj.mp henters
    obtain ⟨hside, hshares, hprice⟩ := hchecked
    change message.header.stock_locate = book.stock_locate at hlocate
    have hcheck : book.check_add message =
        .error (Error.duplicate_order_reference message.order_reference) := by
      unfold check_add
      rw [if_neg (not_not.mpr hlocate), if_neg (fun hneither => hside.elim hneither.1 hneither.2),
        if_neg hshares, if_neg (not_lt.mpr hprice), if_pos hactive]
    simp only [apply, add, hcheck]
  | execute => cases henters
  | execute_with_price => cases henters
  | cancel => cases henters
  | delete_order => cases henters
  | replace message =>
    obtain rfl := Option.some_inj.mp henters
    obtain ⟨hshares, hprice, hfound⟩ := hchecked
    change message.header.stock_locate = book.stock_locate at hlocate
    rw [ExtTreeMap.contains_iff_mem, FiniteMap.mem_iff_getElem?] at hfound
    obtain ⟨original, hfound⟩ := hfound
    have horiginal := h.orders _ original hfound
    have hremaining : original.remaining ≠ 0 := (shares_pos_iff _).mp horiginal.remaining
    have hcheck : book.check_replace message =
        .error (Error.duplicate_order_reference message.new_order_reference) := by
      unfold check_replace
      simp only [if_neg (not_not.mpr hlocate), if_neg hshares, if_neg (not_lt.mpr hprice),
        hfound, if_neg (not_not.mpr horiginal.id_eq), if_neg (not_not.mpr horiginal.locate_eq),
        if_neg hremaining, if_pos hactive]
    simp only [apply, replace, hcheck]

end OrderBook

namespace BookStore

def ActiveAt (store : BookStore) (stock_locate : StockLocate) (reference : OrderId) : Prop :=
  ∃ book, store.books_by_locate[stock_locate]? = some book ∧
    book.active_orders.contains reference

-- No reference is active in two books.
def ReferencesUnique (store : BookStore) : Prop :=
  ∀ reference first second,
    store.ActiveAt first reference → store.ActiveAt second reference → first = second

-- The message does not make a reference active that another book has.
def Exclusive (store : BookStore) (message : StoreMessage) : Prop :=
  ∀ event reference, message = .order event →
    (store.apply_event event).1 = .ok .Applied → event.enters = some reference →
    ∀ other, other ≠ event.stock_locate → ¬store.ActiveAt other reference

section Steps

variable {store : BookStore} (h : store.Invariant)

theorem Observed.activeAt {message : StockDirectory} {outcome : Result Unit × BookStore}
    (hobserved : Observed store message outcome) {stock_locate : StockLocate}
    {reference : OrderId} (hactive : outcome.2.ActiveAt stock_locate reference) :
    store.ActiveAt stock_locate reference := by
  obtain ⟨book, howned, hactive⟩ := hactive
  cases hbefore : store.books_by_locate[stock_locate]? with
  | none =>
    obtain ⟨-, -, hempty, -⟩ := hobserved.book_new hbefore howned
    simp [hempty] at hactive
  | some other =>
    cases howned.symm.trans (hobserved.book_kept hbefore)
    exact ⟨book, hbefore, hactive⟩

theorem activeAt_of_ne {event : OrderEvent} {stock_locate : StockLocate}
    (hne : stock_locate ≠ event.stock_locate) (reference : OrderId) :
    (store.apply_event event).2.ActiveAt stock_locate reference ↔
      store.ActiveAt stock_locate reference := by
  unfold ActiveAt
  rw [store.apply_event_book_of_ne event hne]

include h

theorem Invariant.activeAt_enters {event : OrderEvent} {reference : OrderId}
    (happlied : (store.apply_event event).1 = .ok .Applied)
    (henters : event.enters = some reference) :
    (store.apply_event event).2.ActiveAt event.stock_locate reference := by
  obtain ⟨book, howned, hok⟩ := (h.applied_iff event).mp happlied
  have hbook := (h.books _ book howned).1
  refine ⟨(book.apply event).2, ?_, (OrderBook.apply_enters hbook hok henters).2⟩
  rw [h.apply_event_ok howned hok, FiniteMap.getElem?_insert, if_pos rfl]

-- A reference that is active after an event was so before, or the event entered it.
theorem Invariant.activeAt_event {event : OrderEvent} {stock_locate : StockLocate}
    {reference : OrderId}
    (hactive : (store.apply_event event).2.ActiveAt stock_locate reference) :
    store.ActiveAt stock_locate reference ∨
      (store.apply_event event).1 = .ok .Applied ∧ event.enters = some reference ∧
        stock_locate = event.stock_locate := by
  by_cases hlocate : stock_locate = event.stock_locate
  swap
  · exact Or.inl ((activeAt_of_ne hlocate reference).mp hactive)
  by_cases happlied : (store.apply_event event).1 = .ok .Applied
  swap
  · rw [h.unapplied_unchanged event happlied] at hactive
    exact Or.inl hactive
  obtain ⟨book, howned, hok⟩ := (h.applied_iff event).mp happlied
  obtain ⟨other, hother, hactive⟩ := hactive
  rw [h.apply_event_ok howned hok, hlocate, FiniteMap.getElem?_insert, if_pos rfl] at hother
  cases hother
  rcases OrderBook.contains_of_apply (h.books _ book howned).1 hok hactive with hold | hnew
  · exact Or.inl ⟨book, hlocate ▸ howned, hold⟩
  · exact Or.inr ⟨happlied, hnew, hlocate⟩

theorem Invariant.exclusive_of_unique {message : StoreMessage}
    (hunique : (store.apply message).2.ReferencesUnique) : store.Exclusive message := by
  rintro event reference rfl happlied henters other hne hactive
  have hother := (activeAt_of_ne hne reference).mpr hactive
  exact hne (hunique reference _ _ hother (h.activeAt_enters happlied henters))

theorem Invariant.unique_of_exclusive {message : StoreMessage} (hunique : store.ReferencesUnique)
    (hexclusive : store.Exclusive message) : (store.apply message).2.ReferencesUnique := by
  intro reference first second hfirst hsecond
  cases message with
  | directory message =>
    have hspec := observe_spec store message
    exact hunique reference _ _ (hspec.activeAt hfirst) (hspec.activeAt hsecond)
  | order event =>
    have hother : ∀ other, store.ActiveAt other reference →
        (store.apply_event event).1 = .ok .Applied → event.enters = some reference →
        other = event.stock_locate := by
      intro other hactive happlied henters
      by_contra hne
      exact hexclusive event reference rfl happlied henters other hne hactive
    rcases h.activeAt_event hfirst with hfirst | ⟨happlied, henters, rfl⟩
    · rcases h.activeAt_event hsecond with hsecond | ⟨happlied, henters, rfl⟩
      · exact hunique reference _ _ hfirst hsecond
      · exact hother first hfirst happlied henters
    · rcases h.activeAt_event hsecond with hsecond | ⟨_, _, rfl⟩
      · exact (hother second hsecond happlied henters).symm
      · rfl

end Steps

section Runs

variable {requested_symbols : List Symbol} {capacity : UInt64} {start : BookStore}
  (hcreate : create requested_symbols capacity = .ok start)

include hcreate

theorem create_unique : start.ReferencesUnique := by
  rintro reference first second ⟨book, howned, -⟩ -
  rw [(create_directory hcreate).2, ExtTreeMap.getElem?_empty] at howned
  cases howned

-- A reference is active at most once in each book, and every event that would make it
-- active again there fails. Two books have no reference in common as long as no applied
-- event enters one that another book has: the books do not see each other.
theorem run_references (messages : List StoreMessage) :
    let store := Machine.run BookStore.apply start messages
    (∀ (stock_locate : StockLocate) (book : OrderBook),
      store.books_by_locate[stock_locate]? = some book →
      ∀ (reference : OrderId) (order : OrderRecord),
        book.active_orders[reference]? = some order →
        order.id = reference ∧ order.stock_locate = stock_locate) ∧
    (∀ (event : OrderEvent) (reference : OrderId) (book : OrderBook),
      event.enters = some reference →
      store.books_by_locate[event.stock_locate]? = some book →
      book.active_orders.contains reference →
      (∃ error, store.apply_event event = (.error error, store)) ∧
      (event.Checked book →
        store.apply_event event = (.error (Error.duplicate_order_reference reference), store))) ∧
    (∀ event : OrderEvent, (store.apply_event event).1 = .ok .Applied ↔
      ∃ book, store.books_by_locate[event.stock_locate]? = some book ∧
        OrderLedger.Accepts event.stock_locate book.view event) ∧
    ((∀ before after, messages = before ++ after →
        (Machine.run BookStore.apply start before).ReferencesUnique) ↔
      ∀ before message after, messages = before ++ message :: after →
        (Machine.run BookStore.apply start before).Exclusive message) := by
  intro store
  have h : store.Invariant := ((Reachable.created hcreate).run messages).invariant
  refine ⟨?_, ?_, ?_, ?_⟩
  · intro stock_locate book howned reference order hfound
    obtain ⟨hbook, hlocate⟩ := h.books _ book howned
    have hwell := hbook.orders reference order hfound
    exact ⟨hwell.id_eq, hwell.locate_eq.trans hlocate⟩
  · intro event reference book henters howned hactive
    obtain ⟨hbook, hlocate⟩ := h.books _ book howned
    obtain ⟨error, herror⟩ := OrderBook.apply_active hbook henters hactive
    refine ⟨⟨error, h.apply_event_error howned herror⟩, fun hchecked => ?_⟩
    have hduplicate := OrderBook.apply_duplicate hbook hlocate.symm henters hactive hchecked
    exact h.apply_event_error howned hduplicate
  · intro event
    rw [h.applied_iff event]
    refine exists_congr fun book => and_congr_right fun howned => ?_
    obtain ⟨hbook, hlocate⟩ := h.books _ book howned
    rw [OrderBook.apply_ok_iff hbook, hlocate]
  · refine Machine.run_invariant_iff BookStore.apply Invariant ReferencesUnique Exclusive
      (fun _ message hinv => hinv.apply message) ?_ (create_invariant hcreate)
      (create_unique hcreate) messages
    intro other message hinv hunique
    exact ⟨hinv.exclusive_of_unique, hinv.unique_of_exclusive hunique⟩

end Runs

-- Two selected stocks, and one reference that is added at both.
def sampleShared : List StoreMessage :=
  [.directory sampleListing, .directory sampleSecond, .order (.add (sampleAdd 7 60))]

theorem sampleWide_references :
    (Machine.run BookStore.apply sampleWide sampleShared).apply_event (.add (sampleAdd 7 10)) =
      (.error (Error.duplicate_order_reference 1),
        Machine.run BookStore.apply sampleWide sampleShared) := by
  refine ((run_references sampleWide_created sampleShared).2.1 _ _ _ rfl rfl ?_).2 ?_
  · decide
  · exact ⟨Or.inl rfl, by decide, by decide⟩

-- The second book takes the reference that the first one has.
theorem sampleWide_shared :
    ¬(∀ store : BookStore, store.Reachable → store.ReferencesUnique) ∧
    ¬(∀ store : BookStore, store.Reachable → ∀ event reference stock_locate,
      event.enters = some reference → store.ActiveAt stock_locate reference →
      (store.apply_event event).1 = .error (Error.duplicate_order_reference reference)) := by
  have hreachable : (Machine.run BookStore.apply sampleWide sampleShared).Reachable :=
    (Reachable.created sampleWide_created).run sampleShared
  have hfirst : (Machine.run BookStore.apply sampleWide sampleShared).ActiveAt 7 1 :=
    ⟨_, rfl, by decide⟩
  constructor
  · intro hunique
    have hboth := hunique _ (hreachable.applied (.order (.add (sampleAdd 8 10))))
    have hseven : ((Machine.run BookStore.apply sampleWide sampleShared).apply
        (.order (.add (sampleAdd 8 10)))).2.ActiveAt 7 1 := ⟨_, rfl, by decide⟩
    have height : ((Machine.run BookStore.apply sampleWide sampleShared).apply
        (.order (.add (sampleAdd 8 10)))).2.ActiveAt 8 1 := ⟨_, rfl, by decide⟩
    exact absurd (hboth 1 7 8 hseven height) (by decide)
  · intro hfails
    have herror := hfails _ hreachable (.add (sampleAdd 8 10)) 1 7 rfl hfirst
    cases herror

end BookStore

end AegisFeed
