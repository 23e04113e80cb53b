import AegisFeed.Book.BookStore.Recovery
import AegisFeed.Book.OrderBook.Undo

namespace AegisFeed

open Std

namespace BookStore

-- The messages that take an event back. Those of the directory stay: a locate keeps its
-- name.
def undo (header : ItchCommonHeader) (stock : StockSymbol) (store : BookStore) :
    StoreMessage → List StoreMessage
  | .directory _ => []
  | .order event =>
    match store.books_by_locate[event.stock_locate]? with
    | none => []
    | some book => (OrderBook.undo header stock book event).map .order

variable {header : ItchCommonHeader} {stock : StockSymbol} {store : BookStore}

theorem length_undo_le (message : StoreMessage) : (undo header stock store message).length ≤ 2 := by
  cases message with
  | directory message => exact Nat.zero_le 2
  | order event =>
    simp only [undo]
    split
    · exact Nat.zero_le 2
    · rw [List.length_map]
      exact OrderBook.length_undo_le header stock _ event

-- The book of the locate takes the event back, and the store does.
theorem Invariant.undone (h : store.Invariant) (header : ItchCommonHeader) (stock : StockSymbol)
    (event : OrderEvent) :
    Machine.Admits BookStore.apply Accepts (store.apply (.order event)).2
        (undo header stock store (.order event)) ∧
      Machine.run BookStore.apply (store.apply (.order event)).2
        (undo header stock store (.order event)) = store := by
  simp only [undo]
  cases howned : store.books_by_locate[event.stock_locate]? with
  | none =>
    refine ⟨trivial, h.unapplied_unchanged event fun happlied => ?_⟩
    obtain ⟨book, howned', -⟩ := (h.applied_iff event).mp happlied
    cases howned.symm.trans howned'
  | some book =>
    obtain ⟨hbook, hlocate⟩ := h.books _ book howned
    obtain ⟨hadmits, hrun⟩ := hbook.undone header stock event
    have hinvariant := h.apply (.order event)
    have hevents : ∀ undoing ∈ OrderBook.undo header stock book event,
        undoing.stock_locate = event.stock_locate :=
      fun undoing hmem => (hbook.undo_locate hmem).trans hlocate
    cases hresult : (book.apply event).1 with
    | error error =>
      have hfailed : ¬book.Succeeds event := fun hok => by cases hok.symm.trans hresult
      have hsame : (store.apply (.order event)).2 = store :=
        congrArg Prod.snd (h.apply_event_error howned hresult)
      simp only [OrderBook.undo, if_neg hfailed]
      exact ⟨trivial, hsame⟩
    | ok =>
      have hnext : (store.apply (.order event)).2 = { store with
          books_by_locate := store.books_by_locate.insert event.stock_locate
            (book.apply event).2 } := congrArg Prod.snd (h.apply_event_ok howned hresult)
      rw [hnext] at hinvariant ⊢
      obtain ⟨hadmits', hrun'⟩ :=
        hinvariant.run_owned ExtTreeMap.getElem?_insert_self _ hevents hadmits
      refine ⟨hadmits', hrun'.trans ?_⟩
      simp only [hrun, FiniteMap.insert_insert, FiniteMap.insert_of_getElem? _ _ _ howned]

-- Whatever order events did to a store, accepted messages take it back, up to two for each
-- event: the orders, the levels, and what is left of each order are as before.
theorem Reachable.run_undone (h : store.Reachable) (header : ItchCommonHeader)
    (stock : StockSymbol) (events : List OrderEvent) :
    let messages := events.map StoreMessage.order
    let undoing := Machine.undoRun BookStore.apply (undo header stock) store messages
    Machine.Admits BookStore.apply Accepts (Machine.run BookStore.apply store messages) undoing ∧
      Machine.run BookStore.apply (Machine.run BookStore.apply store messages) undoing = store ∧
      undoing.length ≤ 2 * events.length := by
  intro messages undoing
  have hevents : ∀ message ∈ messages, ∃ event, message = .order event := by
    intro message hmem
    obtain ⟨event, -, rfl⟩ := List.mem_map.mp hmem
    exact ⟨event, rfl⟩
  obtain ⟨hadmits, hrun⟩ := Machine.run_undoRun (fun _ message hinvariant => hinvariant.apply message)
    (fun store message (hinvariant : store.Invariant) hmessage => by
      obtain ⟨event, rfl⟩ := hmessage
      exact hinvariant.undone header stock event) h.invariant hevents
  refine ⟨hadmits, hrun, ?_⟩
  have hmost : ∀ (store : BookStore) (message : StoreMessage),
      (undo header stock store message).length ≤ 2 := fun store => length_undo_le
  have hlength := Machine.length_undoRun_le BookStore.apply hmost store messages
  rwa [List.length_map] at hlength

-- The partial cancellation is taken back by a deletion and an addition.
theorem sampleStore_undone :
    let store := sampleStore [.directory sampleListing, .order (.add (sampleAdd 7 60))]
    let cancelled := (store.apply (.order (.cancel (sampleCancel 20)))).2
    let undoing := undo (sampleHeader 'A' 0) sampleListing.stock store
      (.order (.cancel (sampleCancel 20)))
    undoing.length = 2 ∧ Machine.run BookStore.apply cancelled undoing = store := by
  intro store cancelled undoing
  have hstore : store.Reachable := sampleStore_reachable _
  exact ⟨by decide, (hstore.run_undone (sampleHeader 'A' 0) sampleListing.stock
    [.cancel (sampleCancel 20)]).2.1⟩

end BookStore

end AegisFeed
