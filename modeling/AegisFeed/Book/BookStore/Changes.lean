import AegisFeed.Book.BookStore.Recovery
import AegisFeed.Book.StateDigest.Decoding

namespace AegisFeed

open Std

namespace BookStore

variable {store other : BookStore}

section Snapshots

variable (h : store.Invariant) (h' : other.Invariant) (hsame : store.canonical = other.canonical)

include h h' hsame

theorem book_of_canonical_eq {stock_locate : StockLocate} {book : OrderBook}
    (howned : store.books_by_locate[stock_locate]? = some book) :
    other.books_by_locate[stock_locate]? = some book := by
  obtain ⟨hbook, hlocate⟩ := h.books stock_locate book howned
  have hentry := (mem_canonical _).mpr ⟨stock_locate, book, howned, rfl⟩
  have hentry' := hentry
  rw [hsame] at hentry'
  obtain ⟨book', howned', -⟩ := h'.owned_of_mem_canonical hentry'
  have hshown : (store.canonicalEntry (stock_locate, book)).book.stock_locate = stock_locate :=
    hlocate
  obtain ⟨hbook', hlocate'⟩ := h'.books _ book' howned'
  have horders := FiniteMap.ofEntries_eq_of_perm (h.entries_perm hentry (by rwa [hshown]))
  have horders' := FiniteMap.ofEntries_eq_of_perm (h'.entries_perm hentry' howned')
  rw [hshown] at howned' hlocate'
  rw [howned', hbook.unique hbook' (hlocate.trans hlocate'.symm) (horders.symm.trans horders')]

theorem selects_of_canonical_eq {symbol : Symbol} {stock_locate : StockLocate}
    (hselects : store.Selects symbol stock_locate) : other.Selects symbol stock_locate := by
  obtain ⟨hsymbol, hselected⟩ := hselects
  obtain ⟨book, howned⟩ := h.book_of_selected hselected
  have hentry := (mem_canonical _).mpr ⟨stock_locate, book, howned, rfl⟩
  have hshown : (store.canonicalEntry (stock_locate, book)).book.stock_locate = stock_locate :=
    (h.books stock_locate book howned).2
  have hnamed := h.canonical_symbol_for hentry
  have hselected' := (h.mem_canonical_locates stock_locate).mpr hselected
  rw [hsame] at hentry hselected'
  have hnamed' := h'.canonical_symbol_for hentry
  rw [hshown, hsymbol] at hnamed
  rw [hshown, ← hnamed] at hnamed'
  exact ⟨hnamed', (h'.mem_canonical_locates stock_locate).mp hselected'⟩

end Snapshots

-- A snapshot shows the selected pairs and the books, and nothing else.
theorem canonical_eq_iff (h : store.Invariant) (h' : other.Invariant) :
    store.canonical = other.canonical ↔
      (∀ symbol stock_locate,
        store.Selects symbol stock_locate ↔ other.Selects symbol stock_locate) ∧
      store.books_by_locate = other.books_by_locate := by
  constructor
  · intro hsame
    refine ⟨fun symbol stock_locate => ⟨selects_of_canonical_eq h h' hsame,
      selects_of_canonical_eq h' h hsame.symm⟩, ?_⟩
    apply ExtTreeMap.ext_getElem?
    intro stock_locate
    apply Option.ext
    intro book
    exact ⟨book_of_canonical_eq h h' hsame, book_of_canonical_eq h' h hsame.symm⟩
  · rintro ⟨hselects, hbooks⟩
    exact canonical_eq_of_books_eq h' (fun symbol stock_locate => (hselects symbol stock_locate).mpr)
      hbooks

section Bytes

-- The numbers of orders fit a `std::size_t`.
def Sized (store : BookStore) : Prop :=
  ∀ (stock_locate : StockLocate) (book : OrderBook),
    store.books_by_locate[stock_locate]? = some book → book.active_orders.size < 2 ^ 64

theorem sized_of_count (hcount : store.active_order_count < 2 ^ 64) : store.Sized :=
  fun _ _ howned => (FiniteMap.le_total _ _ _ _ howned).trans_lt hcount

theorem Reachable.canonical_sized (h : store.Reachable) (hsized : store.Sized) :
    store.canonical.Sized := by
  obtain ⟨hcount, hbooks⟩ := h.invariant.bounded h.accurate
  refine ⟨hcount.trans_lt (by decide), fun entry hmem => ?_⟩
  obtain ⟨-, hsymbol, hbids, hasks⟩ := hbooks entry hmem
  refine ⟨hsymbol.trans_lt (by decide), hbids.trans_lt (by decide), hasks.trans_lt (by decide), ?_⟩
  obtain ⟨book, howned, heq⟩ := h.invariant.owned_of_mem_canonical hmem
  rw [heq]
  show (book.canonical_snapshot _).orders.length < 2 ^ 64
  rw [OrderBook.length_canonical_orders]
  exact hsized _ book howned

theorem Reachable.bytes_eq_iff_canonical (h : store.Reachable) (h' : other.Reachable)
    (hsized : store.Sized) (hsized' : other.Sized) (order : HashOrder store)
    (order' : HashOrder other) (sequence sequence' : UInt64) :
    canonical_state_bytes store order sequence = canonical_state_bytes other order' sequence' ↔
      sequence = sequence' ∧ store.canonical = other.canonical := by
  rw [h.invariant.canonical_state_bytes_eq, h'.invariant.canonical_state_bytes_eq]
  obtain ⟨bytes, hbytes⟩ := h.exists_bytes sequence
  obtain ⟨bytes', hbytes'⟩ := h'.exists_bytes sequence'
  have hread := (reads_snapshot (h.canonical_sized hsized) hbytes).complete
  have hread' := (reads_snapshot (h'.canonical_sized hsized') hbytes').complete
  rw [hbytes, hbytes']
  constructor
  · intro heq
    rw [Except.ok.inj heq, hread'] at hread
    simp only [Option.some.injEq, Prod.mk.injEq, and_true] at hread
    exact ⟨hread.2.symm, hread.1.symm⟩
  · rintro ⟨rfl, hsame⟩
    rw [← hbytes, ← hbytes', hsame]

end Bytes

-- The bytes of two reachable stores are equal just when they were asked for the same
-- sequence number, and the stores have the same selected pairs and the same books.
theorem Reachable.bytes_eq_iff (h : store.Reachable) (h' : other.Reachable)
    (hsized : store.Sized) (hsized' : other.Sized) (order : HashOrder store)
    (order' : HashOrder other) (sequence sequence' : UInt64) :
    canonical_state_bytes store order sequence = canonical_state_bytes other order' sequence' ↔
      sequence = sequence' ∧
      (∀ symbol stock_locate,
        store.Selects symbol stock_locate ↔ other.Selects symbol stock_locate) ∧
      store.books_by_locate = other.books_by_locate := by
  rw [h.bytes_eq_iff_canonical h' hsized hsized', canonical_eq_iff h.invariant h'.invariant]

-- The bytes tell apart what is left of an order.
theorem sampleStore_bytes_differ :
    let store := sampleStore [.directory sampleListing, .order (.add (sampleAdd 7 60))]
    let other := sampleStore [.directory sampleListing, .order (.add (sampleAdd 7 40))]
    canonical_state_bytes store (.ascending store) 5 ≠
      canonical_state_bytes other (.ascending other) 5 := by
  intro store other hbytes
  have hstore : store.Reachable := sampleStore_reachable _
  obtain ⟨-, -, hbooks⟩ := (hstore.bytes_eq_iff (sampleStore_reachable _)
    (sized_of_count (by decide)) (sized_of_count (by decide)) (.ascending store)
    (.ascending other) 5 5).mp hbytes
  have hshares : store.displayed_shares = other.displayed_shares :=
    congrArg (FiniteMap.total OrderBook.displayed_shares) hbooks
  exact absurd hshares (by decide)

section Changes

-- A message that opens a book, or that a book is changed by.
def Changes (store : BookStore) : StoreMessage → Prop
  | .directory message => store.books_by_locate[message.header.stock_locate]? = none ∧
    (store.observe message).2.books_by_locate[message.header.stock_locate]? ≠ none
  | .order event => (store.apply_event event).1 = .ok .Applied

variable (h : store.Invariant)

include h

theorem Invariant.books_changed_of_applied {event : OrderEvent}
    (happlied : (store.apply_event event).1 = .ok .Applied) :
    (store.apply_event event).2.books_by_locate ≠ store.books_by_locate := by
  obtain ⟨book, howned, hok⟩ := (h.applied_iff event).mp happlied
  have hbook := (h.books _ book howned).1
  have haccepts := ((OrderBook.apply_ok_iff_step hbook event).mp hok).2
  rw [h.apply_event_ok howned hok]
  dsimp only
  intro hsame
  have hentry : (store.books_by_locate.insert event.stock_locate (book.apply event).2)[
      event.stock_locate]? = some book := by rw [hsame, howned]
  rw [ExtTreeMap.getElem?_insert_self, Option.some_inj] at hentry
  have hview := OrderBook.apply_view hbook hok
  rw [hentry] at hview
  exact Ledger.Step.effect_ne haccepts.1 hview.symm

omit h in
theorem observe_books_of_unchanged {message : StockDirectory}
    (hunchanged : ¬store.Changes (.directory message)) :
    (store.observe message).2.books_by_locate = store.books_by_locate := by
  change ¬(store.books_by_locate[message.header.stock_locate]? = none ∧
    (store.observe message).2.books_by_locate[message.header.stock_locate]? ≠ none) at hunchanged
  have hobserved := store.observe_spec message
  generalize store.observe message = outcome at hobserved hunchanged
  cases hobserved with
  | rejected _ => rfl
  | unselected _ _ _ => rfl
  | selected directory _ _ =>
    cases hfound : store.books_by_locate[message.header.stock_locate]? with
    | none =>
      refine absurd ⟨hfound, ?_⟩ hunchanged
      rw [FiniteMap.insertIfNew_of_none _ _ _ hfound, ExtTreeMap.getElem?_insert_self]
      exact Option.some_ne_none _
    | some book => exact FiniteMap.insertIfNew_of_some _ _ _ hfound

-- A message changes the snapshot just when it opens a book or is applied to one.
theorem Invariant.canonical_apply_iff (message : StoreMessage) :
    (store.apply message).2.canonical ≠ store.canonical ↔ store.Changes message := by
  have hnext := h.apply message
  cases message with
  | directory message =>
    constructor
    · intro hdiffers
      by_contra hunchanged
      refine hdiffers (canonical_eq_of_books_eq h ?_ (observe_books_of_unchanged hunchanged))
      rintro symbol stock_locate ⟨hsymbol, hselected⟩
      have hspec := store.symbol_directory.observe_spec message
      show (store.observe message).2.Selects symbol stock_locate
      rw [Selects, observe_directory]
      exact ⟨hspec.symbol_for_mono hsymbol, hspec.is_selected_mono hselected⟩
    · rintro ⟨hnone, hsome⟩ hsame
      have hbooks : (store.observe message).2.books_by_locate = store.books_by_locate :=
        ((canonical_eq_iff hnext h).mp hsame).2
      exact hsome (hbooks ▸ hnone)
  | order event =>
    constructor
    · intro hdiffers
      by_contra hunapplied
      exact hdiffers (congrArg canonical (h.unapplied_unchanged event hunapplied))
    · intro happlied hsame
      exact h.books_changed_of_applied happlied ((canonical_eq_iff hnext h).mp hsame).2

end Changes

-- In every reachable store a message changes the canonical bytes, at whatever sequence
-- number, just when it opens a book or is applied to one.
theorem Reachable.bytes_changed_iff (h : store.Reachable) (message : StoreMessage)
    (hsized : store.Sized) (hsized' : (store.apply message).2.Sized) (order : HashOrder store)
    (order' : HashOrder (store.apply message).2) (sequence : UInt64) :
    canonical_state_bytes (store.apply message).2 order' sequence ≠
      canonical_state_bytes store order sequence ↔ store.Changes message := by
  rw [ne_eq, (h.applied message).bytes_eq_iff_canonical h hsized' hsized, eq_self, true_and]
  exact h.invariant.canonical_apply_iff message

-- A cancellation of more than is left is not seen.
theorem sampleStore_bytes_unchanged :
    let store := sampleStore [.directory sampleListing, .order (.add (sampleAdd 7 60))]
    let refused := (store.apply (.order (.cancel (sampleCancel 61)))).2
    canonical_state_bytes refused (.ascending refused) 5 =
      canonical_state_bytes store (.ascending store) 5 := by
  intro store refused
  have hstore : store.Reachable := sampleStore_reachable _
  have hiff := hstore.bytes_changed_iff (.order (.cancel (sampleCancel 61)))
    (sized_of_count (by decide)) (sized_of_count (by decide)) (.ascending store)
    (.ascending refused) 5
  have hrefused : (store.apply_event (.cancel (sampleCancel 61))).1 ≠ .ok .Applied := by decide
  exact not_not.mp (mt hiff.mp hrefused)

end BookStore

end AegisFeed
