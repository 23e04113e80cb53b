import AegisFeed.Book.BookStore.Locality
import AegisFeed.Book.BookStore.Snapshot
import AegisFeed.Book.StateDigest

namespace AegisFeed

open Std

namespace BookStore

-- Every store below is led to by messages from one that `create` accepts. The
-- directory messages of these examples are for two stocks, the orders for the first.
section Samples

def sampleHeader (type : Char) (stock_locate : StockLocate) : ItchCommonHeader :=
  { type := type.toUInt8, stock_locate, tracking_number := 0, timestamp_ns := 0 }

def sampleListing : StockDirectory :=
  { header := sampleHeader 'R' 7,
    stock := #v['Z'.toUInt8, 32, 32, 32, 32, 32, 32, 32],
    market_category := .NasdaqGlobalSelect,
    financial_status_indicator := .Normal,
    round_lot_size := 100,
    round_lots_only := .No,
    issue_classification := 'C'.toUInt8,
    issue_subtype := #v['Z'.toUInt8, ' '.toUInt8],
    authenticity := .Production,
    short_sale_threshold_indicator := .NotRestricted,
    ipo_flag := .NotIpo,
    luld_reference_price_tier := .TierOne,
    etp_flag := .NotEtp,
    etp_leverage_factor := 0,
    inverse_indicator := .NotInverse }

def sampleSecond : StockDirectory :=
  { sampleListing with
    header := sampleHeader 'R' 8,
    stock := #v['Y'.toUInt8, 32, 32, 32, 32, 32, 32, 32] }

def sampleAdd (stock_locate : StockLocate) (shares : Shares) : AddOrder :=
  { header := sampleHeader 'A' stock_locate, order_reference := 1, side := .Buy, shares,
    stock := sampleListing.stock, price_1e4 := 1000000, attribution := none }

def sampleCancel (shares : Shares) : OrderCancel :=
  { header := sampleHeader 'X' 7, order_reference := 1, cancelled_shares := shares }

-- The store that requested the sample stock, before any message.
def sampleStart : BookStore :=
  { symbol_directory :=
      { symbols_by_locate := ∅,
        requested_symbols := (∅ : ExtTreeMap Symbol (Option StockLocate) compare).insertIfNew
          ['Z'.toUInt8] none,
        discovered_requested_symbol_count := 0 },
    books_by_locate := ∅,
    expected_active_order_capacity_per_book := 0 }

theorem sampleStart_created : create [['z'.toUInt8, ' '.toUInt8]] 0 = .ok sampleStart := by
  rfl

-- The start of a store that requested a second stock besides the sample stock.
def sampleWide : BookStore :=
  { sampleStart with symbol_directory :=
      { sampleStart.symbol_directory with requested_symbols :=
          sampleStart.symbol_directory.requested_symbols.insertIfNew ['Y'.toUInt8] none } }

theorem sampleWide_created :
    create [['z'.toUInt8, ' '.toUInt8], ['Y'.toUInt8]] 0 = .ok sampleWide := by
  rfl

def sampleStore (messages : List StoreMessage) : BookStore :=
  Machine.run BookStore.apply sampleStart messages

theorem sampleStore_reachable (messages : List StoreMessage) :
    (sampleStore messages).Reachable :=
  (Reachable.created sampleStart_created).run messages

end Samples

-- A store and its directory agree: it owns one book for every selected locate and
-- no other, under the symbol of that locate, and a snapshot shows each of them once.
structure Coherent (store : BookStore) : Prop where
  owned : ∀ stock_locate, store.books_by_locate.contains stock_locate ↔
    store.symbol_directory.is_selected stock_locate
  keyed : ∀ (stock_locate : StockLocate) (book : OrderBook),
    store.books_by_locate[stock_locate]? = some book → book.stock_locate = stock_locate
  distinct : ∀ first second symbol, store.books_by_locate.contains first →
    store.books_by_locate.contains second →
    store.symbol_directory.symbol_for first = some symbol →
    store.symbol_directory.symbol_for second = some symbol → first = second
  resolves : ∀ stock_locate error, store.resolve_book stock_locate = .error error →
    error = Error.unknown_stock_locate stock_locate
  snapshot : ∀ order : HashOrder store, ∃ snapshot,
    store.canonical_snapshot order = .ok snapshot ∧
    (∀ stock_locate, store.symbol_directory.is_selected stock_locate ↔
      stock_locate ∈ snapshot.books.map fun entry => entry.book.stock_locate) ∧
    (snapshot.books.map fun entry => entry.book.stock_locate).Nodup ∧
    (∀ entry ∈ snapshot.books,
      store.symbol_directory.symbol_for entry.book.stock_locate = some entry.symbol) ∧
    snapshot.books.Pairwise (fun a b => compare a.symbol b.symbol = .lt) ∧
    ∀ entry ∈ snapshot.books, entry.book.Ordered

theorem Invariant.resolve_book_error {store : BookStore} (h : store.Invariant)
    {stock_locate : StockLocate} {error : Error}
    (herror : store.resolve_book stock_locate = .error error) :
    error = Error.unknown_stock_locate stock_locate := by
  unfold resolve_book at herror
  split at herror
  · cases herror
    rfl
  split at herror
  · cases herror
  · rename_i hselected
    obtain ⟨book, howned⟩ := h.book_of_selected (not_not.mp hselected)
    rw [howned] at herror
    cases herror

theorem Invariant.distinct_symbols {store : BookStore} (h : store.Invariant)
    {first second : StockLocate} {symbol : Symbol}
    (howned : store.books_by_locate.contains first)
    (hfirst : store.symbol_directory.symbol_for first = some symbol)
    (hsecond : store.symbol_directory.symbol_for second = some symbol) : first = second := by
  obtain ⟨found, hfound, hrequested⟩ :=
    (SymbolDirectory.is_selected_iff _ _).mp ((h.owned first).mp howned)
  cases hfound.symm.trans hfirst
  exact h.directory.symbol_for_inj hfirst hsecond hrequested

theorem Reachable.coherent {store : BookStore} (h : store.Reachable) : store.Coherent := by
  have hinv := h.invariant
  constructor
  case owned => exact hinv.owned
  case keyed => exact fun _ book howned => (hinv.books _ book howned).2
  case distinct => exact fun _ _ _ howned _ => hinv.distinct_symbols howned
  case resolves => exact fun _ _ => hinv.resolve_book_error
  case snapshot =>
    intro order
    exact ⟨store.canonical, hinv.canonical_snapshot_ok order,
      fun stock_locate => (hinv.mem_canonical_locates stock_locate).symm,
      hinv.canonical_locates_nodup, fun _ => hinv.canonical_symbol_for, hinv.canonical_strict,
      fun _ => hinv.canonical_ordered⟩

theorem sampleStore_coherent :
    (sampleStore [.directory sampleListing, .order (.add (sampleAdd 7 60))]).Coherent :=
  Reachable.coherent (sampleStore_reachable _)

section Digest

variable {store : BookStore} (h : store.Invariant)

include h

theorem Invariant.canonical_state_bytes_eq (order : HashOrder store) (sequence : UInt64) :
    canonical_state_bytes store order sequence = encode_snapshot store.canonical sequence := by
  unfold canonical_state_bytes
  rw [h.canonical_snapshot_ok order]

-- The digest is a function of the snapshot.
theorem Invariant.compute_state_digest_eq (order : HashOrder store) (sequence : UInt64) :
    compute_state_digest store order sequence =
      match encode_snapshot store.canonical sequence with
      | .error error => .error error
      | .ok bytes => summarize store.canonical (fnv1a64 bytes) sequence := by
  cases hencoded : encode_snapshot store.canonical sequence with
  | error error => simp only [compute_state_digest, h.canonical_snapshot_ok order, hencoded]
  | ok bytes => simp only [compute_state_digest, h.canonical_snapshot_ok order, hencoded]

end Digest

-- Two stores with equal snapshots, bytes and digests, however their hash maps are
-- iterated.
structure SameState (store other : BookStore) : Prop where
  snapshot : ∀ (order : HashOrder store) (order' : HashOrder other),
    store.canonical_snapshot order = other.canonical_snapshot order'
  bytes : ∀ (order : HashOrder store) (order' : HashOrder other) (sequence : UInt64),
    canonical_state_bytes store order sequence = canonical_state_bytes other order' sequence
  digest : ∀ (order : HashOrder store) (order' : HashOrder other) (sequence : UInt64),
    compute_state_digest store order sequence = compute_state_digest other order' sequence

theorem SameState.of_canonical_eq {store other : BookStore} (h : store.Invariant)
    (h' : other.Invariant) (heq : store.canonical = other.canonical) : SameState store other := by
  refine ⟨?_, ?_, ?_⟩
  · intro order order'
    rw [h.canonical_snapshot_ok order, h'.canonical_snapshot_ok order', heq]
  · intro order order' sequence
    rw [h.canonical_state_bytes_eq order, h'.canonical_state_bytes_eq order', heq]
  · intro order order' sequence
    rw [h.compute_state_digest_eq order, h'.compute_state_digest_eq order', heq]

def StoreResponse.Failed : StoreResponse → Prop
  | .observed (.error _) => True
  | .routed (.error _) => True
  | .routed (.ok .KnownUnselected) => True
  | _ => False

-- What a message may change: nothing when it fails, the book of its locate when an
-- event is applied, the directory and a new empty book when the directory learns.
structure Framed (store : BookStore) (message : StoreMessage) : Prop where
  unchanged : StoreResponse.Failed (store.apply message).1 →
    (store.apply message).2 = store ∧ SameState (store.apply message).2 store
  applied : ∀ event, message = .order event →
    (store.apply message).1 = .routed (.ok .Applied) →
    (store.apply message).2.symbol_directory = store.symbol_directory ∧
    ∀ stock_locate, stock_locate ≠ event.stock_locate →
      (store.apply message).2.books_by_locate[stock_locate]? =
        store.books_by_locate[stock_locate]?
  observed : ∀ directory, message = .directory directory →
    (store.apply message).1 = .observed (.ok ()) →
    (∀ (stock_locate : StockLocate) (book : OrderBook),
      store.books_by_locate[stock_locate]? = some book →
      (store.apply message).2.books_by_locate[stock_locate]? = some book) ∧
    ∀ (stock_locate : StockLocate) (book : OrderBook),
      store.books_by_locate[stock_locate]? = none →
      (store.apply message).2.books_by_locate[stock_locate]? = some book →
      stock_locate = directory.header.stock_locate ∧ book.stock_locate = stock_locate ∧
        book.active_orders = ∅ ∧ book.bids = ∅ ∧ book.asks = ∅

theorem Invariant.failed_unchanged {store : BookStore} (h : store.Invariant)
    {message : StoreMessage} (hfailed : StoreResponse.Failed (store.apply message).1) :
    (store.apply message).2 = store := by
  cases message with
  | directory message =>
    have hspec := observe_spec store message
    simp only [BookStore.apply] at hfailed ⊢
    generalize store.observe message = outcome at hspec hfailed
    cases hspec with
    | rejected error => rfl
    | unselected _ _ _ => exact absurd hfailed id
    | selected _ _ _ => exact absurd hfailed id
  | order event =>
    refine h.unapplied_unchanged event fun happlied => ?_
    change StoreResponse.Failed (.routed (store.apply_event event).1) at hfailed
    rw [happlied] at hfailed
    exact hfailed

theorem Observed.book_kept {store : BookStore} {message : StockDirectory}
    {outcome : Result Unit × BookStore} (hobserved : Observed store message outcome)
    {stock_locate : StockLocate} {book : OrderBook}
    (howned : store.books_by_locate[stock_locate]? = some book) :
    outcome.2.books_by_locate[stock_locate]? = some book := by
  cases hobserved with
  | rejected _ => exact howned
  | unselected _ _ _ => exact howned
  | selected _ _ _ =>
    rw [FiniteMap.getElem?_insertIfNew, if_neg]
    · exact howned
    · rintro ⟨rfl, hnone⟩
      rw [hnone] at howned
      cases howned

-- A book that was not there before is the empty book of the message's locate.
theorem Observed.book_new {store : BookStore} {message : StockDirectory}
    {outcome : Result Unit × BookStore} (hobserved : Observed store message outcome)
    {stock_locate : StockLocate} {book : OrderBook}
    (hnone : store.books_by_locate[stock_locate]? = none)
    (hsome : outcome.2.books_by_locate[stock_locate]? = some book) :
    stock_locate = message.header.stock_locate ∧ book.stock_locate = stock_locate ∧
      book.active_orders = ∅ ∧ book.bids = ∅ ∧ book.asks = ∅ := by
  have hold : store.books_by_locate[stock_locate]? ≠ some book := by
    rw [hnone]
    exact (Option.some_ne_none book).symm
  cases hobserved with
  | rejected _ => exact absurd hsome hold
  | unselected _ _ _ => exact absurd hsome hold
  | selected _ _ _ =>
    rw [FiniteMap.getElem?_insertIfNew] at hsome
    split_ifs at hsome with hnew
    · cases hsome
      exact ⟨hnew.1.symm, hnew.1, rfl, rfl, rfl⟩
    · exact absurd hsome hold

theorem Reachable.framed {store : BookStore} (h : store.Reachable) (message : StoreMessage) :
    store.Framed message := by
  have hinv := h.invariant
  constructor
  case unchanged =>
    intro hfailed
    have hsame := hinv.failed_unchanged hfailed
    refine ⟨hsame, ?_⟩
    rw [hsame]
    exact SameState.of_canonical_eq hinv hinv rfl
  case applied =>
    rintro event rfl _
    exact ⟨store.apply_event_directory event, fun _ hne => store.apply_event_book_of_ne event hne⟩
  case observed =>
    rintro directory rfl _
    have hspec := observe_spec store directory
    exact ⟨fun _ _ howned => hspec.book_kept howned,
      fun _ _ hnone hsome => hspec.book_new hnone hsome⟩

theorem sampleStore_framed :
    (sampleStore [.directory sampleListing, .order (.add (sampleAdd 7 60))]).Framed
      (.order (.cancel (sampleCancel 70))) :=
  Reachable.framed (sampleStore_reachable _) _

-- The selected pairs of a store, and the orders of a selected locate as displayed.
def Selects (store : BookStore) (symbol : Symbol) (stock_locate : StockLocate) : Prop :=
  store.symbol_directory.symbol_for stock_locate = some symbol ∧
    store.symbol_directory.is_selected stock_locate

def displayed (store : BookStore) (stock_locate : StockLocate) (id : OrderId) :
    Option (OrderId × Side × Price4 × Shares × Attribution × Bool) :=
  match store.books_by_locate[stock_locate]? with
  | none => none
  | some book => book.active_orders[id]?.map fun order =>
    (order.id, order.side, order.price, order.remaining, order.attribution,
      order.has_attribution)

def displayedFields (order : OrderRecord) :
    OrderId × Side × Price4 × Shares × Attribution × Bool :=
  (order.id, order.side, order.price, order.remaining, order.attribution, order.has_attribution)

theorem displayed_of_owned {store : BookStore} {stock_locate : StockLocate} {book : OrderBook}
    (howned : store.books_by_locate[stock_locate]? = some book) (id : OrderId) :
    store.displayed stock_locate id = book.active_orders[id]?.map displayedFields := by
  simp only [displayed, howned]
  rfl

-- The locate is the only field of an order record that is not displayed.
theorem order_eq_of_displayed_eq {order order' : OrderRecord}
    (hlocate : order.stock_locate = order'.stock_locate)
    (hfields : displayedFields order = displayedFields order') : order = order' := by
  rcases order with ⟨_, _, _, _, _, _, _⟩
  rcases order' with ⟨_, _, _, _, _, _, _⟩
  simp only [displayedFields, Prod.mk.injEq] at hlocate hfields ⊢
  simp [hfields, hlocate]

-- Equal displayed orders at a locate mean equal books.
theorem book_eq_of_displayed_eq {store other : BookStore} (h : store.Invariant)
    (h' : other.Invariant) {stock_locate : StockLocate} {book book' : OrderBook}
    (howned : store.books_by_locate[stock_locate]? = some book)
    (howned' : other.books_by_locate[stock_locate]? = some book')
    (hdisplayed : ∀ id, store.displayed stock_locate id = other.displayed stock_locate id) :
    book = book' := by
  obtain ⟨hbook, hlocate⟩ := h.books stock_locate book howned
  obtain ⟨hbook', hlocate'⟩ := h'.books stock_locate book' howned'
  have hlocates : book.stock_locate = book'.stock_locate := hlocate.trans hlocate'.symm
  refine hbook.unique hbook' hlocates (FiniteMap.eq_of_map_eq displayedFields ?_ ?_)
  · intro id
    rw [← displayed_of_owned howned, ← displayed_of_owned howned']
    exact hdisplayed id
  · intro id order order' hfound hfound' hfields
    refine order_eq_of_displayed_eq ?_ hfields
    rw [(hbook.orders id order hfound).locate_eq, (hbook'.orders id order' hfound').locate_eq,
      hlocates]

theorem is_selected_of_selects {store other : BookStore}
    (hselects : ∀ symbol stock_locate,
      store.Selects symbol stock_locate → other.Selects symbol stock_locate)
    {stock_locate : StockLocate} (hselected : store.symbol_directory.is_selected stock_locate) :
    other.symbol_directory.is_selected stock_locate := by
  obtain ⟨symbol, hsymbol, _⟩ := (SymbolDirectory.is_selected_iff _ _).mp hselected
  exact (hselects symbol stock_locate ⟨hsymbol, hselected⟩).2

theorem books_eq_of_displayed_eq {store other : BookStore} (h : store.Invariant)
    (h' : other.Invariant)
    (hselected : ∀ stock_locate, store.symbol_directory.is_selected stock_locate ↔
      other.symbol_directory.is_selected stock_locate)
    (hdisplayed : ∀ stock_locate, store.symbol_directory.is_selected stock_locate →
      ∀ id, store.displayed stock_locate id = other.displayed stock_locate id) :
    store.books_by_locate = other.books_by_locate := by
  apply ExtTreeMap.ext_getElem?
  intro stock_locate
  by_cases hs : store.symbol_directory.is_selected stock_locate
  · obtain ⟨book, howned⟩ := h.book_of_selected hs
    obtain ⟨book', howned'⟩ := h'.book_of_selected ((hselected stock_locate).mp hs)
    rw [howned, howned', book_eq_of_displayed_eq h h' howned howned'
      (hdisplayed stock_locate hs)]
  · have hs' : ¬other.symbol_directory.is_selected stock_locate :=
      fun hs' => hs ((hselected stock_locate).mpr hs')
    rw [← h.owned] at hs
    rw [← h'.owned] at hs'
    rw [(FiniteMap.not_contains_iff _ _).mp hs, (FiniteMap.not_contains_iff _ _).mp hs']

-- The snapshot reads the directory only at the selected locates.
theorem canonical_eq_of_books_eq {store other : BookStore} (h' : other.Invariant)
    (hselects : ∀ symbol stock_locate,
      other.Selects symbol stock_locate → store.Selects symbol stock_locate)
    (hbooks : store.books_by_locate = other.books_by_locate) :
    store.canonical = other.canonical := by
  unfold canonical
  rw [hbooks]
  congr 2
  apply List.map_congr_left
  rintro ⟨stock_locate, book⟩ hentry
  have howned := ExtTreeMap.mem_toList_iff_getElem?_eq_some.mp hentry
  obtain ⟨symbol, hsymbol, hrequested⟩ := h'.symbol_of_owned howned
  have hpair : other.Selects symbol stock_locate :=
    ⟨hsymbol, (SymbolDirectory.is_selected_iff _ _).mpr ⟨symbol, hsymbol, hrequested⟩⟩
  unfold canonicalEntry
  rw [(hselects symbol stock_locate hpair).1, hsymbol]

-- The selected pairs and their displayed orders determine the state.
theorem Reachable.same_state {store other : BookStore} (h : store.Reachable)
    (h' : other.Reachable)
    (hselects : ∀ symbol stock_locate,
      store.Selects symbol stock_locate ↔ other.Selects symbol stock_locate)
    (hdisplayed : ∀ stock_locate, store.symbol_directory.is_selected stock_locate →
      ∀ id, store.displayed stock_locate id = other.displayed stock_locate id) :
    SameState store other := by
  have hinv := h.invariant
  have hinv' := h'.invariant
  have hselected : ∀ stock_locate, store.symbol_directory.is_selected stock_locate ↔
      other.symbol_directory.is_selected stock_locate := fun stock_locate =>
    ⟨is_selected_of_selects fun symbol locate => (hselects symbol locate).mp,
      is_selected_of_selects fun symbol locate => (hselects symbol locate).mpr⟩
  have hbooks := books_eq_of_displayed_eq hinv hinv' hselected hdisplayed
  have hcanonical := canonical_eq_of_books_eq hinv'
    (fun symbol locate => (hselects symbol locate).mpr) hbooks
  exact SameState.of_canonical_eq hinv hinv' hcanonical

theorem sampleStore_same_state :
    SameState
      (sampleStore [.directory sampleListing, .order (.add (sampleAdd 7 60))])
      (sampleStore [.directory sampleListing, .order (.add (sampleAdd 7 100)),
        .directory sampleListing, .order (.cancel (sampleCancel 40))]) := by
  have heq : sampleStore [.directory sampleListing, .order (.add (sampleAdd 7 60))] =
      sampleStore [.directory sampleListing, .order (.add (sampleAdd 7 100)),
        .directory sampleListing, .order (.cancel (sampleCancel 40))] := by
    decide
  refine Reachable.same_state (sampleStore_reachable _) (sampleStore_reachable _) ?_ ?_
  · intro symbol stock_locate
    rw [heq]
  · intro stock_locate _ id
    rw [heq]

-- Two runs from creation with the same directory messages and, at every locate, the
-- same messages: the order between different locates leaves no trace.
theorem run_independent {requested_symbols : List Symbol} {capacity : UInt64}
    {store : BookStore} (hcreate : create requested_symbols capacity = .ok store)
    (first second : List StoreMessage)
    (hdirectory : first.filter StoreMessage.is_directory =
      second.filter StoreMessage.is_directory)
    (hlocate : ∀ stock_locate,
      first.filter (fun message => message.stock_locate = stock_locate) =
        second.filter fun message => message.stock_locate = stock_locate) :
    Machine.run BookStore.apply store first = Machine.run BookStore.apply store second ∧
    (Machine.transcript BookStore.apply store first).filter
        (fun entry => entry.1.is_directory) =
      (Machine.transcript BookStore.apply store second).filter
        (fun entry => entry.1.is_directory) ∧
    (∀ stock_locate,
      (Machine.transcript BookStore.apply store first).filter
          (fun entry => entry.1.stock_locate = stock_locate) =
        (Machine.transcript BookStore.apply store second).filter
          fun entry => entry.1.stock_locate = stock_locate) ∧
    SameState (Machine.run BookStore.apply store first)
      (Machine.run BookStore.apply store second) := by
  have hsame : Machine.SameOnChannels StoreMessage.uses first second := by
    intro channel
    cases channel with
    | none => exact hdirectory
    | some stock_locate => exact hlocate stock_locate
  obtain ⟨hrun, htranscript⟩ := Machine.run_eq_of_sameOnChannels apply_stepsCommute
    (fun message => ⟨some message.stock_locate, by simp [StoreMessage.uses]⟩) store first second
    hsame
  have hinv := ((Reachable.created hcreate).run second).invariant
  refine ⟨hrun, htranscript none, fun stock_locate => htranscript (some stock_locate), ?_⟩
  rw [hrun]
  exact SameState.of_canonical_eq hinv hinv rfl

-- The event for the unselected locate may come before the listing of the other one.
theorem sampleStart_independent :
    Machine.run BookStore.apply sampleStart
        [.directory sampleListing, .order (.add (sampleAdd 7 60)),
          .order (.add (sampleAdd 8 10))] =
      Machine.run BookStore.apply sampleStart
        [.order (.add (sampleAdd 8 10)), .directory sampleListing,
          .order (.add (sampleAdd 7 60))] := by
  refine (run_independent sampleStart_created
    [.directory sampleListing, .order (.add (sampleAdd 7 60)), .order (.add (sampleAdd 8 10))]
    [.order (.add (sampleAdd 8 10)), .directory sampleListing, .order (.add (sampleAdd 7 60))]
    rfl ?_).1
  intro stock_locate
  have hlisting : (StoreMessage.directory sampleListing).stock_locate = 7 := rfl
  have hfirst : (StoreMessage.order (.add (sampleAdd 7 60))).stock_locate = 7 := rfl
  have hsecond : (StoreMessage.order (.add (sampleAdd 8 10))).stock_locate = 8 := rfl
  simp only [List.filter_cons, hlisting, hfirst, hsecond]
  by_cases h7 : 7 = stock_locate
  · subst h7
    rfl
  · simp [h7]

end BookStore

end AegisFeed
