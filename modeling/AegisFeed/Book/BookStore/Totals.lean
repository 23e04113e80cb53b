import AegisFeed.Book.BookStore.Theorems
import AegisFeed.Book.OrderBook.Totals
import AegisFeed.Book.StateDigest.Counters
import AegisFeed.Book.StateDigest.Decoding
import AegisFeed.Book.SymbolDirectory.Discovery

namespace AegisFeed

open Std
open FiniteMap (total)

-- The sizes for which the fixed-width fields of the encoding leave room.
structure CanonicalBook.Bounded (canonical_book : CanonicalBook) : Prop where
  symbol_nonempty : 1 ≤ canonical_book.symbol.length
  symbol : canonical_book.symbol.length ≤ kStockSymbolWidth
  bids : canonical_book.book.bids.length ≤ kMaxPrice4.toNat + 1
  asks : canonical_book.book.asks.length ≤ kMaxPrice4.toNat + 1

structure CanonicalBookStore.Bounded (snapshot : CanonicalBookStore) : Prop where
  count : snapshot.books.length ≤ 2 ^ 16
  books : ∀ canonical_book ∈ snapshot.books, canonical_book.Bounded

section Encoding

theorem toNat_size_of_length {α : Type} {container : List α} {length : Nat}
    (h : container.length = length) (hlt : length < 2 ^ 64) : (size container).toNat = length := by
  rw [toNat_size (h ▸ hlt), h]

theorem size_le {α : Type} {container : List α} {limit : UInt64}
    (h : container.length ≤ limit.toNat) : ¬size container > limit := by
  have hlimit := limit.toNat_lt
  rw [gt_iff_lt, UInt64.lt_iff_toNat_lt, toNat_size (h.trans_lt hlimit)]
  omega

theorem CanonicalBook.Bounded.encode_ok {canonical_book : CanonicalBook}
    (h : canonical_book.Bounded) : ∃ bytes, encode_book canonical_book = .ok bytes := by
  have hsymbol : ¬size canonical_book.symbol > 0xFF :=
    size_le (h.symbol.trans (by decide))
  have hbids : ¬size canonical_book.book.bids > uint32_max.toUInt64 :=
    size_le (h.bids.trans (by decide))
  have hasks : ¬size canonical_book.book.asks > uint32_max.toUInt64 :=
    size_le (h.asks.trans (by decide))
  unfold encode_book
  rw [if_neg hsymbol, if_neg hbids, if_neg hasks]
  exact ⟨_, rfl⟩

theorem CanonicalBookStore.Bounded.encode_ok {snapshot : CanonicalBookStore}
    (h : snapshot.Bounded) (last_mold_sequence : UInt64) :
    ∃ bytes, encode_snapshot snapshot last_mold_sequence = .ok bytes := by
  have hcount : ¬size snapshot.books > uint32_max.toUInt64 :=
    size_le (h.count.trans (by decide))
  obtain ⟨books, hbooks⟩ := Fallible.exists_mapM_ok fun canonical_book hmem =>
    (h.books canonical_book hmem).encode_ok
  unfold encode_snapshot
  rw [if_neg hcount, hbooks]
  exact ⟨_, rfl⟩

end Encoding

namespace BookStore

-- The exact totals of a store.
def displayed_shares (store : BookStore) : Nat :=
  total OrderBook.displayed_shares store.books_by_locate

def active_order_count (store : BookStore) : Nat :=
  total (fun book => book.active_orders.size) store.books_by_locate

-- Every hash map in ascending order.
def HashOrder.ascending (store : BookStore) : HashOrder store :=
  { books := FiniteMap.Visit.ascending store.books_by_locate,
    orders := fun _ book => FiniteMap.Visit.ascending book.active_orders }

-- The pairs of a book and a price at which an order of the side rests.
def restingLevels (store : BookStore) (side : Side) : Set (StockLocate × Price4) :=
  {pair | ∃ book, store.books_by_locate[pair.1]? = some book ∧
    pair.2 ∈ restingPrices book.active_orders side}

theorem Reachable.accurate {store : BookStore} (h : store.Reachable) :
    store.symbol_directory.Accurate := by
  induction h with
  | created hcreate =>
    obtain ⟨hdirectory, -⟩ := create_directory hcreate
    exact (SymbolDirectory.create_created hdirectory).accurate
  | @applied store _ message ih =>
    cases message with
    | directory message =>
      show (store.observe message).2.symbol_directory.Accurate
      rw [observe_directory]
      exact ih.observe message
    | order event =>
      show (store.apply_event event).2.symbol_directory.Accurate
      rw [apply_event_directory]
      exact ih

section Canonical

variable {store : BookStore}

-- A sum over the books of the snapshot is one over the books of the store.
theorem sum_canonical (amount : CanonicalBook → Nat) (measure : OrderBook → Nat)
    (hamount : ∀ (stock_locate : StockLocate) (book : OrderBook),
      store.books_by_locate[stock_locate]? = some book →
        amount (store.canonicalEntry (stock_locate, book)) = measure book) :
    (store.canonical.books.map amount).sum = total measure store.books_by_locate := by
  unfold canonical total
  rw [((Sorting.sortBy_perm compare CanonicalBook.symbol _).map amount).sum_eq, List.map_map]
  apply congrArg List.sum
  apply List.map_congr_left
  intro entry hentry
  exact hamount entry.1 entry.2 (ExtTreeMap.mem_toList_iff_getElem?_eq_some.mp hentry)

theorem amounts_sizes {counter : Counter}
    (hcounter : counter ≠ .aggregate_displayed_shares) (measure : OrderBook → Nat)
    (hmeasure : ∀ (stock_locate : StockLocate) (book : OrderBook),
      store.books_by_locate[stock_locate]? = some book →
        (store.canonicalEntry (stock_locate, book)).book.sizes counter = measure book) :
    store.canonical.amounts counter = total measure store.books_by_locate := by
  rw [CanonicalBookStore.amounts_apply]
  refine sum_canonical _ _ ?_
  intro stock_locate book howned
  rw [CanonicalBook.amounts_of_ne _ hcounter]
  exact hmeasure stock_locate book howned

theorem length_canonical : store.canonical.books.length = store.books_by_locate.size := by
  unfold canonical
  rw [(Sorting.sortBy_perm compare CanonicalBook.symbol _).length_eq, List.length_map,
    ExtTreeMap.length_toList]

variable (h : store.Invariant)

include h

-- One book for every discovered symbol.
theorem Invariant.book_count :
    store.books_by_locate.size = store.symbol_directory.discovered_count := by
  have hmem : ∀ stock_locate, stock_locate ∈ store.books_by_locate.keys ↔
      stock_locate ∈ store.symbol_directory.discovered_locates := by
    intro stock_locate
    rw [ExtTreeMap.mem_keys, ← ExtTreeMap.contains_iff_mem, h.owned,
      h.directory.mem_discovered_locates_iff]
  have hperm := (List.perm_ext_iff_of_nodup ExtTreeMap.nodup_keys
    h.directory.discovered_locates_nodup).mpr hmem
  rw [← ExtTreeMap.length_keys, hperm.length_eq, SymbolDirectory.length_discovered_locates]

theorem Invariant.book_count_le : store.books_by_locate.size ≤ 2 ^ 16 := by
  rw [h.book_count]
  exact h.directory.discovered_count_le

theorem Invariant.bounded (haccurate : store.symbol_directory.Accurate) :
    store.canonical.Bounded := by
  refine ⟨?_, ?_⟩
  · rw [length_canonical]
    exact h.book_count_le
  · intro canonical_book hmem
    obtain ⟨book, howned, heq⟩ := h.owned_of_mem_canonical hmem
    have hbook := (h.books _ book howned).1
    have hsymbol := haccurate.known _ _ (h.canonical_symbol_for hmem)
    have hbids : canonical_book.book.bids.length = book.bids.size := by
      rw [heq]
      exact OrderBook.length_canonicalLevels book.bids
    have hasks : canonical_book.book.asks.length = book.asks.size := by
      rw [heq]
      exact OrderBook.length_canonicalLevels book.asks
    refine ⟨List.length_pos_iff.mpr hsymbol.nonempty, hsymbol.width, ?_, ?_⟩
    · rw [hbids]
      exact hbook.bids.size_le hbook.price_le
    · rw [hasks]
      exact hbook.asks.size_le hbook.price_le

theorem Invariant.amounts_shares :
    store.canonical.amounts .aggregate_displayed_shares = store.displayed_shares := by
  rw [CanonicalBookStore.amounts_apply]
  refine sum_canonical _ _ ?_
  intro stock_locate book howned
  have hbook := (h.books stock_locate book howned).1
  rw [CanonicalBook.amounts_shares, hbook.displayed_shares_eq, ← OrderBook.sum_canonicalLevels,
    ← OrderBook.sum_canonicalLevels]
  rfl

-- No book has more orders than shares, so their number is exact where the shares fit.
theorem Invariant.amounts_orders (hfits : store.displayed_shares < 2 ^ 64) :
    store.canonical.amounts .active_order_count = store.active_order_count := by
  refine amounts_sizes (by decide) _ ?_
  intro stock_locate book howned
  have hbook := (h.books stock_locate book howned).1
  have hshares : book.displayed_shares ≤ store.displayed_shares :=
    FiniteMap.le_total OrderBook.displayed_shares _ stock_locate book howned
  have horders := hbook.size_le_displayed_shares
  exact toNat_size_of_length (OrderBook.length_canonical_orders book _) (by omega)

theorem Invariant.active_order_count_le : store.active_order_count ≤ store.displayed_shares :=
  FiniteMap.total_le _ _ _ fun stock_locate book howned =>
    (h.books stock_locate book howned).1.size_le_displayed_shares

-- The levels of one side, in all books.
section Levels

variable {order : Price4 → Price4 → Ordering} [TransCmp order] [LawfulEqCmp order] {side : Side}
  {levels : OrderBook → LevelMap order}
  (hlevels : ∀ book : OrderBook, book.Invariant →
    LevelsMatch (levels book) book.active_orders side)

include hlevels

theorem Invariant.amounts_levels {counter : Counter}
    (hcounter : counter ≠ .aggregate_displayed_shares)
    (hsizes : ∀ (stock_locate : StockLocate) (book : OrderBook),
      (store.canonicalEntry (stock_locate, book)).book.sizes counter =
        (size (OrderBook.canonicalLevels (levels book))).toNat) :
    store.canonical.amounts counter =
      total (fun book => (levels book).size) store.books_by_locate := by
  refine amounts_sizes hcounter _ ?_
  intro stock_locate book howned
  have hbook := (h.books stock_locate book howned).1
  have hlt := hbook.size_lt (hlevels book hbook)
  rw [hsizes]
  exact toNat_size_of_length (OrderBook.length_canonicalLevels (levels book)) (by omega)

-- The level counts of all books together are far below 2^64.
theorem Invariant.total_levels_lt :
    total (fun book => (levels book).size) store.books_by_locate < 2 ^ 64 := by
  have hcount := h.book_count_le
  have htotal : total (fun book => (levels book).size) store.books_by_locate ≤
      store.books_by_locate.size * 2 ^ 32 := by
    refine FiniteMap.total_le_size_mul _ _ ?_
    intro stock_locate book howned
    have hbook := (h.books stock_locate book howned).1
    exact (hbook.size_lt (hlevels book hbook)).le
  omega

theorem Invariant.ncard_levels : (store.restingLevels side).ncard =
    total (fun book => (levels book).size) store.books_by_locate := by
  rw [← FiniteMap.ncard_pairs levels]
  congr 1
  ext pair
  refine exists_congr fun book => and_congr_right fun howned => ?_
  exact ((hlevels book (h.books pair.1 book howned).1).mem_iff pair.2).symm

end Levels

theorem Invariant.amounts_bids : store.canonical.amounts .bid_level_count =
    total (fun book => book.bids.size) store.books_by_locate :=
  h.amounts_levels (fun _ hbook => hbook.bids) (by decide) fun _ _ => rfl

theorem Invariant.amounts_asks : store.canonical.amounts .ask_level_count =
    total (fun book => book.asks.size) store.books_by_locate :=
  h.amounts_levels (fun _ hbook => hbook.asks) (by decide) fun _ _ => rfl

end Canonical

section Digest

variable {store : BookStore} (h : store.Reachable) (order : HashOrder store)
  (last_mold_sequence : UInt64)

include h

theorem Reachable.exists_bytes :
    ∃ bytes, encode_snapshot store.canonical last_mold_sequence = .ok bytes :=
  (h.invariant.bounded h.accurate).encode_ok last_mold_sequence

-- The digest of the state is the summary of the snapshot.
theorem Reachable.digest_eq : ∃ bytes,
    canonical_state_bytes store order last_mold_sequence = .ok bytes ∧
    compute_state_digest store order last_mold_sequence =
      summarize store.canonical (fnv1a64 bytes) last_mold_sequence := by
  obtain ⟨bytes, hbytes⟩ := h.exists_bytes last_mold_sequence
  refine ⟨bytes, ?_, ?_⟩
  · rw [h.invariant.canonical_state_bytes_eq, hbytes]
  · rw [h.invariant.compute_state_digest_eq, hbytes]

theorem Reachable.exists_digest_iff :
    (∃ digest, compute_state_digest store order last_mold_sequence = .ok digest) ↔
      store.displayed_shares < 2 ^ 64 := by
  have hinv := h.invariant
  obtain ⟨bytes, -, hdigest⟩ := h.digest_eq order last_mold_sequence
  rw [hdigest, exists_summarize_iff]
  constructor
  · intro hfits
    have hshares := hfits .aggregate_displayed_shares
    rwa [hinv.amounts_shares] at hshares
  · intro hfits counter
    cases counter with
    | active_order_count =>
      rw [hinv.amounts_orders hfits]
      exact hinv.active_order_count_le.trans_lt hfits
    | bid_level_count =>
      rw [hinv.amounts_bids]
      exact hinv.total_levels_lt fun _ hbook => hbook.bids
    | ask_level_count =>
      rw [hinv.amounts_asks]
      exact hinv.total_levels_lt fun _ hbook => hbook.asks
    | aggregate_displayed_shares => rwa [hinv.amounts_shares]

variable {order last_mold_sequence}

-- What a digest says of its store.
structure DigestExact (store : BookStore) (last_mold_sequence : UInt64) (digest : StateDigest) :
    Prop where
  symbol_count : digest.symbol_count.toNat = store.symbol_directory.discovered_count
  active_order_count : digest.active_order_count.toNat = store.active_order_count
  bid_level_count : digest.bid_level_count.toNat = (store.restingLevels Side.Buy).ncard
  ask_level_count : digest.ask_level_count.toNat = (store.restingLevels Side.Sell).ncard
  aggregate_displayed_shares : digest.aggregate_displayed_shares.toNat = store.displayed_shares
  last_mold_sequence : digest.last_mold_sequence = last_mold_sequence

theorem Reachable.digestExact {digest : StateDigest}
    (hok : compute_state_digest store order last_mold_sequence = .ok digest) :
    store.DigestExact last_mold_sequence digest := by
  have hinv := h.invariant
  have hfits := (h.exists_digest_iff order last_mold_sequence).mp ⟨digest, hok⟩
  obtain ⟨bytes, -, hdigest⟩ := h.digest_eq order last_mold_sequence
  rw [hdigest, summarize_ok_iff] at hok
  have hcount : ∀ counter, (digest.counter counter).toNat = store.canonical.amounts counter := by
    intro counter
    have hcounter := hok.counter counter
    cases counter <;> exact hcounter.trans (Nat.zero_add _)
  constructor
  case symbol_count =>
    have hle := hinv.book_count_le
    rw [hok.symbol_count, ← hinv.book_count]
    exact toNat_size_of_length length_canonical (by omega)
  case active_order_count =>
    exact (hcount .active_order_count).trans (hinv.amounts_orders hfits)
  case bid_level_count =>
    rw [hinv.ncard_levels fun _ hbook => hbook.bids]
    exact (hcount .bid_level_count).trans hinv.amounts_bids
  case ask_level_count =>
    rw [hinv.ncard_levels fun _ hbook => hbook.asks]
    exact (hcount .ask_level_count).trans hinv.amounts_asks
  case aggregate_displayed_shares =>
    exact (hcount .aggregate_displayed_shares).trans hinv.amounts_shares
  case last_mold_sequence => exact hok.last_mold_sequence

end Digest

-- A reachable store always has canonical bytes. It has a digest exactly when its exact
-- totals fit the counters, and the digest then shows these totals.
theorem Reachable.digest_total {store : BookStore} (h : store.Reachable)
    (order : HashOrder store) (last_mold_sequence : UInt64) :
    (∃ snapshot bytes, store.canonical_snapshot order = .ok snapshot ∧ snapshot.Bounded ∧
      canonical_state_bytes store order last_mold_sequence = .ok bytes) ∧
    ((∃ digest, compute_state_digest store order last_mold_sequence = .ok digest) ↔
      store.displayed_shares ≤ 2 ^ 64 - 1 ∧ store.active_order_count ≤ 2 ^ 64 - 1) ∧
    ∀ digest, compute_state_digest store order last_mold_sequence = .ok digest →
      store.DigestExact last_mold_sequence digest := by
  have hinv := h.invariant
  refine ⟨?_, ?_, fun digest => h.digestExact⟩
  · obtain ⟨bytes, hbytes, -⟩ := h.digest_eq order last_mold_sequence
    exact ⟨store.canonical, bytes, hinv.canonical_snapshot_ok order,
      hinv.bounded h.accurate, hbytes⟩
  · have hcount := hinv.active_order_count_le
    rw [h.exists_digest_iff order last_mold_sequence]
    omega

theorem sampleStore_digest_total :
    let store := sampleStore [.directory sampleListing, .order (.add (sampleAdd 7 60))]
    ∃ digest, compute_state_digest store (.ascending store) 5 = .ok digest ∧
      store.DigestExact 5 digest := by
  intro store
  obtain ⟨-, hiff, hexact⟩ :=
    Reachable.digest_total (sampleStore_reachable _) (.ascending store) 5
  obtain ⟨digest, hdigest⟩ := hiff.mpr (by decide)
  exact ⟨digest, hdigest, hexact digest hdigest⟩

end BookStore

end AegisFeed
