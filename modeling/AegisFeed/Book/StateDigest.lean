import AegisFeed.Book.BookStore

namespace AegisFeed

structure StateDigest where
  hash : UInt64 := 0
  symbol_count : UInt64 := 0
  active_order_count : UInt64 := 0
  bid_level_count : UInt64 := 0
  ask_level_count : UInt64 := 0
  aggregate_displayed_shares : UInt64 := 0
  last_mold_sequence : UInt64 := 0
deriving DecidableEq, Repr

-- "AEGISBK".
def kCanonicalDomain : List UInt8 :=
  ['A'.toUInt8, 'E'.toUInt8, 'G'.toUInt8, 'I'.toUInt8, 'S'.toUInt8, 'B'.toUInt8, 'K'.toUInt8]

def kCanonicalVersion : UInt8 := 1
def kFnv1aOffsetBasis : UInt64 := 14695981039346656037
def kFnv1aPrime : UInt64 := 1099511628211

-- The number of elements as a `std::size_t`.
def size {α : Type} (container : List α) : UInt64 := .ofNat container.length

-- Each `append_` function is given as the bytes it appends.
def append_u8 (value : UInt8) : List UInt8 := [value]

def append_u16_be (value : UInt16) : List UInt8 :=
  append_u8 (value >>> 8).toUInt8 ++ append_u8 value.toUInt8

def append_u32_be (value : UInt32) : List UInt8 :=
  append_u8 (value >>> 24).toUInt8 ++ append_u8 (value >>> 16).toUInt8 ++
    append_u8 (value >>> 8).toUInt8 ++ append_u8 value.toUInt8

def append_u64_be (value : UInt64) : List UInt8 :=
  (List.range 8).flatMap fun index => append_u8 (value >>> (.ofNat (56 - index * 8))).toUInt8

def append_chars (chars : List UInt8) : List UInt8 :=
  chars.flatMap append_u8

def append_level (level : CanonicalPriceLevel) : List UInt8 :=
  append_u32_be level.price ++ append_u64_be level.aggregate_shares ++
    append_u32_be level.order_count

def append_levels (levels : List CanonicalPriceLevel) : List UInt8 :=
  append_u32_be (size levels).toUInt32 ++ levels.flatMap append_level

def append_order (order : CanonicalOrder) : List UInt8 :=
  append_u64_be order.id ++ append_u16_be order.stock_locate ++ append_u8 order.side.code ++
    append_u32_be order.price ++ append_u32_be order.remaining ++
    append_u8 (if order.has_attribution then 1 else 0) ++ append_chars order.attribution.toList

-- One iteration of the loop of `encode_snapshot`.
def encode_book (canonical_book : CanonicalBook) : Result (List UInt8) :=
  if size canonical_book.symbol > 0xFF then
    .error (Error.book_arithmetic_overflow "canonical symbol length exceeds its fixed-width field"
      (size canonical_book.symbol) 0xFF)
  else if size canonical_book.book.bids > uint32_max.toUInt64 then
    .error (Error.book_arithmetic_overflow
      "canonical bid-level count exceeds its fixed-width field"
      (size canonical_book.book.bids) uint32_max.toUInt64)
  else if size canonical_book.book.asks > uint32_max.toUInt64 then
    .error (Error.book_arithmetic_overflow
      "canonical ask-level count exceeds its fixed-width field"
      (size canonical_book.book.asks) uint32_max.toUInt64)
  else
    .ok (append_u8 (size canonical_book.symbol).toUInt8 ++ append_chars canonical_book.symbol ++
      append_u16_be canonical_book.book.stock_locate ++
      append_levels canonical_book.book.bids ++ append_levels canonical_book.book.asks ++
      append_u64_be (size canonical_book.book.orders) ++
      canonical_book.book.orders.flatMap append_order)

def encode_snapshot (snapshot : CanonicalBookStore) (last_mold_sequence : UInt64) :
    Result (List UInt8) :=
  if size snapshot.books > uint32_max.toUInt64 then
    .error (Error.book_arithmetic_overflow "canonical symbol count exceeds its fixed-width field"
      (size snapshot.books) uint32_max.toUInt64)
  else
    match snapshot.books.mapM encode_book with
    | .error error => .error error
    | .ok books =>
      .ok (append_chars kCanonicalDomain ++ append_u8 kCanonicalVersion ++
        append_u64_be last_mold_sequence ++ append_u32_be (size snapshot.books).toUInt32 ++
        books.flatten)

def fnv1a64 (bytes : List UInt8) : UInt64 :=
  bytes.foldl (fun hash byte => (hash ^^^ byte.toUInt64) * kFnv1aPrime) kFnv1aOffsetBasis

-- `add_size` and `add_value` add into their first argument, or report an overflow.
def add_value (total value : UInt64) : Option UInt64 :=
  if value > uint64_max - total then none else some (total + value)

def add_size (total value : UInt64) : Option UInt64 :=
  add_value total value

def summarize_levels (digest : StateDigest) (levels : List CanonicalPriceLevel) :
    Result StateDigest :=
  levels.foldlM (fun (digest : StateDigest) level =>
    match add_value digest.aggregate_displayed_shares level.aggregate_shares with
    | none =>
      .error (Error.book_arithmetic_overflow "canonical displayed-share summary overflowed"
        level.aggregate_shares (uint64_max - digest.aggregate_displayed_shares))
    | some aggregate_displayed_shares => .ok { digest with aggregate_displayed_shares }) digest

def add_book_sizes (digest : StateDigest) (book : CanonicalOrderBook) : Option StateDigest := do
  let active_order_count ← add_size digest.active_order_count (size book.orders)
  let bid_level_count ← add_size digest.bid_level_count (size book.bids)
  let ask_level_count ← add_size digest.ask_level_count (size book.asks)
  return { digest with active_order_count, bid_level_count, ask_level_count }

-- One iteration of the loop of `summarize`.
def summarize_book (digest : StateDigest) (canonical_book : CanonicalBook) :
    Result StateDigest :=
  match add_book_sizes digest canonical_book.book with
  | none =>
    .error (Error.book_arithmetic_overflow "canonical structural summary count overflowed"
      (size canonical_book.book.orders) uint64_max)
  | some digest => do
    let digest ← summarize_levels digest canonical_book.book.bids
    summarize_levels digest canonical_book.book.asks

def summarize (snapshot : CanonicalBookStore) (hash last_mold_sequence : UInt64) :
    Result StateDigest :=
  match add_size 0 (size snapshot.books) with
  | none =>
    .error (Error.book_arithmetic_overflow "canonical symbol summary count overflowed"
      (size snapshot.books) uint64_max)
  | some symbol_count =>
    snapshot.books.foldlM summarize_book { hash, symbol_count, last_mold_sequence }

def canonical_state_bytes (store : BookStore) (order : BookStore.HashOrder store)
    (last_mold_sequence : UInt64) : Result (List UInt8) :=
  match store.canonical_snapshot order with
  | .error error => .error error
  | .ok snapshot => encode_snapshot snapshot last_mold_sequence

def compute_state_digest (store : BookStore) (order : BookStore.HashOrder store)
    (last_mold_sequence : UInt64) : Result StateDigest :=
  match store.canonical_snapshot order with
  | .error error => .error error
  | .ok snapshot =>
    match encode_snapshot snapshot last_mold_sequence with
    | .error error => .error error
    | .ok bytes => summarize snapshot (fnv1a64 bytes) last_mold_sequence

end AegisFeed
