import AegisFeed.Book.StateDigest
import AegisFeed.Library.Fallible
import AegisFeed.Library.Parsing

namespace AegisFeed

open Parsing (Parser Reads)

-- The reader of canonical format version 1, which the source documents but does not
-- contain.
def decode_u8 : Parser UInt8 UInt8 := UInt8.ofNat <$> Parsing.number 1
def decode_u16_be : Parser UInt8 UInt16 := UInt16.ofNat <$> Parsing.number 2
def decode_u32_be : Parser UInt8 UInt32 := UInt32.ofNat <$> Parsing.number 4
def decode_u64_be : Parser UInt8 UInt64 := UInt64.ofNat <$> Parsing.number 8

def decode_level : Parser UInt8 CanonicalPriceLevel := do
  let price ← decode_u32_be
  let aggregate_shares ← decode_u64_be
  let order_count ← decode_u32_be
  return { price, aggregate_shares, order_count }

def decode_levels : Parser UInt8 (List CanonicalPriceLevel) := do
  let count ← decode_u32_be
  Parsing.many decode_level count.toNat

def decode_order : Parser UInt8 CanonicalOrder := do
  let id ← decode_u64_be
  let stock_locate ← decode_u16_be
  let side ← decode_u8
  let price ← decode_u32_be
  let remaining ← decode_u32_be
  let has_attribution ← decode_u8
  let attribution ← Parsing.vector 4
  return {
    id, stock_locate, side := ⟨side⟩, price, remaining, attribution,
    has_attribution := has_attribution ≠ 0 }

def decode_book : Parser UInt8 CanonicalBook := do
  let length ← decode_u8
  let symbol ← Parsing.take length.toNat
  let stock_locate ← decode_u16_be
  let bids ← decode_levels
  let asks ← decode_levels
  let count ← decode_u64_be
  let orders ← Parsing.many decode_order count.toNat
  return { symbol, book := { stock_locate, bids, asks, orders } }

def decode_snapshot : Parser UInt8 (CanonicalBookStore × UInt64) := do
  Parsing.expect kCanonicalDomain
  Parsing.expect [kCanonicalVersion]
  let last_mold_sequence ← decode_u64_be
  let count ← decode_u32_be
  let books ← Parsing.many decode_book count.toNat
  return ({ books }, last_mold_sequence)

-- The sizes of the containers fit a `std::size_t`.
structure CanonicalBook.Sized (canonical_book : CanonicalBook) : Prop where
  symbol : canonical_book.symbol.length < 2 ^ 64
  bids : canonical_book.book.bids.length < 2 ^ 64
  asks : canonical_book.book.asks.length < 2 ^ 64
  orders : canonical_book.book.orders.length < 2 ^ 64

structure CanonicalBookStore.Sized (snapshot : CanonicalBookStore) : Prop where
  count : snapshot.books.length < 2 ^ 64
  books : ∀ canonical_book ∈ snapshot.books, canonical_book.Sized

section Integers

-- The bytes of an integer are those of its value.
theorem byte16 (value shift : UInt16) (h : shift.toNat < 16) :
    (value >>> shift).toUInt8 = UInt8.ofNat (value.toNat / 2 ^ shift.toNat) := by
  rw [← UInt8.toNat_inj]
  simp [Nat.shiftRight_eq_div_pow, Nat.mod_eq_of_lt h]

theorem byte32 (value shift : UInt32) (h : shift.toNat < 32) :
    (value >>> shift).toUInt8 = UInt8.ofNat (value.toNat / 2 ^ shift.toNat) := by
  rw [← UInt8.toNat_inj]
  simp [Nat.shiftRight_eq_div_pow, Nat.mod_eq_of_lt h]

theorem byte64 (value shift : UInt64) (h : shift.toNat < 64) :
    (value >>> shift).toUInt8 = UInt8.ofNat (value.toNat / 2 ^ shift.toNat) := by
  rw [← UInt8.toNat_inj]
  simp [Nat.shiftRight_eq_div_pow, Nat.mod_eq_of_lt h]

theorem append_u8_eq (value : UInt8) : append_u8 value = BigEndian.encode 1 value.toNat := by
  simp [append_u8, BigEndian.encode]

theorem append_u16_be_eq (value : UInt16) :
    append_u16_be value = BigEndian.encode 2 value.toNat := by
  simp only [append_u16_be, append_u8, BigEndian.encode, List.nil_append, List.cons_append,
    byte16 value 8 (by decide)]
  rfl

theorem append_u32_be_eq (value : UInt32) :
    append_u32_be value = BigEndian.encode 4 value.toNat := by
  simp only [append_u32_be, append_u8, BigEndian.encode, List.nil_append, List.cons_append,
    byte32 value 24 (by decide), byte32 value 16 (by decide), byte32 value 8 (by decide),
    Nat.div_div_eq_div_mul]
  rfl

theorem append_u64_be_eq (value : UInt64) :
    append_u64_be value = BigEndian.encode 8 value.toNat := by
  show [(value >>> 56).toUInt8, (value >>> 48).toUInt8, (value >>> 40).toUInt8,
    (value >>> 32).toUInt8, (value >>> 24).toUInt8, (value >>> 16).toUInt8,
    (value >>> 8).toUInt8, (value >>> 0).toUInt8] = _
  simp only [BigEndian.encode, List.nil_append, List.cons_append,
    byte64 value 56 (by decide), byte64 value 48 (by decide), byte64 value 40 (by decide),
    byte64 value 32 (by decide), byte64 value 24 (by decide), byte64 value 16 (by decide),
    byte64 value 8 (by decide), byte64 value 0 (by decide), Nat.div_div_eq_div_mul,
    UInt64.reduceToNat, Nat.reducePow, Nat.reduceMul, Nat.div_one]

theorem reads_u8 (value : UInt8) : Reads decode_u8 (append_u8 value) value := by
  have h : value.toNat < 256 ^ 1 := value.toNat_lt
  have hread := (Parsing.reads_number h).map UInt8.ofNat
  rwa [← append_u8_eq, UInt8.ofNat_toNat] at hread

theorem reads_u16_be (value : UInt16) :
    Reads decode_u16_be (append_u16_be value) value := by
  have h : value.toNat < 256 ^ 2 := value.toNat_lt
  have hread := (Parsing.reads_number h).map UInt16.ofNat
  rwa [← append_u16_be_eq, UInt16.ofNat_toNat] at hread

theorem reads_u32_be (value : UInt32) :
    Reads decode_u32_be (append_u32_be value) value := by
  have h : value.toNat < 256 ^ 4 := value.toNat_lt
  have hread := (Parsing.reads_number h).map UInt32.ofNat
  rwa [← append_u32_be_eq, UInt32.ofNat_toNat] at hread

theorem reads_u64_be (value : UInt64) :
    Reads decode_u64_be (append_u64_be value) value := by
  have h : value.toNat < 256 ^ 8 := value.toNat_lt
  have hread := (Parsing.reads_number h).map UInt64.ofNat
  rwa [← append_u64_be_eq, UInt64.ofNat_toNat] at hread

end Integers

section Records

theorem append_chars_eq (chars : List UInt8) : append_chars chars = chars := by
  induction chars with
  | nil => rfl
  | cons char rest ih =>
    rw [append_chars, List.flatMap_cons, ← append_chars, ih]
    rfl

theorem reads_level (level : CanonicalPriceLevel) :
    Reads decode_level (append_level level) level := by
  rw [append_level, List.append_assoc]
  exact (reads_u32_be level.price).bind <| (reads_u64_be level.aggregate_shares).bind
    (reads_u32_be level.order_count).bind_pure

-- The count of a list that passes the check of its length.
theorem reads_levels {levels : List CanonicalPriceLevel} (h : levels.length < 2 ^ 32) :
    Reads decode_levels (append_levels levels) levels := by
  have hcount : (size levels).toUInt32.toNat = levels.length := by
    simp only [size, UInt64.toNat_toUInt32, UInt64.toNat_ofNat']
    omega
  refine (reads_u32_be (size levels).toUInt32).bind ?_
  rw [hcount]
  exact Parsing.reads_many fun level _ => reads_level level

theorem reads_order (order : CanonicalOrder) :
    Reads decode_order (append_order order) order := by
  have hflag : decide ((if order.has_attribution then (1 : UInt8) else 0) ≠ 0) =
      order.has_attribution := by
    cases order.has_attribution <;> rfl
  simp only [append_order, List.append_assoc]
  refine (reads_u64_be order.id).bind <| (reads_u16_be order.stock_locate).bind <|
    (reads_u8 order.side.code).bind <| (reads_u32_be order.price).bind <|
    (reads_u32_be order.remaining).bind <|
    (reads_u8 (if order.has_attribution then 1 else 0)).bind ?_
  rw [hflag]
  rw [append_chars_eq]
  exact (Parsing.reads_vector order.attribution).bind_pure

theorem toNat_size {α : Type} {container : List α} (h : container.length < 2 ^ 64) :
    (size container).toNat = container.length := by
  rw [size, UInt64.toNat_ofNat', Nat.mod_eq_of_lt h]

-- What the check of a length says about the container.
theorem length_le_of_size {α : Type} {container : List α} (h : container.length < 2 ^ 64)
    {limit : UInt64} (hle : ¬size container > limit) : container.length ≤ limit.toNat := by
  rwa [gt_iff_lt, UInt64.lt_iff_toNat_lt, toNat_size h, Nat.not_lt] at hle

-- A book that passes the checks of its lengths.
theorem reads_book {canonical_book : CanonicalBook} {bytes : List UInt8}
    (hsized : canonical_book.Sized) (h : encode_book canonical_book = .ok bytes) :
    Reads decode_book bytes canonical_book := by
  obtain ⟨hsymbol, hbids, hasks, horders⟩ := hsized
  unfold encode_book at h
  split_ifs at h with hsymbol' hbids' hasks'
  cases h
  have hlength : (size canonical_book.symbol).toUInt8.toNat = canonical_book.symbol.length := by
    rw [UInt64.toNat_toUInt8, toNat_size hsymbol]
    exact Nat.mod_eq_of_lt (Nat.lt_succ_of_le (length_le_of_size hsymbol hsymbol'))
  simp only [append_chars_eq, List.append_assoc]
  refine (reads_u8 (size canonical_book.symbol).toUInt8).bind ?_
  rw [hlength]
  refine (Parsing.reads_take rfl).bind <| (reads_u16_be canonical_book.book.stock_locate).bind <|
    (reads_levels (Nat.lt_succ_of_le (length_le_of_size hbids hbids'))).bind <|
    (reads_levels (Nat.lt_succ_of_le (length_le_of_size hasks hasks'))).bind <|
    (reads_u64_be (size canonical_book.book.orders)).bind ?_
  rw [toNat_size horders]
  exact (Parsing.reads_many fun order _ => reads_order order).bind_pure

theorem reads_books {books : List CanonicalBook} {encoded : List (List UInt8)}
    (hsized : ∀ book ∈ books, book.Sized) (h : books.mapM encode_book = .ok encoded) :
    Reads (Parsing.many decode_book books.length) encoded.flatten books := by
  induction books generalizing encoded with
  | nil =>
    cases h
    exact Reads.pure []
  | cons book rest ih =>
    obtain ⟨first, tail, hfirst, htail, rfl⟩ := Fallible.mapM_cons_eq_ok.mp h
    have hrest := ih (fun other hother => hsized other (List.mem_cons_of_mem _ hother)) htail
    exact (reads_book (hsized book List.mem_cons_self) hfirst).bind hrest.bind_pure

theorem reads_snapshot {snapshot : CanonicalBookStore} {last_mold_sequence : UInt64}
    {bytes : List UInt8} (hsized : snapshot.Sized)
    (h : encode_snapshot snapshot last_mold_sequence = .ok bytes) :
    Reads decode_snapshot bytes (snapshot, last_mold_sequence) := by
  obtain ⟨hcount, hbooks⟩ := hsized
  unfold encode_snapshot at h
  split_ifs at h with hcount'
  have hlength : (size snapshot.books).toUInt32.toNat = snapshot.books.length := by
    rw [UInt64.toNat_toUInt32, toNat_size hcount]
    exact Nat.mod_eq_of_lt (Nat.lt_succ_of_le (length_le_of_size hcount hcount'))
  cases hencoded : snapshot.books.mapM encode_book with
  | error error =>
    rw [hencoded] at h
    cases h
  | ok encoded =>
    rw [hencoded] at h
    cases h
    simp only [append_chars_eq, List.append_assoc]
    refine (Parsing.reads_expect kCanonicalDomain).bind <|
      (Parsing.reads_expect [kCanonicalVersion]).bind <|
      (reads_u64_be last_mold_sequence).bind <|
      (reads_u32_be (size snapshot.books).toUInt32).bind ?_
    rw [hlength]
    exact (reads_books hbooks hencoded).bind_pure

end Records

end AegisFeed
