import AegisFeed.Book.OrderBook.Sides
import AegisFeed.Book.StateDigest
import AegisFeed.Library.Fallible
import Mathlib.Algebra.BigOperators.Pi

namespace AegisFeed

-- The counters of a digest that the loops of `summarize` add to.
inductive Counter where
  | active_order_count
  | bid_level_count
  | ask_level_count
  | aggregate_displayed_shares
deriving DecidableEq

-- The guard of an addition lets exactly the sums pass that fit.
theorem add_value_eq_some_iff (total value sum : UInt64) :
    add_value total value = some sum ↔ sum.toNat = total.toNat + value.toNat := by
  have hsum := sum.toNat_lt
  unfold add_value
  by_cases hguard : value > uint64_max - total
  · rw [if_pos hguard]
    rw [OrderBook.overflow_guard_iff] at hguard
    simp only [reduceCtorEq, false_iff]
    omega
  · rw [if_neg hguard, Option.some_inj]
    rw [OrderBook.overflow_guard_iff, Nat.not_le] at hguard
    rw [← UInt64.toNat_inj, Words.toNat_add64 hguard]
    exact eq_comm

namespace StateDigest

def counter (digest : StateDigest) : Counter → UInt64
  | .active_order_count => digest.active_order_count
  | .bid_level_count => digest.bid_level_count
  | .ask_level_count => digest.ask_level_count
  | .aggregate_displayed_shares => digest.aggregate_displayed_shares

-- A digest with other counters.
def counting (digest : StateDigest) (value : Counter → UInt64) : StateDigest :=
  { digest with
    active_order_count := value .active_order_count,
    bid_level_count := value .bid_level_count,
    ask_level_count := value .ask_level_count,
    aggregate_displayed_shares := value .aggregate_displayed_shares }

@[simp] theorem counter_counting (digest : StateDigest) (value : Counter → UInt64)
    (counter : Counter) : (digest.counting value).counter counter = value counter := by
  cases counter <;> rfl

-- The second digest has the exact sums of the counters of the first and the amounts.
structure Adds (amounts : Counter → Nat) (digest next : StateDigest) : Prop where
  hash : next.hash = digest.hash
  symbol_count : next.symbol_count = digest.symbol_count
  last_mold_sequence : next.last_mold_sequence = digest.last_mold_sequence
  counter : ∀ counter,
    (next.counter counter).toNat = (digest.counter counter).toNat + amounts counter

variable {digest next : StateDigest}

theorem Adds.of_counting {amounts : Counter → Nat} {value : Counter → UInt64}
    (hvalue : ∀ counter, (value counter).toNat = (digest.counter counter).toNat + amounts counter) :
    Adds amounts digest (digest.counting value) :=
  ⟨rfl, rfl, rfl, fun counter => by rw [counter_counting, hvalue counter]⟩

theorem Adds.unique {amounts : Counter → Nat} {other : StateDigest}
    (h : Adds amounts digest next) (h' : Adds amounts digest other) : next = other := by
  have hcounter : ∀ counter, next.counter counter = other.counter counter := fun counter =>
    UInt64.toNat_inj.mp ((h.counter counter).trans (h'.counter counter).symm)
  rcases next with ⟨hash, symbols, orders, bids, asks, shares, sequence⟩
  rcases other with ⟨hash', symbols', orders', bids', asks', shares', sequence'⟩
  have hhash : hash = hash' := h.hash.trans h'.hash.symm
  have hsymbols : symbols = symbols' := h.symbol_count.trans h'.symbol_count.symm
  have hsequence : sequence = sequence' :=
    h.last_mold_sequence.trans h'.last_mold_sequence.symm
  have horders : orders = orders' := hcounter .active_order_count
  have hbids : bids = bids' := hcounter .bid_level_count
  have hasks : asks = asks' := hcounter .ask_level_count
  have hshares : shares = shares' := hcounter .aggregate_displayed_shares
  rw [hhash, hsymbols, hsequence, horders, hbids, hasks, hshares]

theorem adds_zero (digest : StateDigest) : Adds 0 digest digest :=
  ⟨rfl, rfl, rfl, fun _ => rfl⟩

theorem adds_zero_iff : Adds 0 digest next ↔ digest = next := by
  constructor
  · exact (adds_zero digest).unique
  · rintro rfl
    exact adds_zero digest

-- Sums that fit their counters can be added.
theorem exists_adds_iff {amounts : Counter → Nat} : (∃ next, Adds amounts digest next) ↔
    ∀ counter, (digest.counter counter).toNat + amounts counter < 2 ^ 64 := by
  constructor
  · rintro ⟨next, h⟩ counter
    rw [← h.counter counter]
    exact (next.counter counter).toNat_lt
  · intro hfits
    let value : Counter → UInt64 := fun counter =>
      .ofNat ((digest.counter counter).toNat + amounts counter)
    have hvalue : ∀ counter, (value counter).toNat =
        (digest.counter counter).toNat + amounts counter := by
      intro counter
      rw [UInt64.toNat_ofNat', Nat.mod_eq_of_lt (hfits counter)]
    exact ⟨digest.counting value, Adds.of_counting hvalue⟩

-- Amounts may be added one after the other: where both fit together, the first does.
theorem adds_add_iff {first second : Counter → Nat} :
    Adds (first + second) digest next ↔
      ∃ middle, Adds first digest middle ∧ Adds second middle next := by
  constructor
  · intro h
    have hfits : ∀ counter, (digest.counter counter).toNat + first counter < 2 ^ 64 := by
      intro counter
      have hcounter := h.counter counter
      have hlt := (next.counter counter).toNat_lt
      rw [Pi.add_apply] at hcounter
      omega
    obtain ⟨middle, hmiddle⟩ := exists_adds_iff.mpr hfits
    refine ⟨middle, hmiddle, h.hash.trans hmiddle.hash.symm,
      h.symbol_count.trans hmiddle.symbol_count.symm,
      h.last_mold_sequence.trans hmiddle.last_mold_sequence.symm, fun counter => ?_⟩
    rw [h.counter, hmiddle.counter, Pi.add_apply, Nat.add_assoc]
  · rintro ⟨middle, hfirst, hsecond⟩
    refine ⟨hsecond.hash.trans hfirst.hash, hsecond.symbol_count.trans hfirst.symbol_count,
      hsecond.last_mold_sequence.trans hfirst.last_mold_sequence, fun counter => ?_⟩
    rw [hsecond.counter, hfirst.counter, Pi.add_apply, Nat.add_assoc]

-- A loop adds the amounts of its elements, if its body does.
theorem foldlM_ok_iff {α : Type} {body : StateDigest → α → Result StateDigest}
    {amounts : α → Counter → Nat} {list : List α}
    (hbody : ∀ element ∈ list, ∀ digest next : StateDigest,
      body digest element = .ok next ↔ Adds (amounts element) digest next) :
    list.foldlM body digest = .ok next ↔ Adds (list.map amounts).sum digest next := by
  induction list generalizing digest with
  | nil =>
    rw [List.map_nil, List.sum_nil, adds_zero_iff]
    exact Except.ok.injEq digest next ▸ Iff.rfl
  | cons element rest ih =>
    obtain ⟨hfirst, hrest⟩ := List.forall_mem_cons.mp hbody
    rw [List.foldlM_cons, Fallible.bind_eq_ok, List.map_cons, List.sum_cons, adds_add_iff]
    exact exists_congr fun middle => and_congr (hfirst digest middle) (ih hrest)

end StateDigest

-- What the loops add for a level, for the sizes of a book, for a book and for all books.
def CanonicalPriceLevel.amounts (level : CanonicalPriceLevel) : Counter → Nat
  | .aggregate_displayed_shares => level.aggregate_shares.toNat
  | _ => 0

def CanonicalOrderBook.sizes (book : CanonicalOrderBook) : Counter → Nat
  | .active_order_count => (size book.orders).toNat
  | .bid_level_count => (size book.bids).toNat
  | .ask_level_count => (size book.asks).toNat
  | .aggregate_displayed_shares => 0

def CanonicalBook.amounts (canonical_book : CanonicalBook) : Counter → Nat :=
  canonical_book.book.sizes +
    ((canonical_book.book.bids.map CanonicalPriceLevel.amounts).sum +
      (canonical_book.book.asks.map CanonicalPriceLevel.amounts).sum)

def CanonicalBookStore.amounts (snapshot : CanonicalBookStore) : Counter → Nat :=
  (snapshot.books.map CanonicalBook.amounts).sum

section Amounts

theorem sum_amounts_shares (levels : List CanonicalPriceLevel) :
    (levels.map CanonicalPriceLevel.amounts).sum .aggregate_displayed_shares =
      (levels.map fun level => level.aggregate_shares.toNat).sum := by
  rw [Pi.list_sum_apply, List.map_map]
  rfl

-- Levels add to no other counter.
theorem sum_amounts_of_ne (levels : List CanonicalPriceLevel) {counter : Counter}
    (hne : counter ≠ .aggregate_displayed_shares) :
    (levels.map CanonicalPriceLevel.amounts).sum counter = 0 := by
  have hzero : ∀ level : CanonicalPriceLevel, level.amounts counter = 0 := by
    intro level
    cases counter with
    | aggregate_displayed_shares => exact absurd rfl hne
    | _ => rfl
  rw [Pi.list_sum_apply, List.map_map]
  simp [Function.comp_def, hzero]

theorem CanonicalBook.amounts_shares (canonical_book : CanonicalBook) :
    canonical_book.amounts .aggregate_displayed_shares =
      (canonical_book.book.bids.map fun level => level.aggregate_shares.toNat).sum +
        (canonical_book.book.asks.map fun level => level.aggregate_shares.toNat).sum := by
  unfold CanonicalBook.amounts
  rw [Pi.add_apply, Pi.add_apply, sum_amounts_shares, sum_amounts_shares]
  exact Nat.zero_add _

theorem CanonicalBook.amounts_of_ne (canonical_book : CanonicalBook) {counter : Counter}
    (hne : counter ≠ .aggregate_displayed_shares) :
    canonical_book.amounts counter = canonical_book.book.sizes counter := by
  unfold CanonicalBook.amounts
  rw [Pi.add_apply, Pi.add_apply, sum_amounts_of_ne _ hne, sum_amounts_of_ne _ hne]
  rfl

theorem CanonicalBookStore.amounts_apply (snapshot : CanonicalBookStore) (counter : Counter) :
    snapshot.amounts counter =
      (snapshot.books.map fun canonical_book => canonical_book.amounts counter).sum := by
  unfold CanonicalBookStore.amounts
  rw [Pi.list_sum_apply, List.map_map]
  rfl

end Amounts

section Loops

open StateDigest

variable {digest next : StateDigest}

theorem summarize_levels_ok_iff (levels : List CanonicalPriceLevel) :
    summarize_levels digest levels = .ok next ↔
      Adds (levels.map CanonicalPriceLevel.amounts).sum digest next := by
  refine foldlM_ok_iff fun level _ digest next => ?_
  cases hsum : add_value digest.aggregate_displayed_shares level.aggregate_shares with
  | none =>
    simp only [reduceCtorEq, false_iff]
    intro hadds
    have hfits := (add_value_eq_some_iff _ _ _).mpr (hadds.counter .aggregate_displayed_shares)
    cases hsum.symm.trans hfits
  | some sum =>
    have hadds : Adds level.amounts digest { digest with aggregate_displayed_shares := sum } := by
      refine ⟨rfl, rfl, rfl, fun counter => ?_⟩
      cases counter with
      | aggregate_displayed_shares => exact (add_value_eq_some_iff _ _ _).mp hsum
      | _ => rfl
    constructor
    · intro hnext
      exact Except.ok.inj hnext ▸ hadds
    · intro hnext
      exact congrArg Except.ok (hadds.unique hnext)

theorem add_book_sizes_eq_some_iff (book : CanonicalOrderBook) :
    add_book_sizes digest book = some next ↔ Adds book.sizes digest next := by
  have hadds : ∀ orders bids asks,
      add_value digest.active_order_count (size book.orders) = some orders →
      add_value digest.bid_level_count (size book.bids) = some bids →
      add_value digest.ask_level_count (size book.asks) = some asks →
      Adds book.sizes digest { digest with
        active_order_count := orders, bid_level_count := bids, ask_level_count := asks } := by
    intro orders bids asks horders hbids hasks
    refine ⟨rfl, rfl, rfl, fun counter => ?_⟩
    cases counter with
    | active_order_count => exact (add_value_eq_some_iff _ _ _).mp horders
    | bid_level_count => exact (add_value_eq_some_iff _ _ _).mp hbids
    | ask_level_count => exact (add_value_eq_some_iff _ _ _).mp hasks
    | aggregate_displayed_shares => rfl
  unfold add_book_sizes add_size
  simp only [Option.bind_eq_bind, Option.bind_eq_some_iff, Option.pure_def, Option.some_inj]
  constructor
  · rintro ⟨orders, horders, bids, hbids, asks, hasks, rfl⟩
    exact hadds orders bids asks horders hbids hasks
  · intro hnext
    have horders := (add_value_eq_some_iff _ _ _).mpr (hnext.counter .active_order_count)
    have hbids := (add_value_eq_some_iff _ _ _).mpr (hnext.counter .bid_level_count)
    have hasks := (add_value_eq_some_iff _ _ _).mpr (hnext.counter .ask_level_count)
    exact ⟨_, horders, _, hbids, _, hasks, (hadds _ _ _ horders hbids hasks).unique hnext⟩

theorem summarize_both_ok_iff (bids asks : List CanonicalPriceLevel) :
    (do let digest ← summarize_levels digest bids; summarize_levels digest asks) = .ok next ↔
      Adds ((bids.map CanonicalPriceLevel.amounts).sum +
        (asks.map CanonicalPriceLevel.amounts).sum) digest next := by
  rw [Fallible.bind_eq_ok, adds_add_iff]
  exact exists_congr fun middle =>
    and_congr (summarize_levels_ok_iff bids) (summarize_levels_ok_iff asks)

-- An equation between functions: with arguments, checking it would evaluate the additions.
theorem summarize_book_eq : summarize_book =
    fun (digest : StateDigest) (canonical_book : CanonicalBook) =>
      (match add_book_sizes digest canonical_book.book with
      | none =>
        .error (Error.book_arithmetic_overflow "canonical structural summary count overflowed"
          (size canonical_book.book.orders) uint64_max)
      | some digest => do
        let digest ← summarize_levels digest canonical_book.book.bids
        summarize_levels digest canonical_book.book.asks : Result StateDigest) := rfl

theorem summarize_book_ok_iff (canonical_book : CanonicalBook) :
    summarize_book digest canonical_book = .ok next ↔
      Adds canonical_book.amounts digest next := by
  rw [CanonicalBook.amounts, adds_add_iff, summarize_book_eq]
  beta_reduce
  cases hsizes : add_book_sizes digest canonical_book.book with
  | none =>
    refine iff_of_false nofun ?_
    rintro ⟨middle, hmiddle, -⟩
    rw [← add_book_sizes_eq_some_iff, hsizes] at hmiddle
    cases hmiddle
  | some middle =>
    have hmiddle := (add_book_sizes_eq_some_iff canonical_book.book).mp hsizes
    refine (summarize_both_ok_iff _ _).trans ⟨fun hnext => ⟨middle, hmiddle, hnext⟩, ?_⟩
    rintro ⟨other, hother, hnext⟩
    rwa [hmiddle.unique hother]

-- A summary succeeds exactly with the sums that fit their counters.
theorem summarize_ok_iff (snapshot : CanonicalBookStore) (hash last_mold_sequence : UInt64) :
    summarize snapshot hash last_mold_sequence = .ok next ↔
      Adds snapshot.amounts
        { hash, symbol_count := size snapshot.books, last_mold_sequence } next := by
  have hcount : add_size 0 (size snapshot.books) = some (size snapshot.books) :=
    (add_value_eq_some_iff _ _ _).mpr (Nat.zero_add _).symm
  unfold summarize
  rw [hcount]
  exact foldlM_ok_iff fun canonical_book _ _ _ => summarize_book_ok_iff canonical_book

theorem exists_summarize_iff (snapshot : CanonicalBookStore) (hash last_mold_sequence : UInt64) :
    (∃ digest, summarize snapshot hash last_mold_sequence = .ok digest) ↔
      ∀ counter, snapshot.amounts counter < 2 ^ 64 := by
  simp only [summarize_ok_iff]
  rw [exists_adds_iff]
  refine forall_congr' fun counter => ?_
  have hzero : StateDigest.counter
      { hash, symbol_count := size snapshot.books, last_mold_sequence } counter = 0 := by
    cases counter <;> rfl
  rw [hzero, UInt64.toNat_zero, Nat.zero_add]

end Loops

end AegisFeed
