import AegisFeed.Book.OrderBook.Responses
import AegisFeed.Book.OrderBook.Validation
import AegisFeed.Library.FiniteMap.Entries

namespace AegisFeed

open Std
open FiniteMap (Visit ofEntries)

-- A message that adds an order as it is. The book keeps nothing else of it.
def OrderRecord.restoration (header : ItchCommonHeader) (stock : StockSymbol)
    (order : OrderRecord) : AddOrder :=
  { header := { header with stock_locate := order.stock_locate },
    order_reference := order.id,
    side := order.side,
    shares := order.remaining,
    stock,
    price_1e4 := order.price,
    attribution := if order.has_attribution then some order.attribution else none }

namespace OrderBook

def Succeeds (book : OrderBook) (event : OrderEvent) : Prop :=
  (book.apply event).1 = .ok ()

instance (book : OrderBook) (event : OrderEvent) : Decidable (book.Succeeds event) :=
  inferInstanceAs (Decidable ((book.apply event).1 = .ok ()))

-- The active orders as messages, in any order and with any headers.
def restorations (header : OrderId → ItchCommonHeader) (stock : StockSymbol)
    (entries : List (OrderId × OrderRecord)) : List OrderEvent :=
  entries.map fun entry => .add (entry.2.restoration (header entry.1) stock)

def restingEntries (entries : List (OrderId × OrderRecord)) : List (OrderId × RestingOrder) :=
  entries.map fun entry => (entry.1, entry.2.resting)

theorem restingEntries_perm {book : OrderBook} {entries : List (OrderId × OrderRecord)}
    (hperm : entries.Perm book.active_orders.toList) :
    (restingEntries entries).Perm book.view.toList := by
  rw [view, ExtTreeMap.toList_map]
  exact hperm.map fun entry => (entry.1, entry.2.resting)

section Restored

variable {book : OrderBook} (h : book.Invariant) (header : OrderId → ItchCommonHeader)
  (stock : StockSymbol)

include h

-- With some of the orders back, the ledger accepts one more.
theorem Invariant.accepts_restoration {before after : List (OrderId × OrderRecord)}
    {entry : OrderId × OrderRecord}
    (hperm : (before ++ entry :: after).Perm book.active_orders.toList) :
    OrderLedger.Accepts book.stock_locate (ofEntries (restingEntries before))
      (.add (entry.2.restoration (header entry.1) stock)) := by
  have hmem : entry ∈ book.active_orders.toList :=
    hperm.mem_iff.mp (List.mem_append_right _ List.mem_cons_self)
  have hfound := ExtTreeMap.mem_toList_iff_getElem?_eq_some.mp hmem
  have horder := h.orders entry.1 entry.2 hfound
  have hresting : (entry.2.restoration (header entry.1) stock).resting = entry.2.resting := rfl
  have hledger : (restingEntries before ++ (entry.1, entry.2.resting) :: restingEntries after).Perm
      book.view.toList := by
    have hentries := restingEntries_perm hperm
    rwa [restingEntries, List.map_append, List.map_cons] at hentries
  refine ⟨horder.locate_eq, horder.side, horder.price, horder.remaining, ?_, ?_⟩
  · show (ofEntries (restingEntries before) : OrderLedger)[entry.2.id]? = none
    rw [horder.id_eq]
    exact FiniteMap.ofEntries_before_getElem? hledger
  · have hbefore := FiniteMap.total_ofEntries_before hledger
      fun other => if other.place = entry.2.resting.place then 1 else 0
    have hcapacity := h.restingCount_le horder.side entry.2.price
    rw [← countAt_view] at hcapacity
    simp only [if_true] at hbefore
    exact Nat.lt_of_lt_of_le (Nat.lt_of_succ_le hbefore) hcapacity

-- The book with some of the orders back.
structure Restored (book : OrderBook) (entries : List (OrderId × OrderRecord))
    (restored : OrderBook) : Prop where
  stock_locate : restored.stock_locate = book.stock_locate
  view : restored.view = ofEntries (restingEntries entries)
  invariant : restored.Invariant

-- The induction is on the orders that are back: the last of them is accepted by the
-- book that holds the others.
theorem Invariant.restored (capacity : UInt64) {before after : List (OrderId × OrderRecord)}
    (hperm : (before ++ after).Perm book.active_orders.toList) :
    Machine.Admits apply Succeeds (new book.stock_locate capacity)
        (restorations header stock before) ∧
      Restored book before
        (Machine.run apply (new book.stock_locate capacity) (restorations header stock before)) := by
  induction before using List.reverseRecOn generalizing after with
  | nil =>
    refine ⟨trivial, rfl, ?_, new_invariant _ _⟩
    exact view_new book.stock_locate capacity
  | append_singleton before entry ih =>
    rw [List.append_assoc, List.singleton_append] at hperm
    obtain ⟨hadmits, hlocate, hview, hinvariant⟩ := ih hperm
    have haccept := h.accepts_restoration header stock hperm
    have hresting : restingEntries (before ++ [entry]) =
        restingEntries before ++ [(entry.1, entry.2.resting)] := List.map_append
    have hid : entry.2.id = entry.1 :=
      (h.orders entry.1 entry.2 (ExtTreeMap.mem_toList_iff_getElem?_eq_some.mp
        (hperm.mem_iff.mp (List.mem_append_right _ List.mem_cons_self)))).id_eq
    rw [restorations, List.map_append, Machine.admits_append, Machine.run_append]
    obtain ⟨hok, hlocate', hview', hinvariant'⟩ := apply_accepted hinvariant
      (.add (entry.2.restoration (header entry.1) stock)) (by rwa [hlocate, hview])
    refine ⟨⟨hadmits, hok, trivial⟩, hlocate'.trans hlocate, hview'.trans ?_, hinvariant'⟩
    rw [hview, hresting, FiniteMap.ofEntries_concat, ← hid]
    rfl

-- A book is recovered from its active orders alone.
theorem Invariant.recovered (capacity : UInt64) (visit : Visit book.active_orders) :
    Machine.Admits apply Succeeds (new book.stock_locate capacity)
        (restorations header stock visit.val) ∧
      Machine.run apply (new book.stock_locate capacity) (restorations header stock visit.val) =
        book := by
  have hperm : (visit.val ++ []).Perm book.active_orders.toList := by
    rw [List.append_nil]
    exact visit.property
  obtain ⟨hadmits, hlocate, hview, hinvariant⟩ := h.restored header stock capacity hperm
  refine ⟨hadmits, hinvariant.eq_of_view h hlocate ?_⟩
  rw [hview]
  exact FiniteMap.ofEntries_eq_of_perm (restingEntries_perm visit.property)

end Restored

-- Whatever led to a book, its active orders alone lead to it again: added to a new book in
-- any order they are all accepted, and leave the same orders and levels.
theorem run_recovered (locate : StockLocate) (capacity : UInt64) (events : List OrderEvent) :
    let book := run locate capacity events
    ∀ (header : OrderId → ItchCommonHeader) (stock : StockSymbol) (capacity' : UInt64)
      (visit : Visit book.active_orders),
      Machine.Admits apply Succeeds (new locate capacity')
          (restorations header stock visit.val) ∧
        Machine.run apply (new locate capacity') (restorations header stock visit.val) =
          book := by
  intro book header stock capacity' visit
  obtain ⟨h, hlocate⟩ := run_spec locate capacity events
  have hrecovered := h.recovered header stock capacity' visit
  rwa [hlocate] at hrecovered

section Valid

variable {book : OrderBook}

-- No order rests at a price without a level.
theorem levelsMatch_of_valid {order : Price4 → Price4 → Ordering} [TransCmp order]
    [LawfulEqCmp order] {levels : LevelMap order} {side : Side}
    (hvalid : ∀ (price : Price4) (level : PriceLevel), levels[price]? = some level →
      level.Valid book.active_orders side price)
    (hlevel : ∀ (id : OrderId) (active : OrderRecord), book.active_orders[id]? = some active →
      active.side = side → active.price ∈ levels) :
    LevelsMatch levels book.active_orders side := by
  intro price
  cases hfound : levels[price]? with
  | none =>
    refine Nat.eq_zero_of_not_pos fun hpositive => ?_
    obtain ⟨id, active, hactive, hside, rfl⟩ := (restingCount_pos_iff _ _ _).mp hpositive
    obtain ⟨level, hother⟩ := (FiniteMap.mem_iff_getElem? _ _).mp (hlevel id active hactive hside)
    rw [hfound] at hother
    cases hother
  | some level =>
    obtain ⟨hcount, hshares, hs, hc⟩ := hvalid price level hfound
    exact ⟨hc ▸ hcount, hs, hc⟩

-- The checker does not look at the price range, nor at the attribution of an order that
-- has none.
theorem invariant_iff_validated (book : OrderBook) (visit : Visit book.active_orders) :
    book.Invariant ↔ book.validate_invariants visit = .ok () ∧
      ∀ (id : OrderId) (order : OrderRecord), book.active_orders[id]? = some order →
        order.price ≤ kMaxPrice4 ∧
          (order.has_attribution = false → order.attribution = Attribution.zero) := by
  constructor
  · intro h
    exact ⟨h.validate_ok visit, fun id order hfound =>
      ⟨(h.orders id order hfound).price, (h.orders id order hfound).attribution⟩⟩
  · rintro ⟨hvalid, hsupported⟩
    obtain ⟨hbids, hasks, horders⟩ := (validate_loops_ok_iff book visit).mp hvalid
    refine ⟨?_, levelsMatch_of_valid hbids ?_, levelsMatch_of_valid hasks ?_⟩
    · intro id order hfound
      obtain ⟨hid, hremaining, hlocate, hlevel⟩ := horders id order hfound
      obtain ⟨hprice, hattribution⟩ := hsupported id order hfound
      exact ⟨hid, hlocate, hlevel.imp And.left And.left, hremaining, hprice, hattribution⟩
    · intro id order hfound hbuy
      rcases (horders id order hfound).level with ⟨-, hmem⟩ | ⟨hsell, -⟩
      · exact hmem
      · rw [hbuy] at hsell
        cases hsell
    · intro id order hfound hsell
      rcases (horders id order hfound).level with ⟨hbuy, -⟩ | ⟨-, hmem⟩
      · rw [hsell] at hbuy
        cases hbuy
      · exact hmem

end Valid

-- The books that events lead to are exactly those that the checker accepts and whose
-- orders have a supported price and no stray attribution.
theorem reachable_iff_validated (book : OrderBook) (visit : Visit book.active_orders) :
    (∃ locate capacity events, run locate capacity events = book) ↔
      book.validate_invariants visit = .ok () ∧
        ∀ (id : OrderId) (order : OrderRecord), book.active_orders[id]? = some order →
          order.price ≤ kMaxPrice4 ∧
            (order.has_attribution = false → order.attribution = Attribution.zero) := by
  rw [← invariant_iff_validated book visit]
  constructor
  · rintro ⟨locate, capacity, events, rfl⟩
    exact (run_spec locate capacity events).1
  · intro h
    have header : ItchCommonHeader :=
      { type := 'F'.toUInt8, stock_locate := 0, tracking_number := 0, timestamp_ns := 0 }
    have stock : StockSymbol := Vector.replicate 8 ' '.toUInt8
    exact ⟨book.stock_locate, 0, restorations (fun _ => header) stock visit.val,
      (h.recovered (fun _ => header) stock 0 visit).2⟩

end OrderBook

end AegisFeed
