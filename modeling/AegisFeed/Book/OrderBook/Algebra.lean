import AegisFeed.Book.OrderBook.Refinement
import AegisFeed.Library.Ledger.Steps

namespace AegisFeed

open Std

-- The order references an event names.
def OrderEvent.references : OrderEvent → List OrderId
  | .add message => [message.order_reference]
  | .execute message => [message.order_reference]
  | .execute_with_price message => [message.order_reference]
  | .cancel message => [message.order_reference]
  | .delete_order message => [message.order_reference]
  | .replace message => [message.original_order_reference, message.new_order_reference]

-- What the ledger does for an event, and what the event alone must say for it.
def OrderEvent.step : OrderEvent → Ledger.Step OrderId (Side × Price4) (Option Attribution)
  | .add message => .enter message.order_reference message.resting
  | .execute message => .take message.order_reference message.executed_shares.toNat
  | .execute_with_price message => .take message.order_reference message.executed_shares.toNat
  | .cancel message => .take message.order_reference message.cancelled_shares.toNat
  | .delete_order message => .remove message.order_reference
  | .replace message =>
    .move message.original_order_reference message.new_order_reference message.place
      message.shares.toNat

def OrderEvent.Admissible (locate : StockLocate) (event : OrderEvent) : Prop :=
  event.stock_locate = locate ∧
    match event with
    | .add message =>
      (message.side = Side.Buy ∨ message.side = Side.Sell) ∧ message.price_1e4 ≤ kMaxPrice4
    | .replace message => message.price_1e4 ≤ kMaxPrice4
    | _ => True

@[simp] theorem OrderEvent.references_step (event : OrderEvent) :
    event.step.references = event.references := by
  cases event <;> rfl

namespace OrderLedger

theorem accepts_iff_step (locate : StockLocate) (ledger : OrderLedger) (event : OrderEvent) :
    Accepts locate ledger event ↔
      event.Admissible locate ∧ event.step.Accepts levelCapacity ledger := by
  cases event with
  | add message =>
    rw [OrderEvent.step, Ledger.Step.accepts_enter_iff]
    simp only [Accepts, OrderEvent.Admissible, OrderEvent.stock_locate, and_assoc]
  | execute message =>
    rw [OrderEvent.step, Ledger.Step.accepts_take_iff]
    simp only [Accepts, OrderEvent.Admissible, OrderEvent.stock_locate, and_true]
  | execute_with_price message =>
    rw [OrderEvent.step, Ledger.Step.accepts_take_iff]
    simp only [Accepts, OrderEvent.Admissible, OrderEvent.stock_locate, and_true]
  | cancel message =>
    rw [OrderEvent.step, Ledger.Step.accepts_take_iff]
    simp only [Accepts, OrderEvent.Admissible, OrderEvent.stock_locate, and_true]
  | delete_order message =>
    rw [OrderEvent.step, Ledger.Step.accepts_remove_iff]
    simp only [Accepts, OrderEvent.Admissible, OrderEvent.stock_locate, and_true]
  | replace message =>
    rw [OrderEvent.step, Ledger.Step.accepts_move_iff]
    simp only [Accepts, OrderEvent.Admissible, OrderEvent.stock_locate, and_assoc]

theorem effect_eq_step (ledger : OrderLedger) (event : OrderEvent) :
    effect ledger event = event.step.effect ledger := by
  cases event <;> rfl

end OrderLedger

namespace OrderBook

-- What a step of the book says of the ledger, with the step as a value.
theorem apply_ok_iff_step {book : OrderBook} (h : book.Invariant) (event : OrderEvent) :
    (book.apply event).1 = .ok () ↔ event.Admissible book.stock_locate ∧
      event.step.Accepts levelCapacity book.view := by
  rw [apply_ok_iff h, OrderLedger.accepts_iff_step]

theorem apply_view {book : OrderBook} (h : book.Invariant) {event : OrderEvent}
    (hok : (book.apply event).1 = .ok ()) :
    (book.apply event).2.view = event.step.effect book.view := by
  rw [(apply_accepted h event ((apply_ok_iff h event).mp hok)).view, OrderLedger.effect_eq_step]

section Samples

def sampleBid (order_reference : OrderId) (shares : Shares) : AddOrder :=
  { header := { type := 'A'.toUInt8, stock_locate := 7, tracking_number := 0, timestamp_ns := 0 },
    order_reference, side := .Buy, shares, stock := Vector.replicate 8 ' '.toUInt8,
    price_1e4 := 1000000, attribution := none }

def sampleExecution (order_reference : OrderId) (shares : Shares) : OrderExecuted :=
  { header := { type := 'E'.toUInt8, stock_locate := 7, tracking_number := 0, timestamp_ns := 0 },
    order_reference, executed_shares := shares, match_number := 1 }

def sampleCancellation (order_reference : OrderId) (shares : Shares) : OrderCancel :=
  { header := { type := 'X'.toUInt8, stock_locate := 7, tracking_number := 0, timestamp_ns := 0 },
    order_reference, cancelled_shares := shares }

def sampleDeletion (order_reference : OrderId) : OrderDelete :=
  { header := { type := 'D'.toUInt8, stock_locate := 7, tracking_number := 0, timestamp_ns := 0 },
    order_reference }

end Samples

section Commute

theorem Invariant.countAt_lt {book : OrderBook} (h : book.Invariant)
    (hspare : ∀ side price level, book.level side price = some level →
      level.order_count ≠ uint32_max) (place : Side × Price4) :
    Ledger.countAt book.view place < levelCapacity := by
  obtain ⟨side, price⟩ := place
  rw [countAt_view]
  by_cases hside : side = Side.Buy ∨ side = Side.Sell
  · have hrepresents := h.level_represents hside price
    cases hlevel : book.level side price with
    | none =>
      rw [hlevel] at hrepresents
      have hzero : restingCount book.active_orders side price = 0 := hrepresents
      rw [hzero]
      decide
    | some level =>
      rw [hlevel] at hrepresents
      have hcount : level.order_count.toNat = restingCount book.active_orders side price :=
        hrepresents.2.2
      have hmax := hspare side price level hlevel
      have hlt := level.order_count.toNat_lt
      rw [ne_eq, uint32_max, Words.eq_max32_iff] at hmax
      unfold levelCapacity
      omega
  · -- no order is on any other side
    have hzero : ¬0 < restingCount book.active_orders side price := by
      rw [restingCount_pos_iff]
      rintro ⟨id, order, hfound, rfl, -⟩
      exact hside (h.orders id order hfound).side
    unfold levelCapacity
    omega

-- Where every level has room for one more order, two operations on different order
-- references may be taken in either order, even when they fill, empty or open one level.
theorem run_disjoint_commute (locate : StockLocate) (capacity : UInt64)
    (events : List OrderEvent) (first second : OrderEvent) :
    let book := run locate capacity events
    (∀ side price level, book.level side price = some level →
      level.order_count ≠ uint32_max) →
    first.references.Disjoint second.references →
    (book.apply first).1 = .ok () →
    ((book.apply first).2.apply second).1 = .ok () →
    (book.apply second).1 = .ok () ∧ ((book.apply second).2.apply first).1 = .ok () ∧
      ((book.apply second).2.apply first).2 = ((book.apply first).2.apply second).2 := by
  intro book hspare hdisjoint hfirst hsecond
  obtain ⟨h, -⟩ := run_spec locate capacity events
  rw [← first.references_step, ← second.references_step] at hdisjoint
  have hbook := apply_invariant h first
  have hlocate := apply_stock_locate h first
  obtain ⟨hadmissible, haccepts⟩ := (apply_ok_iff_step h first).mp hfirst
  obtain ⟨hadmissible', haccepts'⟩ := (apply_ok_iff_step hbook second).mp hsecond
  rw [hlocate] at hadmissible'
  rw [apply_view h hfirst] at haccepts'
  obtain ⟨hswapped, hswapped'⟩ :=
    Ledger.Step.accepts_swap hdisjoint (h.countAt_lt hspare) haccepts haccepts'
  have hok : (book.apply second).1 = .ok () :=
    (apply_ok_iff_step h second).mpr ⟨hadmissible', hswapped⟩
  have hbook' := apply_invariant h second
  have hlocate' := apply_stock_locate h second
  have hok' : ((book.apply second).2.apply first).1 = .ok () := by
    rw [apply_ok_iff_step hbook' first, hlocate', apply_view h hok]
    exact ⟨hadmissible, hswapped'⟩
  refine ⟨hok, hok', ?_⟩
  refine (apply_invariant hbook' first).eq_of_view (apply_invariant hbook second) ?_ ?_
  · rw [apply_stock_locate hbook' first, hlocate', apply_stock_locate hbook second, hlocate]
  · rw [apply_view hbook' hok', apply_view h hok, apply_view hbook hsecond, apply_view h hfirst]
    exact (Ledger.Step.effect_comm hdisjoint haccepts.1 hswapped.1).symm

-- The execution empties the level that the new bid opens again.
theorem sampleBid_commute :
    let book := run 7 0 [.add (sampleBid 1 60)]
    ((book.apply (.add (sampleBid 2 10))).2.apply (.execute (sampleExecution 1 60))).2 =
      ((book.apply (.execute (sampleExecution 1 60))).2.apply (.add (sampleBid 2 10))).2 := by
  refine (run_disjoint_commute 7 0 [.add (sampleBid 1 60)] (.execute (sampleExecution 1 60))
    (.add (sampleBid 2 10)) ?_ ?_ (by decide) (by decide)).2.2
  · intro side price level hlevel
    unfold OrderBook.level at hlevel
    split_ifs at hlevel
    · change ((∅ : BidLevels).insertIfNew 1000000
        { aggregate_shares := 60, order_count := 1 })[price]? = some level at hlevel
      simp only [FiniteMap.getElem?_insertIfNew, ExtTreeMap.getElem?_empty] at hlevel
      split_ifs at hlevel
      cases hlevel
      decide
    · change (∅ : AskLevels)[price]? = some level at hlevel
      rw [ExtTreeMap.getElem?_empty] at hlevel
      cases hlevel
  · simp [OrderEvent.references, sampleExecution, sampleBid]

end Commute

section Replace

-- The deletion and the addition that a replacement stands for.
def deletion (message : OrderReplace) : OrderDelete :=
  { header := message.header, order_reference := message.original_order_reference }

def addition (message : OrderReplace) (original : OrderRecord) (stock : StockSymbol) : AddOrder :=
  { header := message.header, order_reference := message.new_order_reference,
    side := original.side, shares := message.shares, stock, price_1e4 := message.price_1e4,
    attribution := if original.has_attribution then some original.attribution else none }

def delete_then_add (book : OrderBook) (message : OrderReplace) (stock : StockSymbol) :
    Result Unit × OrderBook :=
  match book.active_orders[message.original_order_reference]? with
  | none => book.delete_order (deletion message)
  | some original =>
    match book.delete_order (deletion message) with
    | (.error error, book) => (.error error, book)
    | (.ok (), book) => book.add (addition message original stock)

variable {book : OrderBook} (h : book.Invariant) (message : OrderReplace) (stock : StockSymbol)

theorem addition_resting (original : OrderRecord) :
    (addition message original stock).resting =
      { place := message.place original.resting, quantity := message.shares.toNat,
        tag := original.resting.tag } := rfl

theorem delete_then_add_eq {original : OrderRecord}
    (hfound : book.active_orders[message.original_order_reference]? = some original) :
    book.delete_then_add message stock =
      match book.apply (.delete_order (deletion message)) with
      | (.error error, book) => (.error error, book)
      | (.ok (), book) => book.apply (.add (addition message original stock)) := by
  unfold delete_then_add
  rw [hfound]
  rfl

include h

-- Replacing is deleting and adding, where the two references differ: the ledger accepts
-- both or neither.
theorem accepts_delete_then_add {original : OrderRecord}
    (hfound : book.active_orders[message.original_order_reference]? = some original)
    (hne : message.original_order_reference ≠ message.new_order_reference) :
    OrderLedger.Accepts book.stock_locate book.view (.replace message) ↔
      OrderLedger.Accepts book.stock_locate book.view (.delete_order (deletion message)) ∧
      OrderLedger.Accepts book.stock_locate
        (Ledger.remove book.view message.original_order_reference)
        (.add (addition message original stock)) := by
  have horiginal := h.orders _ original hfound
  have hview := view_of_getElem? hfound
  have hcapacity : Ledger.countAt book.view original.resting.place ≤ levelCapacity := by
    rw [OrderRecord.resting, countAt_view]
    exact h.restingCount_le horiginal.side original.price
  have hmove := Ledger.canMove_iff hview message.place message.shares.toNat hne hcapacity
  simp only [OrderLedger.Accepts, hmove, addition_resting]
  constructor
  · rintro ⟨hlocate, hprice, hroom⟩
    exact ⟨⟨hlocate, _, hview⟩, hlocate, horiginal.side, hprice, hroom⟩
  · rintro ⟨_, hlocate, _, hprice, hroom⟩
    exact ⟨hlocate, hprice, hroom⟩

theorem replace_found (hok : (book.apply (.replace message)).1 = .ok ()) :
    ∃ original, book.active_orders[message.original_order_reference]? = some original ∧
      message.original_order_reference ≠ message.new_order_reference := by
  obtain ⟨original, hpasses, -⟩ :=
    (accepts_replace_iff message).mp ((apply_ok_iff h _).mp hok)
  refine ⟨original, hpasses.found, ?_⟩
  intro heq
  have hfresh := hpasses.fresh
  rw [← heq, hpasses.found] at hfresh
  cases hfresh

-- Neither finds an original that is not there.
theorem replace_unknown (hnone : book.active_orders[message.original_order_reference]? = none) :
    ¬(book.apply (.replace message)).1 = .ok () ∧
      ¬(book.delete_then_add message stock).1 = .ok () := by
  constructor
  · intro hok
    obtain ⟨original, horiginal, -⟩ := replace_found h message hok
    rw [hnone] at horiginal
    cases horiginal
  · unfold delete_then_add
    rw [hnone]
    intro hok
    obtain ⟨-, entry, hentry⟩ := (apply_ok_iff h (.delete_order (deletion message))).mp hok
    obtain ⟨order, horder, -⟩ := view_eq_some hentry
    rw [deletion, hnone] at horder
    cases horder

-- After the deletion, the replacement and the addition are accepted alike and leave the
-- same book.
theorem replace_after_delete {original : OrderRecord}
    (hfound : book.active_orders[message.original_order_reference]? = some original)
    (hne : message.original_order_reference ≠ message.new_order_reference)
    (hdelete : (book.apply (.delete_order (deletion message))).1 = .ok ()) :
    let rest := (book.apply (.delete_order (deletion message))).2
    ((book.apply (.replace message)).1 = .ok () ↔
      (rest.apply (.add (addition message original stock))).1 = .ok ()) ∧
    ((book.apply (.replace message)).1 = .ok () →
      (book.apply (.replace message)).2 =
        (rest.apply (.add (addition message original stock))).2) := by
  intro rest
  have hrest : rest.Invariant := apply_invariant h _
  have hlocate : rest.stock_locate = book.stock_locate := apply_stock_locate h _
  have hview : rest.view = Ledger.remove book.view message.original_order_reference :=
    apply_view h hdelete
  have haccepts := accepts_delete_then_add h message stock hfound hne
  rw [← hview, ← hlocate, ← apply_ok_iff hrest, hlocate, ← apply_ok_iff h,
    ← apply_ok_iff h] at haccepts
  have hiff := haccepts.trans (and_iff_right hdelete)
  refine ⟨hiff, ?_⟩
  intro hreplace
  refine (apply_invariant h _).eq_of_view (apply_invariant hrest _) ?_ ?_
  · rw [apply_stock_locate h, apply_stock_locate hrest, hlocate]
  · rw [apply_view h hreplace, apply_view hrest (hiff.mp hreplace), hview]
    exact Ledger.move_eq_enter (view_of_getElem? hfound) _ _

theorem replace_iff_delete_then_add
    (hne : message.original_order_reference ≠ message.new_order_reference) :
    ((book.apply (.replace message)).1 = .ok () ↔
      (book.delete_then_add message stock).1 = .ok ()) ∧
    ((book.apply (.replace message)).1 = .ok () →
      (book.apply (.replace message)).2 = (book.delete_then_add message stock).2) := by
  cases hfound : book.active_orders[message.original_order_reference]? with
  | none =>
    obtain ⟨hreplace, hdelete⟩ := replace_unknown h message stock hfound
    exact ⟨iff_of_false hreplace hdelete, fun hok => absurd hok hreplace⟩
  | some original =>
    rw [delete_then_add_eq message stock hfound]
    have hafter := replace_after_delete h message stock hfound hne
    have haccepts := accepts_delete_then_add h message stock hfound hne
    rw [← apply_ok_iff h, ← apply_ok_iff h] at haccepts
    rcases hdelete : book.apply (.delete_order (deletion message)) with ⟨result, rest⟩
    rw [hdelete] at haccepts hafter
    cases result with
    | error error =>
      have hreplace : ¬(book.apply (.replace message)).1 = .ok () :=
        fun hok => nomatch (haccepts.mp hok).1
      exact ⟨iff_of_false hreplace nofun, fun hok => absurd hok hreplace⟩
    | ok _ => exact hafter rfl

-- In every book that events leave, `replace` is `delete_order` followed by `add`. With
-- equal references it fails: the new one is in use.
omit h in
theorem run_replace_eq (locate : StockLocate) (capacity : UInt64) (events : List OrderEvent)
    (message : OrderReplace) (stock : StockSymbol) :
    let book := run locate capacity events
    (message.original_order_reference ≠ message.new_order_reference →
      ((book.replace message).1 = .ok () ↔
        (book.delete_then_add message stock).1 = .ok ()) ∧
      ((book.replace message).1 = .ok () →
        (book.replace message).2 = (book.delete_then_add message stock).2)) ∧
    (message.original_order_reference = message.new_order_reference →
      ∃ error, book.replace message = (.error error, book)) := by
  intro book
  obtain ⟨h, -⟩ := run_spec locate capacity events
  refine ⟨replace_iff_delete_then_add h message stock, ?_⟩
  intro heq
  have hreject : ¬OrderLedger.Accepts book.stock_locate book.view (.replace message) := by
    rw [← apply_ok_iff h]
    intro hok
    obtain ⟨_, _, hne⟩ := replace_found h message hok
    exact hne heq
  have hfails := apply_rejected h _ hreject
  obtain ⟨error, herror, -⟩ := hfails.error
  exact ⟨error, Prod.ext herror hfails.unchanged⟩

end Replace

end OrderBook

end AegisFeed
