import AegisFeed.Book.OrderBook.Operations
import AegisFeed.Library.Machine

namespace AegisFeed

open Std

namespace OrderBook

-- The level an accepted event would enter is at its capacity.
def Saturated (book : OrderBook) : OrderEvent → Prop
  | .add message =>
    restingCount book.active_orders message.side message.price_1e4 = levelCapacity
  | .replace message =>
    ∃ original, book.active_orders[message.original_order_reference]? = some original ∧
      message.price_1e4 ≠ original.price ∧
      restingCount book.active_orders original.side message.price_1e4 = levelCapacity
  | _ => False

theorem view_eq (book : OrderBook) :
    book.view = book.active_orders.map fun _ order => order.resting := rfl

theorem view_insert (orders : ActiveOrders) (id : OrderId) (order : OrderRecord) :
    (orders.insert id order).map (fun _ order => order.resting) =
      (orders.map fun _ order => order.resting).insert id order.resting :=
  FiniteMap.map_insert OrderRecord.resting orders id order

theorem view_erase (orders : ActiveOrders) (id : OrderId) :
    (orders.erase id).map (fun _ order => order.resting) =
      (orders.map fun _ order => order.resting).erase id :=
  FiniteMap.map_erase OrderRecord.resting orders id

-- What reducing an order does to the ledger.
theorem view_reducedOrders (book : OrderBook) {id : OrderId} {active : OrderRecord}
    (hfound : book.active_orders[id]? = some active) {shares : Shares}
    (hle : shares.toNat ≤ active.remaining.toNat) :
    (reducedOrders book.active_orders id active shares).map (fun _ order => order.resting) =
      Ledger.take book.view id shares.toNat := by
  have hview := view_of_getElem? hfound
  unfold reducedOrders
  by_cases hall : shares = active.remaining
  · subst hall
    rw [if_pos rfl, view_erase, ← view_eq]
    exact (Ledger.take_all hview rfl).symm
  · have hpart : active.resting.quantity ≠ shares.toNat :=
      fun he => hall (UInt32.toNat_inj.mp he.symm)
    rw [if_neg hall, view_insert, ← view_eq, Ledger.take_part hview hpart]
    simp only [OrderRecord.resting, Words.toNat_sub32 hle]

theorem view_replacedOrders (book : OrderBook) (message : OrderReplace)
    {original : OrderRecord}
    (hfound : book.active_orders[message.original_order_reference]? = some original) :
    (replacedOrders message book.active_orders original).map (fun _ order => order.resting) =
      Ledger.move book.view message.original_order_reference message.new_order_reference
        message.place message.shares.toNat := by
  rw [Ledger.move_of_getElem? (view_of_getElem? hfound)]
  unfold replacedOrders
  rw [view_insert, view_erase, ← view_eq]
  rfl

-- A successful step in terms of the ledger.
structure Follows (book : OrderBook) (ledger : OrderLedger)
    (outcome : Result Unit × OrderBook) : Prop where
  result : outcome.1 = .ok ()
  stock_locate : outcome.2.stock_locate = book.stock_locate
  view : outcome.2.view = ledger
  invariant : outcome.2.Invariant

theorem Advances.follows {book : OrderBook} {orders : ActiveOrders}
    {outcome : Result Unit × OrderBook} (h : Advances book orders outcome)
    {ledger : OrderLedger} (hledger : orders.map (fun _ order => order.resting) = ledger) :
    Follows book ledger outcome :=
  ⟨h.result, h.stock_locate, by rw [view_eq, h.active_orders, hledger], h.invariant⟩

theorem reduce_follows {book : OrderBook} (h : book.Invariant) (stock_locate : StockLocate)
    (id : OrderId) (shares : Shares) (kind : ReductionKind)
    (haccept : stock_locate = book.stock_locate ∧ Ledger.CanTake book.view id shares.toNat) :
    Follows book (Ledger.take book.view id shares.toNat)
      (book.reduce stock_locate id shares kind) := by
  obtain ⟨active, hpasses⟩ := (canTake_iff stock_locate id shares).mp haccept
  exact (reduce_advances h stock_locate id shares kind hpasses).follows
    (view_reducedOrders book hpasses.found hpasses.enough)

-- One step of the book is one step of the ledger, where the ledger accepts it.
theorem apply_accepted {book : OrderBook} (h : book.Invariant) (event : OrderEvent)
    (haccept : OrderLedger.Accepts book.stock_locate book.view event) :
    Follows book (OrderLedger.effect book.view event) (book.apply event) := by
  cases event with
  | add message =>
    refine (add_advances h message haccept).follows ?_
    rw [view_insert, add_record_resting]
    rfl
  | execute message => exact reduce_follows h _ _ _ .Execution haccept
  | execute_with_price message => exact reduce_follows h _ _ _ .Execution haccept
  | cancel message => exact reduce_follows h _ _ _ .Cancel haccept
  | delete_order message =>
    obtain ⟨hlocate, entry, hentry⟩ := haccept
    obtain ⟨active, hfound, rfl⟩ := view_eq_some hentry
    exact (delete_advances h message hlocate hfound).follows (view_erase _ _)
  | replace message =>
    obtain ⟨original, hpasses, hroom⟩ := (accepts_replace_iff message).mp haccept
    exact (replace_advances h message hpasses hroom).follows
      (view_replacedOrders book message hpasses.found)

theorem apply_rejected {book : OrderBook} (h : book.Invariant) (event : OrderEvent)
    (hreject : ¬OrderLedger.Accepts book.stock_locate book.view event) :
    Rejects book (book.Saturated event) (book.apply event) := by
  cases event with
  | add message => exact add_rejects h message hreject
  | execute message => exact reduce_rejects h _ _ _ .Execution hreject
  | execute_with_price message => exact reduce_rejects h _ _ _ .Execution hreject
  | cancel message => exact reduce_rejects h _ _ _ .Cancel hreject
  | delete_order message => exact delete_rejects message hreject
  | replace message => exact replace_rejects h message hreject

theorem apply_invariant {book : OrderBook} (h : book.Invariant) (event : OrderEvent) :
    (book.apply event).2.Invariant := by
  by_cases haccept : OrderLedger.Accepts book.stock_locate book.view event
  · exact (apply_accepted h event haccept).invariant
  · rw [(apply_rejected h event haccept).unchanged]
    exact h

theorem apply_stock_locate {book : OrderBook} (h : book.Invariant) (event : OrderEvent) :
    (book.apply event).2.stock_locate = book.stock_locate := by
  by_cases haccept : OrderLedger.Accepts book.stock_locate book.view event
  · exact (apply_accepted h event haccept).stock_locate
  · rw [(apply_rejected h event haccept).unchanged]

theorem apply_ok_iff {book : OrderBook} (h : book.Invariant) (event : OrderEvent) :
    (book.apply event).1 = .ok () ↔
      OrderLedger.Accepts book.stock_locate book.view event := by
  constructor
  · intro hok
    by_contra hreject
    obtain ⟨error, herror, _⟩ := (apply_rejected h event hreject).error
    rw [herror] at hok
    cases hok
  · intro haccept
    exact (apply_accepted h event haccept).result

-- A step that returns an error leaves the book as it was.
theorem apply_error_unchanged {book : OrderBook} (h : book.Invariant) (event : OrderEvent)
    {error : Error} (herror : (book.apply event).1 = .error error) :
    (book.apply event).2 = book := by
  by_cases haccept : OrderLedger.Accepts book.stock_locate book.view event
  · rw [(apply_ok_iff h event).mpr haccept] at herror
    cases herror
  · exact (apply_rejected h event haccept).unchanged

section Untouched

variable {ledger : OrderLedger} {place : Side × Price4} (weight : RestingOrder → Nat)
  (hweight : ∀ entry : RestingOrder, entry.place ≠ place → weight entry = 0)

include hweight

theorem total_take_of_untouched {id : OrderId} {amount : Nat}
    (htake : Ledger.CanTake ledger id amount)
    (huntouched : place ∉ (ledger[id]?.map Ledger.Entry.place).toList) :
    FiniteMap.total weight (Ledger.take ledger id amount) = FiniteMap.total weight ledger := by
  obtain ⟨_, entry, hfound, _⟩ := htake
  rw [hfound] at huntouched
  have hne : entry.place ≠ place := by
    rintro rfl
    exact huntouched (by simp)
  exact Ledger.total_take weight hfound amount fun _ => hweight _ hne

theorem total_remove_of_untouched {id : OrderId} (hremove : Ledger.CanRemove ledger id)
    (huntouched : place ∉ (ledger[id]?.map Ledger.Entry.place).toList) :
    FiniteMap.total weight (Ledger.remove ledger id) = FiniteMap.total weight ledger := by
  obtain ⟨entry, hfound⟩ := hremove
  rw [hfound] at huntouched
  refine Ledger.total_remove weight hfound (hweight _ ?_)
  rintro rfl
  exact huntouched (by simp)

-- An accepted event leaves the sums at every place it does not touch.
theorem total_effect {locate : StockLocate} {event : OrderEvent}
    (haccept : OrderLedger.Accepts locate ledger event)
    (huntouched : place ∉ OrderLedger.touched ledger event) :
    FiniteMap.total weight (OrderLedger.effect ledger event) = FiniteMap.total weight ledger := by
  cases event with
  | add message =>
    obtain ⟨_, _, _, _, hfresh, _⟩ := haccept
    refine Ledger.total_enter weight hfresh (hweight _ ?_)
    rintro rfl
    exact huntouched (List.mem_singleton.mpr rfl)
  | execute message => exact total_take_of_untouched weight hweight haccept.2 huntouched
  | execute_with_price message =>
    exact total_take_of_untouched weight hweight haccept.2 huntouched
  | cancel message => exact total_take_of_untouched weight hweight haccept.2 huntouched
  | delete_order message => exact total_remove_of_untouched weight hweight haccept.2 huntouched
  | replace message =>
    obtain ⟨_, _, _, entry, hfound, hfresh, _⟩ := haccept
    simp only [OrderLedger.touched, hfound, List.mem_cons, List.not_mem_nil, or_false,
      not_or] at huntouched
    exact Ledger.total_move weight hfound hfresh message.place _
      (hweight _ (Ne.symm huntouched.1)) (hweight _ (Ne.symm huntouched.2))

end Untouched

-- The level of a side and price.
def level (book : OrderBook) (side : Side) (price : Price4) : Option PriceLevel :=
  if side = Side.Buy then book.bids[price]? else book.asks[price]?

theorem Invariant.level_represents {book : OrderBook} (h : book.Invariant) {side : Side}
    (hside : side = Side.Buy ∨ side = Side.Sell) (price : Price4) :
    Represents (book.level side price) (restingShares book.active_orders side price)
      (restingCount book.active_orders side price) := by
  unfold level
  rcases hside with rfl | rfl
  · rw [if_pos rfl]
    exact h.bids price
  · rw [if_neg (by decide)]
    exact h.asks price

theorem apply_level {book : OrderBook} (h : book.Invariant) (event : OrderEvent) {side : Side}
    (hside : side = Side.Buy ∨ side = Side.Sell) (price : Price4)
    (huntouched : (side, price) ∉ OrderLedger.touched book.view event) :
    (book.apply event).2.level side price = book.level side price := by
  by_cases haccept : OrderLedger.Accepts book.stock_locate book.view event
  · have hstep := apply_accepted h event haccept
    have hnew := hstep.invariant.level_represents hside price
    rw [← quantityAt_view, ← countAt_view, hstep.view] at hnew
    have hshares : Ledger.quantityAt (OrderLedger.effect book.view event) (side, price) =
        Ledger.quantityAt book.view (side, price) :=
      total_effect _ (fun _ hne => if_neg hne) haccept huntouched
    have hcount : Ledger.countAt (OrderLedger.effect book.view event) (side, price) =
        Ledger.countAt book.view (side, price) :=
      total_effect _ (fun _ hne => if_neg hne) haccept huntouched
    rw [hshares, hcount, quantityAt_view, countAt_view] at hnew
    exact hnew.unique (h.level_represents hside price)
  · rw [(apply_rejected h event haccept).unchanged]

-- The book that the events leave, from construction.
def run (locate : StockLocate) (capacity : UInt64) (events : List OrderEvent) : OrderBook :=
  Machine.run apply (new locate capacity) events

theorem run_spec (locate : StockLocate) (capacity : UInt64) (events : List OrderEvent) :
    (run locate capacity events).Invariant ∧
      (run locate capacity events).stock_locate = locate := by
  refine Machine.run_invariant apply (fun book => book.Invariant ∧ book.stock_locate = locate)
    ?_ (new locate capacity) ⟨new_invariant locate capacity, rfl⟩ events
  rintro book event ⟨h, hlocate⟩
  exact ⟨apply_invariant h event, (apply_stock_locate h event).trans hlocate⟩

end OrderBook

end AegisFeed
