import AegisFeed.Book.OrderBook.Reductions
import AegisFeed.Library.ShortCircuit

namespace AegisFeed

open Std
open ShortCircuit (fault verdict verdict_fault verdict_fault_append)

namespace OrderLedger

-- The faults of an event, in the order in which the checks of the book find them. Of
-- the levels they know only that a place has a capacity for orders.
def addFaults (locate : StockLocate) (ledger : OrderLedger) (message : AddOrder) : List Error :=
  fault (message.header.stock_locate ≠ locate)
    (Error.invalid_add_order "add stock locate does not match containing book"
      message.header.stock_locate.toUInt64 locate.toUInt64) ++
  (fault (message.side ≠ Side.Buy ∧ message.side ≠ Side.Sell)
    (Error.invalid_add_order "add order has an invalid side" message.side.code.toUInt64 0) ++
  (fault (message.shares = 0)
    (Error.invalid_add_order "add order must have positive shares" 0 1) ++
  (fault (message.price_1e4 > kMaxPrice4)
    (Error.invalid_add_order "add order price exceeds the supported Price4 range"
      message.price_1e4.toUInt64 kMaxPrice4.toUInt64) ++
  (fault (ledger.contains message.order_reference)
    (Error.duplicate_order_reference message.order_reference) ++
  fault (levelCapacity ≤ Ledger.countAt ledger (message.side, message.price_1e4))
    (Error.book_arithmetic_overflow
      "adding an order would overflow the price-level order count"
      uint32_max.toUInt64 uint32_max.toUInt64)))))

def reductionFaults (locate : StockLocate) (ledger : OrderLedger) (stock_locate : StockLocate)
    (order_reference : OrderId) (shares : Shares) (kind : ReductionKind) : List Error :=
  fault (stock_locate ≠ locate)
    (Error.invalid_order_reduction "order reduction stock locate does not match containing book"
      stock_locate.toUInt64 locate.toUInt64) ++
  (fault (shares = 0)
    (Error.invalid_order_reduction "order reduction must have positive shares"
      shares.toUInt64 1) ++
  match ledger[order_reference]? with
  | none => [Error.unknown_order_reference order_reference]
  | some entry =>
    fault (entry.quantity < shares.toNat) (kind.over shares.toUInt64 (.ofNat entry.quantity)))

def deletionFaults (locate : StockLocate) (ledger : OrderLedger) (message : OrderDelete) :
    List Error :=
  fault (message.header.stock_locate ≠ locate)
    (Error.invalid_order_delete "delete stock locate does not match containing book"
      message.header.stock_locate.toUInt64 locate.toUInt64) ++
  fault (¬ledger.contains message.order_reference)
    (Error.unknown_order_reference message.order_reference)

def replacementFaults (locate : StockLocate) (ledger : OrderLedger) (message : OrderReplace) :
    List Error :=
  fault (message.header.stock_locate ≠ locate)
    (Error.invalid_order_replace "replace stock locate does not match containing book"
      message.header.stock_locate.toUInt64 locate.toUInt64) ++
  (fault (message.shares = 0)
    (Error.invalid_order_replace "replacement order must have positive shares"
      message.shares.toUInt64 1) ++
  (fault (message.price_1e4 > kMaxPrice4)
    (Error.invalid_order_replace "replacement price exceeds the supported Price4 range"
      message.price_1e4.toUInt64 kMaxPrice4.toUInt64) ++
  match ledger[message.original_order_reference]? with
  | none => [Error.unknown_order_reference message.original_order_reference]
  | some original =>
    fault (ledger.contains message.new_order_reference)
      (Error.duplicate_order_reference message.new_order_reference) ++
    fault (message.place original ≠ original.place ∧
        levelCapacity ≤ Ledger.countAt ledger (message.place original))
      (Error.book_arithmetic_overflow
        "replacement would overflow the destination-level order count"
        uint32_max.toUInt64 uint32_max.toUInt64)))

def faults (locate : StockLocate) (ledger : OrderLedger) : OrderEvent → List Error
  | .add message => addFaults locate ledger message
  | .execute message =>
    reductionFaults locate ledger message.header.stock_locate message.order_reference
      message.executed_shares .Execution
  | .execute_with_price message =>
    reductionFaults locate ledger message.header.stock_locate message.order_reference
      message.executed_shares .Execution
  | .cancel message =>
    reductionFaults locate ledger message.header.stock_locate message.order_reference
      message.cancelled_shares .Cancel
  | .delete_order message => deletionFaults locate ledger message
  | .replace message => replacementFaults locate ledger message

-- A book as a machine that holds its ledger and nothing else.
def step (locate : StockLocate) (ledger : OrderLedger) (event : OrderEvent) :
    Result Unit × OrderLedger :=
  match faults locate ledger event with
  | [] => (.ok (), effect ledger event)
  | error :: _ => (.error error, ledger)

end OrderLedger

namespace OrderBook

variable {book : OrderBook}

theorem view_contains (book : OrderBook) (id : OrderId) :
    book.view.contains id = book.active_orders.contains id := by
  rw [Bool.eq_iff_iff, ExtTreeMap.contains_iff_mem, ExtTreeMap.contains_iff_mem,
    FiniteMap.mem_iff_getElem?, FiniteMap.mem_iff_getElem?, view_getElem?]
  cases book.active_orders[id]? with
  | none => simp
  | some order => simp

-- A side operation that fails on every level map matching the orders and changes nothing.
theorem Invariant.side_fails (h : book.Invariant) {side : Side}
    (hside : side = Side.Buy ∨ side = Side.Sell)
    (operation : (order : Price4 → Price4 → Ordering) → [TransCmp order] → ActiveOrders →
      LevelMap order → Result Unit × ActiveOrders × LevelMap order) {error : Error}
    (hoperation : ∀ (order : Price4 → Price4 → Ordering) [TransCmp order] [LawfulEqCmp order]
      (levels : LevelMap order), LevelsMatch levels book.active_orders side →
      operation order book.active_orders levels = (.error error, book.active_orders, levels)) :
    (if side = Side.Buy then book.onBids (operation descending)
      else book.onAsks (operation compare)) = (.error error, book) := by
  rcases hside with rfl | rfl
  · rw [if_pos rfl]
    simp only [onBids, hoperation descending book.bids h.bids]
  · rw [if_neg (by decide)]
    simp only [onAsks, hoperation compare book.asks h.asks]

-- At a place with room the level takes one more order.
theorem Invariant.full_of_not_room (h : book.Invariant) {side : Side}
    (hside : side = Side.Buy ∨ side = Side.Sell) {price : Price4}
    (hroom : ¬restingCount book.active_orders side price < levelCapacity) :
    restingCount book.active_orders side price = levelCapacity :=
  Nat.le_antisymm (h.restingCount_le hside price) (Nat.not_lt.mp hroom)

theorem add_response (h : book.Invariant) (message : AddOrder) :
    (book.add message).1 =
      verdict (OrderLedger.addFaults book.stock_locate book.view message) () := by
  unfold OrderLedger.addFaults
  simp only [verdict_fault_append, verdict_fault, view_contains, countAt_view]
  by_cases hpasses : AddPasses book message
  · have hcheck := hpasses.check
    have hfinal : (book.add message).1 =
        if levelCapacity ≤ restingCount book.active_orders message.side message.price_1e4 then
          .error (Error.book_arithmetic_overflow
            "adding an order would overflow the price-level order count"
            uint32_max.toUInt64 uint32_max.toUInt64)
        else .ok () := by
      by_cases hroom :
          restingCount book.active_orders message.side message.price_1e4 < levelCapacity
      · rw [if_neg (Nat.not_le.mpr hroom)]
        exact (add_advances h message ((accepts_add_iff message).mpr ⟨hpasses, hroom⟩)).result
      · have hfull := h.full_of_not_room hpasses.side hroom
        rw [if_pos hfull.ge, add, hcheck]
        exact congrArg Prod.fst (h.side_fails hpasses.side
          (fun _ _ => add_to_side message (add_record message))
          (fun _ _ _ _ hmatch => add_to_side_full hmatch message (add_record message) hfull))
    rw [hfinal]
    unfold check_add at hcheck
    split_ifs at hcheck ⊢ <;> rfl
  · obtain ⟨error, hcheck, -⟩ := check_add_error message hpasses
    rw [add, hcheck]
    unfold check_add at hcheck
    split_ifs at hcheck ⊢ <;> exact hcheck.symm

theorem reduce_response (h : book.Invariant) (stock_locate : StockLocate) (id : OrderId)
    (shares : Shares) (kind : ReductionKind) :
    (book.reduce stock_locate id shares kind).1 =
      verdict (OrderLedger.reductionFaults book.stock_locate book.view stock_locate id shares
        kind) () := by
  unfold OrderLedger.reductionFaults reduce check_reduce
  simp only [verdict_fault_append, view_getElem?]
  by_cases hlocate : stock_locate ≠ book.stock_locate
  · simp only [if_pos hlocate]
  by_cases hzero : shares = 0
  · simp only [if_neg hlocate, if_pos hzero]
  simp only [if_neg hlocate, if_neg hzero]
  cases hfound : book.active_orders[id]? with
  | none => rfl
  | some active =>
    have hactive := h.orders id active hfound
    have hremaining : active.remaining ≠ 0 := (shares_pos_iff _).mp hactive.remaining
    simp only [Option.map_some, verdict_fault, if_neg (not_not.mpr hactive.id_eq),
      if_neg (not_not.mpr hactive.locate_eq), if_neg hremaining]
    have hover : shares > active.remaining ↔ active.resting.quantity < shares.toNat :=
      UInt32.lt_iff_toNat_lt
    by_cases hexceeds : shares > active.remaining
    · simp only [if_pos hexceeds, if_pos (hover.mp hexceeds)]
      simp only [OrderRecord.resting, UInt64.ofNat_uInt32ToNat]
      cases kind with
      | Execution => rfl
      | Cancel => rfl
    · simp only [if_neg hexceeds, if_neg (mt hover.mpr hexceeds), choose_side hactive.side]
      exact (reduce_step h hfound ((shares_pos_iff _).mpr hzero)
        (Nat.not_lt.mp (mt hover.mpr hexceeds))).result

theorem delete_response (h : book.Invariant) (message : OrderDelete) :
    (book.delete_order message).1 =
      verdict (OrderLedger.deletionFaults book.stock_locate book.view message) () := by
  unfold OrderLedger.deletionFaults delete_order check_delete
  simp only [verdict_fault_append, verdict_fault, view_contains]
  by_cases hlocate : message.header.stock_locate ≠ book.stock_locate
  · simp only [if_pos hlocate]
  simp only [if_neg hlocate]
  cases hfound : book.active_orders[message.order_reference]? with
  | none =>
    have hgone := (FiniteMap.not_contains_iff _ _).mpr hfound
    simp only [if_pos hgone]
  | some active =>
    have hactive := h.orders _ active hfound
    have hremaining : active.remaining ≠ 0 := (shares_pos_iff _).mp hactive.remaining
    have hpresent : ¬¬book.active_orders.contains message.order_reference := by
      rw [FiniteMap.not_contains_iff, hfound]
      exact Option.some_ne_none active
    simp only [if_neg (not_not.mpr hactive.id_eq), if_neg (not_not.mpr hactive.locate_eq),
      if_neg hremaining, choose_side hactive.side, if_neg hpresent]
    exact (delete_step h hfound).result

theorem replace_response (h : book.Invariant) (message : OrderReplace) :
    (book.replace message).1 =
      verdict (OrderLedger.replacementFaults book.stock_locate book.view message) () := by
  unfold OrderLedger.replacementFaults
  simp only [verdict_fault_append, view_getElem?]
  by_cases hlocate : message.header.stock_locate ≠ book.stock_locate
  · simp only [replace, check_replace, if_pos hlocate]
  by_cases hzero : message.shares = 0
  · simp only [replace, check_replace, if_neg hlocate, if_pos hzero]
  by_cases hprice : message.price_1e4 > kMaxPrice4
  · simp only [replace, check_replace, if_neg hlocate, if_neg hzero, if_pos hprice]
  simp only [if_neg hlocate, if_neg hzero, if_neg hprice]
  cases hfound : book.active_orders[message.original_order_reference]? with
  | none =>
    simp only [replace, check_replace, if_neg hlocate, if_neg hzero, if_neg hprice, hfound]
    rfl
  | some original =>
    have horiginal := h.orders _ original hfound
    have hremaining : original.remaining ≠ 0 := (shares_pos_iff _).mp horiginal.remaining
    simp only [Option.map_some, verdict_fault_append, verdict_fault, view_contains]
    by_cases hactive : book.active_orders.contains message.new_order_reference
    · simp only [replace, check_replace, if_neg hlocate, if_neg hzero, if_neg hprice, hfound,
        if_neg (not_not.mpr horiginal.id_eq), if_neg (not_not.mpr horiginal.locate_eq),
        if_neg hremaining, if_pos hactive]
    rw [if_neg hactive]
    have hpasses : ReplacePasses book message original :=
      ⟨not_not.mp hlocate, (shares_pos_iff _).mpr hzero, not_lt.mp hprice, hfound,
        (FiniteMap.not_contains_iff _ _).mp hactive⟩
    by_cases hroom : message.price_1e4 = original.price ∨
        restingCount book.active_orders original.side message.price_1e4 < levelCapacity
    · rw [(replace_advances h message hpasses hroom).result, if_neg]
      rw [OrderReplace.place, countAt_view]
      rintro ⟨hmoves, hfull⟩
      rcases hroom with hstays | hroom
      · exact hmoves (congrArg (Prod.mk original.side) hstays)
      · exact absurd hfull (Nat.not_le.mpr hroom)
    · obtain ⟨hmoves, hfull⟩ := not_or.mp hroom
      have hfull := h.full_of_not_room horiginal.side hfull
      rw [if_pos]
      · simp only [replace, hpasses.check h, choose_side horiginal.side]
        exact congrArg Prod.fst (h.side_fails horiginal.side
          (fun _ _ => replace_on_side message original)
          (fun _ _ _ _ hmatch =>
            replace_on_side_full hmatch h.allPositive hfound rfl hmoves hfull))
      · rw [OrderReplace.place, countAt_view]
        exact ⟨fun hplace => hmoves (congrArg Prod.snd hplace), hfull.ge⟩

theorem apply_response (h : book.Invariant) (event : OrderEvent) :
    (book.apply event).1 =
      verdict (OrderLedger.faults book.stock_locate book.view event) () := by
  cases event with
  | add message => exact add_response h message
  | execute message => exact reduce_response h _ _ _ .Execution
  | execute_with_price message => exact reduce_response h _ _ _ .Execution
  | cancel message => exact reduce_response h _ _ _ .Cancel
  | delete_order message => exact delete_response h message
  | replace message => exact replace_response h message

-- A step of the book is the step of its ledger, the response included.
theorem apply_step (h : book.Invariant) (event : OrderEvent) :
    OrderLedger.step book.stock_locate book.view event =
      ((book.apply event).1, (book.apply event).2.view) := by
  have hresponse := apply_response h event
  unfold OrderLedger.step
  cases hfaults : OrderLedger.faults book.stock_locate book.view event with
  | nil =>
    rw [hfaults] at hresponse
    have haccept := (apply_ok_iff h event).mp hresponse
    rw [hresponse, (apply_accepted h event haccept).view]
    rfl
  | cons error rest =>
    rw [hfaults] at hresponse
    rw [hresponse, apply_error_unchanged h event hresponse]
    rfl

theorem view_new (locate : StockLocate) (capacity : UInt64) :
    (new locate capacity).view = ∅ := by
  apply ExtTreeMap.ext_getElem?
  intro id
  rw [view_getElem?, new, ExtTreeMap.getElem?_empty, ExtTreeMap.getElem?_empty, Option.map_none]

section Run

variable (locate : StockLocate) (capacity : UInt64) (events : List OrderEvent)

-- The books of a locate, as they step.
def Located (locate : StockLocate) (book : OrderBook) : Prop :=
  book.Invariant ∧ book.stock_locate = locate

theorem Located.new : Located locate (new locate capacity) :=
  ⟨new_invariant locate capacity, rfl⟩

theorem Located.apply (book : OrderBook) (event : OrderEvent) (h : Located locate book) :
    Located locate (book.apply event).2 :=
  ⟨apply_invariant h.1 event, (apply_stock_locate h.1 event).trans h.2⟩

theorem Located.step (book : OrderBook) (event : OrderEvent) (h : Located locate book) :
    OrderLedger.step locate book.view event =
      (id (book.apply event).1, (book.apply event).2.view) := by
  obtain ⟨hinvariant, rfl⟩ := h
  exact apply_step hinvariant event

theorem run_view :
    (run locate capacity events).view = Machine.run (OrderLedger.step locate) ∅ events := by
  rw [← view_new locate capacity]
  exact (Machine.run_simulation apply (OrderLedger.step locate) view id (Located locate)
    (Located.apply locate) (Located.step locate) (Located.new locate capacity) events).symm

-- From construction, a book returns what its ledger returns, for every event of every
-- sequence: the same error at the first check that fails, and the same success.
theorem transcript_eq_ledger :
    Machine.transcript apply (new locate capacity) events =
        Machine.transcript (OrderLedger.step locate) ∅ events ∧
      (run locate capacity events).view = Machine.run (OrderLedger.step locate) ∅ events := by
  refine ⟨?_, run_view locate capacity events⟩
  rw [← view_new locate capacity, Machine.transcript_simulation apply (OrderLedger.step locate)
    view id (Located locate) (Located.apply locate) (Located.step locate)
    (Located.new locate capacity) events]
  exact (List.map_id _).symm

end Run

end OrderBook

end AegisFeed
