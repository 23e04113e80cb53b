import AegisFeed.Book.OrderBook.Reductions

namespace AegisFeed

open Std

-- The codes that reject the values of a message, whatever the book holds.
def ErrorCode.rejectsValues : ErrorCode → Bool
  | .InvalidStockSymbol => true
  | .InvalidAddOrder => true
  | .InvalidOrderReduction => true
  | .InvalidOrderDelete => true
  | .InvalidOrderReplace => true
  | _ => false

-- The side is one of the two and the price is supported, where the event has them.
def OrderEvent.InRange : OrderEvent → Prop
  | .add message =>
    (message.side = Side.Buy ∨ message.side = Side.Sell) ∧ message.price_1e4 ≤ kMaxPrice4
  | .replace message => message.price_1e4 ≤ kMaxPrice4
  | _ => True

-- The ways an event in range can be refused by the book of its locate.
inductive OrderEvent.Refused : OrderEvent → Error → Prop
  | add (message : AddOrder) (zero : message.shares = 0) : Refused (.add message)
      (Error.invalid_add_order "add order must have positive shares" 0 1)
  | reduction {event : OrderEvent} (locate : StockLocate) (id : OrderId) (kind : ReductionKind)
      (zero : event.reduction = some (locate, id, 0, kind)) : Refused event
      (Error.invalid_order_reduction "order reduction must have positive shares" 0 1)
  | replace (message : OrderReplace) (zero : message.shares = 0) : Refused (.replace message)
      (Error.invalid_order_replace "replacement order must have positive shares" 0 1)
  | state {event : OrderEvent} {error : Error} (code : error.code.rejectsValues = false) :
      Refused event error

namespace OrderBook

variable {error : Error}

section Sides

-- A guarded outcome fails on one of its branches.
theorem guard_error {α : Type} {guard goal : Prop} [Decidable guard]
    {first second : Result Unit × α}
    (h : (if guard then first else second).1 = .error error)
    (hfirst : first.1 = .error error → goal) (hsecond : second.1 = .error error → goal) :
    goal := by
  split_ifs at h
  · exact hfirst h
  · exact hsecond h

-- A side operation fails only on a broken level or on a full one.
variable {order : Price4 → Price4 → Ordering} [TransCmp order] {active_orders : ActiveOrders}
  {levels : LevelMap order}

theorem add_to_side_error {message : AddOrder} {record : OrderRecord}
    (h : (add_to_side message record active_orders levels).1 = .error error) :
    error.code.rejectsValues = false := by
  unfold add_to_side at h
  split at h
  · split_ifs at h <;> cases h <;> rfl
  · cases h

theorem reduce_from_side_error {id : OrderId} {active : OrderRecord} {shares : Shares}
    (h : (reduce_from_side id active shares active_orders levels).1 = .error error) :
    error.code.rejectsValues = false := by
  unfold reduce_from_side at h
  split at h
  · cases h
    rfl
  · dsimp only at h
    split_ifs at h <;> cases h <;> rfl

theorem delete_from_side_error {id : OrderId} {active : OrderRecord}
    (h : (delete_from_side id active active_orders levels).1 = .error error) :
    error.code.rejectsValues = false := by
  unfold delete_from_side at h
  split at h
  · cases h
    rfl
  · dsimp only at h
    split_ifs at h <;> cases h <;> rfl

theorem replace_on_side_error {message : OrderReplace} {original : OrderRecord}
    (h : (replace_on_side message original active_orders levels).1 = .error error) :
    error.code.rejectsValues = false := by
  unfold replace_on_side at h
  cases hsource : levels[original.price]? with
  | none =>
    rw [hsource] at h
    cases h
    rfl
  | some source =>
    rw [hsource] at h
    dsimp only at h
    refine guard_error h (fun h => by cases h; rfl) fun h => ?_
    refine guard_error h (fun h => by cases h; rfl) fun h => ?_
    refine guard_error h (fun h => by cases h; rfl) fun h => ?_
    refine guard_error h (fun h => ?_) fun h => ?_
    · exact guard_error h (fun h => by cases h; rfl) fun h => by cases h
    · cases hdestination : levels[message.price_1e4]? with
      | none =>
        rw [hdestination] at h
        cases h
      | some destination =>
        rw [hdestination] at h
        dsimp only at h
        split_ifs at h <;> cases h <;> rfl

end Sides

section Checks

variable {book : OrderBook}

theorem check_add_refused {message : AddOrder}
    (hlocate : message.header.stock_locate = book.stock_locate)
    (hrange : (OrderEvent.add message).InRange) (h : book.check_add message = .error error) :
    OrderEvent.Refused (.add message) error := by
  obtain ⟨hside, hprice⟩ := hrange
  unfold check_add at h
  split_ifs at h with hother hneither hzero hover hactive
  · exact absurd hlocate hother
  · exact hside.elim (absurd · hneither.1) (absurd · hneither.2)
  · cases h
    exact .add message hzero
  · exact absurd hprice (not_le.mpr hover)
  · cases h
    exact .state rfl

theorem check_reduce_refused {event : OrderEvent} {stock_locate : StockLocate} {id : OrderId}
    {shares : Shares} {kind : ReductionKind}
    (hreduction : event.reduction = some (stock_locate, id, shares, kind))
    (hlocate : stock_locate = book.stock_locate)
    (h : book.check_reduce stock_locate id shares kind = .error error) :
    event.Refused error := by
  unfold check_reduce at h
  rw [if_neg (not_not_intro hlocate)] at h
  by_cases hzero : shares = 0
  · subst hzero
    rw [if_pos rfl] at h
    cases h
    exact .reduction stock_locate id kind hreduction
  rw [if_neg hzero] at h
  cases hfound : book.active_orders[id]? with
  | none =>
    rw [hfound] at h
    cases h
    exact .state rfl
  | some active =>
    rw [hfound] at h
    dsimp only at h
    split_ifs at h <;> cases h
    · exact .state rfl
    · exact .state rfl
    · exact .state rfl
    · cases kind <;> exact .state rfl

theorem check_delete_refused {message : OrderDelete}
    (hlocate : message.header.stock_locate = book.stock_locate)
    (h : book.check_delete message = .error error) :
    OrderEvent.Refused (.delete_order message) error := by
  unfold check_delete at h
  rw [if_neg (not_not_intro hlocate)] at h
  cases hfound : book.active_orders[message.order_reference]? with
  | none =>
    rw [hfound] at h
    cases h
    exact .state rfl
  | some active =>
    rw [hfound] at h
    dsimp only at h
    split_ifs at h <;> cases h <;> exact .state rfl

theorem check_replace_refused {message : OrderReplace}
    (hlocate : message.header.stock_locate = book.stock_locate)
    (hprice : message.price_1e4 ≤ kMaxPrice4)
    (h : book.check_replace message = .error error) :
    OrderEvent.Refused (.replace message) error := by
  unfold check_replace at h
  rw [if_neg (not_not_intro hlocate)] at h
  by_cases hzero : message.shares = 0
  · rw [if_pos hzero] at h
    cases h
    rw [hzero]
    exact .replace message hzero
  rw [if_neg hzero, if_neg (not_lt.mpr hprice)] at h
  cases hfound : book.active_orders[message.original_order_reference]? with
  | none =>
    rw [hfound] at h
    cases h
    exact .state rfl
  | some original =>
    rw [hfound] at h
    dsimp only at h
    split_ifs at h <;> cases h <;> exact .state rfl

end Checks

section Operations

variable {book : OrderBook}

theorem add_refused {message : AddOrder}
    (hlocate : message.header.stock_locate = book.stock_locate)
    (hrange : (OrderEvent.add message).InRange) (h : (book.add message).1 = .error error) :
    OrderEvent.Refused (.add message) error := by
  unfold add at h
  cases hcheck : book.check_add message with
  | error error' =>
    rw [hcheck] at h
    cases h
    exact check_add_refused hlocate hrange hcheck
  | ok =>
    rw [hcheck] at h
    dsimp only at h
    split_ifs at h
    · exact .state (add_to_side_error h)
    · exact .state (add_to_side_error h)

theorem reduce_refused {event : OrderEvent} {stock_locate : StockLocate} {id : OrderId}
    {shares : Shares} {kind : ReductionKind}
    (hreduction : event.reduction = some (stock_locate, id, shares, kind))
    (hlocate : stock_locate = book.stock_locate)
    (h : (book.reduce stock_locate id shares kind).1 = .error error) : event.Refused error := by
  unfold reduce at h
  cases hcheck : book.check_reduce stock_locate id shares kind with
  | error error' =>
    rw [hcheck] at h
    cases h
    exact check_reduce_refused hreduction hlocate hcheck
  | ok active =>
    rw [hcheck] at h
    dsimp only at h
    split_ifs at h
    · exact .state (reduce_from_side_error h)
    · exact .state (reduce_from_side_error h)
    · cases h
      exact .state rfl

theorem delete_refused {message : OrderDelete}
    (hlocate : message.header.stock_locate = book.stock_locate)
    (h : (book.delete_order message).1 = .error error) :
    OrderEvent.Refused (.delete_order message) error := by
  unfold delete_order at h
  cases hcheck : book.check_delete message with
  | error error' =>
    rw [hcheck] at h
    cases h
    exact check_delete_refused hlocate hcheck
  | ok active =>
    rw [hcheck] at h
    dsimp only at h
    split_ifs at h
    · exact .state (delete_from_side_error h)
    · exact .state (delete_from_side_error h)
    · cases h
      exact .state rfl

theorem replace_refused {message : OrderReplace}
    (hlocate : message.header.stock_locate = book.stock_locate)
    (hprice : message.price_1e4 ≤ kMaxPrice4) (h : (book.replace message).1 = .error error) :
    OrderEvent.Refused (.replace message) error := by
  unfold replace at h
  cases hcheck : book.check_replace message with
  | error error' =>
    rw [hcheck] at h
    cases h
    exact check_replace_refused hlocate hprice hcheck
  | ok original =>
    rw [hcheck] at h
    dsimp only at h
    split_ifs at h
    · exact .state (replace_on_side_error h)
    · exact .state (replace_on_side_error h)
    · cases h
      exact .state rfl

-- Of an event in range, the book of its locate rejects no value but a zero quantity.
theorem apply_refused {event : OrderEvent} (hlocate : event.stock_locate = book.stock_locate)
    (hrange : event.InRange) (h : (book.apply event).1 = .error error) :
    event.Refused error := by
  cases event with
  | add message => exact add_refused hlocate hrange h
  | execute message => exact reduce_refused rfl hlocate h
  | execute_with_price message => exact reduce_refused rfl hlocate h
  | cancel message => exact reduce_refused rfl hlocate h
  | delete_order message => exact delete_refused hlocate h
  | replace message => exact replace_refused hlocate hrange h

end Operations

end OrderBook

end AegisFeed
