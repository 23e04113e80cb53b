import AegisFeed.Book.OrderBook.Algebra

namespace AegisFeed

open Std

-- What a reduction asks of a book: the locate, the order, the quantity and the kind.
def OrderEvent.reduction : OrderEvent → Option (StockLocate × OrderId × Shares × ReductionKind)
  | .execute message =>
    some (message.header.stock_locate, message.order_reference, message.executed_shares,
      .Execution)
  | .execute_with_price message =>
    some (message.header.stock_locate, message.order_reference, message.executed_shares,
      .Execution)
  | .cancel message =>
    some (message.header.stock_locate, message.order_reference, message.cancelled_shares, .Cancel)
  | _ => none

-- An execution or a cancellation of a positive quantity of the order.
structure Reduction (locate : StockLocate) (id : OrderId) where
  event : OrderEvent
  shares : Shares
  kind : ReductionKind
  reduces : event.reduction = some (locate, id, shares, kind)
  positive : 0 < shares.toNat

-- The error for a quantity above what is left.
def ReductionKind.over (requested remaining : UInt64) : ReductionKind → Error
  | .Execution => Error.over_execution requested remaining
  | .Cancel => Error.over_cancel requested remaining

namespace Reduction

variable {locate : StockLocate} {id : OrderId}

def requested (steps : List (Reduction locate id)) : Nat :=
  (steps.map fun step => step.shares.toNat).sum

@[simp] theorem requested_nil : requested ([] : List (Reduction locate id)) = 0 := rfl

@[simp] theorem requested_cons (step : Reduction locate id) (rest : List (Reduction locate id)) :
    requested (step :: rest) = step.shares.toNat + requested rest := rfl

theorem eq_nil_of_requested {steps : List (Reduction locate id)} (hzero : requested steps = 0) :
    steps = [] := by
  cases steps with
  | nil => rfl
  | cons step rest =>
    have hpositive := step.positive
    rw [requested_cons] at hzero
    omega

-- The step at which the sum of the quantities first exceeds a limit.
theorem exists_exceeding {steps : List (Reduction locate id)} {limit : Nat}
    (hover : limit < requested steps) :
    ∃ before step after, steps = before ++ step :: after ∧ requested before ≤ limit ∧
      limit < requested before + step.shares.toNat := by
  induction steps generalizing limit with
  | nil => cases hover
  | cons step rest ih =>
    by_cases hfirst : limit < step.shares.toNat
    · exact ⟨[], step, rest, rfl, Nat.zero_le _, by rwa [requested_nil, Nat.zero_add]⟩
    · rw [requested_cons] at hover
      have hrest : limit - step.shares.toNat < requested rest := by omega
      obtain ⟨before, next, after, rfl, hle, hlt⟩ := ih hrest
      refine ⟨step :: before, next, after, rfl, ?_, ?_⟩
      · rw [requested_cons]
        omega
      · rw [requested_cons]
        omega

end Reduction

namespace OrderBook

section Reductions

variable {book : OrderBook} (h : book.Invariant) {id : OrderId}

theorem apply_reduction (book : OrderBook) {locate : StockLocate}
    (step : Reduction locate id) :
    book.apply step.event = book.reduce locate id step.shares step.kind := by
  rcases step with ⟨event, shares, kind, hreduces, _⟩
  cases event with
  | execute => cases hreduces; rfl
  | execute_with_price => cases hreduces; rfl
  | cancel => cases hreduces; rfl
  | add => cases hreduces
  | delete_order => cases hreduces
  | replace => cases hreduces

-- A reduction finds no order.
theorem reduce_unknown (hnone : book.active_orders[id]? = none)
    (step : Reduction book.stock_locate id) :
    book.apply step.event = (.error (Error.unknown_order_reference id), book) := by
  have hshares := (shares_pos_iff _).mp step.positive
  rw [apply_reduction, reduce, check_reduce, if_neg (not_not.mpr rfl), if_neg hshares, hnone]

include h

-- A reduction asks for more than is left.
theorem reduce_over {active : OrderRecord} (hfound : book.active_orders[id]? = some active)
    (step : Reduction book.stock_locate id)
    (hover : active.remaining.toNat < step.shares.toNat) :
    book.apply step.event =
      (.error (step.kind.over step.shares.toUInt64 active.remaining.toUInt64), book) := by
  have hactive := h.orders id active hfound
  have hshares := (shares_pos_iff _).mp step.positive
  have hremaining := (shares_pos_iff _).mp hactive.remaining
  have hguard : step.shares > active.remaining := UInt32.lt_iff_toNat_lt.mpr hover
  rw [apply_reduction, reduce, check_reduce, if_neg (not_not.mpr rfl), if_neg hshares, hfound]
  simp only [if_neg (not_not.mpr hactive.id_eq), if_neg (not_not.mpr hactive.locate_eq),
    if_neg hremaining, if_pos hguard]
  rfl

theorem reduce_enough {active : OrderRecord} (hfound : book.active_orders[id]? = some active)
    (step : Reduction book.stock_locate id)
    (henough : step.shares.toNat ≤ active.remaining.toNat) :
    Follows book (Ledger.take book.view id step.shares.toNat) (book.apply step.event) := by
  rw [apply_reduction]
  exact reduce_follows h _ _ _ _
    ⟨rfl, step.positive, active.resting, view_of_getElem? hfound, henough⟩

end Reductions

section Reduced

open Reduction (requested requested_nil requested_cons)

variable {book : OrderBook} {locate : StockLocate} {id : OrderId} {active : OrderRecord}

def reduced (book : OrderBook) (steps : List (Reduction locate id)) : OrderBook :=
  Machine.run apply book (steps.map Reduction.event)

-- Reductions that the order has the shares for.
structure Reduces (book : OrderBook) (steps : List (Reduction locate id)) : Prop where
  results : ∀ entry ∈ Machine.transcript apply book (steps.map Reduction.event),
    entry.2 = .ok ()
  stock_locate : (book.reduced steps).stock_locate = locate
  view : (book.reduced steps).view = Ledger.take book.view id (requested steps)
  invariant : (book.reduced steps).Invariant

-- The induction is on the reductions, for all books: the order keeps what the first of
-- them leaves, and nothing may follow the one that takes all of it.
theorem reduces_of_enough (h : book.Invariant) (hlocate : book.stock_locate = locate)
    (hfound : book.active_orders[id]? = some active) (steps : List (Reduction locate id))
    (henough : requested steps ≤ active.remaining.toNat) : book.Reduces steps := by
  induction steps generalizing book active with
  | nil =>
    have hpositive : 0 < active.resting.quantity := (h.orders id active hfound).remaining
    refine ⟨List.forall_mem_nil _, hlocate, ?_, h⟩
    rw [requested_nil, Ledger.take_zero (view_of_getElem? hfound) hpositive]
    rfl
  | cons step rest ih =>
    subst hlocate
    rw [requested_cons] at henough
    have hview := view_of_getElem? hfound
    have hstep := reduce_enough h hfound step (by omega)
    by_cases hlast : requested rest = 0
    · obtain rfl := Reduction.eq_nil_of_requested hlast
      refine ⟨?_, hstep.stock_locate, hstep.view, hstep.invariant⟩
      intro entry hentry
      obtain rfl := List.mem_singleton.mp hentry
      exact hstep.result
    · have hpart : step.shares.toNat < active.resting.quantity := by
        change step.shares.toNat < active.remaining.toNat
        omega
      have hleft := Ledger.take_part_getElem? hview hpart
      rw [← hstep.view] at hleft
      obtain ⟨active', hfound', hresting⟩ := view_eq_some hleft
      have hremaining : active'.remaining.toNat = active.remaining.toNat - step.shares.toNat :=
        (congrArg Ledger.Entry.quantity hresting).symm
      obtain ⟨hresults, hlocate', hview', hinvariant⟩ :=
        ih hstep.invariant hstep.stock_locate hfound' (by omega)
      refine ⟨?_, hlocate', ?_, hinvariant⟩
      · intro entry hentry
        rcases List.mem_cons.mp hentry with rfl | hrest
        · exact hstep.result
        · exact hresults entry hrest
      · rw [hstep.view, Ledger.take_take hview (Nat.pos_of_ne_zero hlast) henough] at hview'
        exact hview'

theorem Reduces.active_none {steps : List (Reduction locate id)} (hsteps : book.Reduces steps)
    (hfound : book.active_orders[id]? = some active)
    (hall : requested steps = active.remaining.toNat) :
    (book.reduced steps).active_orders[id]? = none := by
  rw [← view_getElem?_eq_none_iff, hsteps.view, hall]
  exact Ledger.take_quantity_getElem? (view_of_getElem? hfound)

theorem Reduces.active_some {steps : List (Reduction locate id)} (hsteps : book.Reduces steps)
    (hfound : book.active_orders[id]? = some active)
    (hpart : requested steps < active.remaining.toNat) :
    ∃ left, (book.reduced steps).active_orders[id]? = some left ∧
      left.remaining.toNat = active.remaining.toNat - requested steps := by
  have hleft := Ledger.take_part_getElem? (view_of_getElem? hfound) hpart
  rw [← hsteps.view] at hleft
  obtain ⟨left, hfound', hresting⟩ := view_eq_some hleft
  exact ⟨left, hfound', (congrArg Ledger.Entry.quantity hresting).symm⟩

-- The first reduction that asks for more than the others have left.
theorem Reduces.exceeding {steps : List (Reduction locate id)} (hsteps : book.Reduces steps)
    (hfound : book.active_orders[id]? = some active)
    (henough : requested steps ≤ active.remaining.toNat) (step : Reduction locate id)
    (hover : active.remaining.toNat < requested steps + step.shares.toNat) :
    (book.reduced steps).apply step.event =
      (.error (if requested steps = active.remaining.toNat then
          Error.unknown_order_reference id
        else step.kind.over step.shares.toUInt64
          (UInt64.ofNat (active.remaining.toNat - requested steps))),
        book.reduced steps) := by
  have hlocate := hsteps.stock_locate
  by_cases hall : requested steps = active.remaining.toNat
  · have hnone := hsteps.active_none hfound hall
    have hinvariant := hsteps.invariant
    rw [if_pos hall]
    generalize book.reduced steps = after at *
    subst hlocate
    exact reduce_unknown hnone step
  · obtain ⟨left, hleft, hremaining⟩ := hsteps.active_some hfound (by omega)
    have hinvariant := hsteps.invariant
    have hword : left.remaining.toUInt64 =
        UInt64.ofNat (active.remaining.toNat - requested steps) := by
      rw [← hremaining, ← UInt64.toNat_inj, UInt32.toNat_toUInt64, UInt64.toNat_ofNat']
      have hlt := left.remaining.toNat_lt
      omega
    rw [if_neg hall, ← hword]
    generalize book.reduced steps = after at *
    subst hlocate
    exact reduce_over hinvariant hleft step (by omega)

-- Within what is left, one reduction by the sum does what all of them do, and a deletion
-- does where the sum is all.
theorem Reduces.single (h : book.Invariant) {steps : List (Reduction locate id)}
    (hsteps : book.Reduces steps) (hlocate : book.stock_locate = locate)
    (hfound : book.active_orders[id]? = some active)
    (henough : requested steps ≤ active.remaining.toNat) (single : Reduction locate id)
    (hsum : single.shares.toNat = requested steps) :
    book.apply single.event = (.ok (), book.reduced steps) := by
  have hlocate' := hsteps.stock_locate
  have hview := hsteps.view
  have hinvariant := hsteps.invariant
  generalize book.reduced steps = after at *
  subst hlocate
  have hsingle := reduce_enough h hfound single (by omega)
  refine Prod.ext hsingle.result (hsingle.invariant.eq_of_view hinvariant ?_ ?_)
  · rw [hsingle.stock_locate, hlocate']
  · rw [hsingle.view, hview, hsum]

theorem Reduces.deletion (h : book.Invariant) {steps : List (Reduction locate id)}
    (hsteps : book.Reduces steps) (hlocate : book.stock_locate = locate)
    (hfound : book.active_orders[id]? = some active)
    (hall : requested steps = active.remaining.toNat) (message : OrderDelete)
    (hmessage : message.header.stock_locate = locate) (hid : message.order_reference = id) :
    book.delete_order message = (.ok (), book.reduced steps) := by
  subst hid
  have hview := view_of_getElem? hfound
  have hdelete := apply_accepted h (.delete_order message)
    ⟨hmessage.trans hlocate.symm, active.resting, hview⟩
  refine Prod.ext hdelete.result (hdelete.invariant.eq_of_view hsteps.invariant ?_ ?_)
  · exact hdelete.stock_locate.trans (hlocate.trans hsteps.stock_locate.symm)
  · rw [hsteps.view, hall]
    exact hdelete.view.trans (Ledger.take_quantity hview).symm

end Reduced

-- Executions and cancellations of one order add up, in any mixture, until one of them asks
-- for more than the others have left of it.
theorem run_reductions_add (locate : StockLocate) (capacity : UInt64)
    (events : List OrderEvent) (id : OrderId) (active : OrderRecord)
    (steps : List (Reduction locate id)) :
    let book := run locate capacity events
    let total := Reduction.requested steps
    book.active_orders[id]? = some active →
    (total ≤ active.remaining.toNat →
      (∀ entry ∈ Machine.transcript apply book (steps.map Reduction.event),
        entry.2 = .ok ()) ∧
      (∃ shares : Shares, shares.toNat = total ∧
        ∀ single : Reduction locate id, single.shares = shares →
          book.apply single.event = (.ok (), book.reduced steps)) ∧
      (total = active.remaining.toNat → ∀ message : OrderDelete,
        message.header.stock_locate = locate → message.order_reference = id →
          book.delete_order message = (.ok (), book.reduced steps))) ∧
    (active.remaining.toNat < total → ∃ before step after,
      steps = before ++ step :: after ∧
      Reduction.requested before ≤ active.remaining.toNat ∧
      active.remaining.toNat < Reduction.requested before + step.shares.toNat ∧
      (∀ entry ∈ Machine.transcript apply book (before.map Reduction.event),
        entry.2 = .ok ()) ∧
      (book.reduced before).apply step.event =
        (.error (if Reduction.requested before = active.remaining.toNat then
            Error.unknown_order_reference id
          else step.kind.over step.shares.toUInt64
            (UInt64.ofNat (active.remaining.toNat - Reduction.requested before))),
          book.reduced before)) := by
  intro book total hfound
  obtain ⟨h, hlocate⟩ := run_spec locate capacity events
  refine ⟨?_, ?_⟩
  · intro henough
    have hsteps := reduces_of_enough h hlocate hfound steps henough
    have hlt := active.remaining.toNat_lt
    have hword : (UInt32.ofNat total).toNat = total := by
      rw [UInt32.toNat_ofNat', Nat.mod_eq_of_lt (by omega)]
    refine ⟨hsteps.results, ⟨UInt32.ofNat total, hword, ?_⟩, ?_⟩
    · intro single hshares
      exact hsteps.single h hlocate hfound henough single (by rw [hshares, hword])
    · exact hsteps.deletion h hlocate hfound
  · intro hover
    obtain ⟨before, step, after, hsplit, hle, hlt⟩ := Reduction.exists_exceeding hover
    have hbefore := reduces_of_enough h hlocate hfound before hle
    exact ⟨before, step, after, hsplit, hle, hlt, hbefore.results,
      hbefore.exceeding hfound hle step hlt⟩

def sampleReductions : List (Reduction 7 1) :=
  [⟨.execute (sampleExecution 1 25), 25, .Execution, rfl, by decide⟩,
    ⟨.cancel (sampleCancellation 1 35), 35, .Cancel, rfl, by decide⟩]

theorem sampleReductions_delete :
    (run 7 0 [.add (sampleBid 1 60)]).delete_order (sampleDeletion 1) =
      (.ok (), (run 7 0 [.add (sampleBid 1 60)]).reduced sampleReductions) :=
  ((run_reductions_add 7 0 [.add (sampleBid 1 60)] 1 (add_record (sampleBid 1 60))
    sampleReductions (by decide)).1 (by decide)).2.2 (by decide) (sampleDeletion 1) rfl rfl

end OrderBook

end AegisFeed
