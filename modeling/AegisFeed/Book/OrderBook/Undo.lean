import AegisFeed.Book.OrderBook.Recovery
import AegisFeed.Library.Ledger.Undo

namespace AegisFeed

open Std
open Ledger.Step (Leads Sound advance)

-- The messages that take back what a book did.
section Messages

variable (header : ItchCommonHeader)

def removal (stock_locate : StockLocate) (order_reference : OrderId) : OrderDelete :=
  { header := { header with stock_locate }, order_reference }

-- The replacement that leaves an order as it was.
def OrderRecord.reversion (order : OrderRecord) (order_reference : OrderId) : OrderReplace :=
  { header := { header with stock_locate := order.stock_locate },
    original_order_reference := order_reference,
    new_order_reference := order.id,
    shares := order.remaining,
    price_1e4 := order.price }

end Messages

namespace OrderBook

section Undo

variable (header : ItchCommonHeader) (stock : StockSymbol) (book : OrderBook)

-- What is left of the order is deleted before the whole order is added again.
def undoReduction (id : OrderId) (shares : Shares) : List OrderEvent :=
  match book.active_orders[id]? with
  | none => []
  | some order =>
    if order.remaining = shares then [.add (order.restoration header stock)]
    else [.delete_order (removal header book.stock_locate id),
      .add (order.restoration header stock)]

def undoAccepted : OrderEvent → List OrderEvent
  | .add message => [.delete_order (removal header book.stock_locate message.order_reference)]
  | .execute message => undoReduction header stock book message.order_reference
    message.executed_shares
  | .execute_with_price message => undoReduction header stock book message.order_reference
    message.executed_shares
  | .cancel message => undoReduction header stock book message.order_reference
    message.cancelled_shares
  | .delete_order message =>
    match book.active_orders[message.order_reference]? with
    | none => []
    | some order => [.add (order.restoration header stock)]
  | .replace message =>
    match book.active_orders[message.original_order_reference]? with
    | none => []
    | some order => [.replace (order.reversion header message.new_order_reference)]

-- An event that fails needs nothing.
def undo (event : OrderEvent) : List OrderEvent :=
  if book.Succeeds event then undoAccepted header stock book event else []

theorem length_undo_le (event : OrderEvent) : (undo header stock book event).length ≤ 2 := by
  have hreduction : ∀ (id : OrderId) (shares : Shares),
      (undoReduction header stock book id shares).length ≤ 2 := by
    intro id shares
    unfold undoReduction
    split
    · exact Nat.zero_le 2
    · split_ifs <;> simp
  unfold undo
  split_ifs
  swap
  · exact Nat.zero_le 2
  cases event with
  | add message => exact Nat.le_succ 1
  | execute message => exact hreduction _ _
  | execute_with_price message => exact hreduction _ _
  | cancel message => exact hreduction _ _
  | delete_order message =>
    simp only [undoAccepted]
    split <;> simp
  | replace message =>
    simp only [undoAccepted]
    split <;> simp

end Undo

variable {header : ItchCommonHeader} {stock : StockSymbol} {book : OrderBook}

theorem Invariant.sound (h : book.Invariant) : Sound levelCapacity book.view := by
  refine ⟨?_, ?_⟩
  · intro reference entry hentry
    obtain ⟨order, hfound, rfl⟩ := view_eq_some hentry
    exact (h.orders reference order hfound).remaining
  · rintro ⟨side, price⟩
    rw [countAt_view]
    by_cases hside : side = Side.Buy ∨ side = Side.Sell
    · exact h.restingCount_le hside price
    · have hzero : ¬0 < restingCount book.active_orders side price := by
        rw [restingCount_pos_iff]
        rintro ⟨id, order, hfound, rfl, -⟩
        exact hside (h.orders id order hfound).side
      omega

-- Events that lead one ledger to the other lead one book to the other.
theorem Invariant.run_leads (h : book.Invariant) {other : OrderBook} (hother : other.Invariant)
    (hlocate : book.stock_locate = other.stock_locate) {events : List OrderEvent}
    (hadmissible : ∀ event ∈ events, event.Admissible book.stock_locate)
    (hleads : Leads levelCapacity book.view (events.map OrderEvent.step) other.view) :
    Machine.Admits apply Succeeds book events ∧ Machine.run apply book events = other := by
  induction events generalizing book with
  | nil => exact ⟨trivial, h.eq_of_view hother hlocate hleads.2⟩
  | cons event rest ih =>
    obtain ⟨⟨haccepts, hadmits⟩, hrun⟩ := hleads
    rw [List.forall_mem_cons] at hadmissible
    have hok := (apply_ok_iff_step h event).mpr ⟨hadmissible.1, haccepts⟩
    have hview := apply_view h hok
    have hstays := apply_stock_locate h event
    have hnext := ih (apply_invariant h event) (hstays.trans hlocate)
      (by rw [hstays]; exact hadmissible.2) (by rw [hview]; exact ⟨hadmits, hrun⟩)
    exact ⟨⟨hok, hnext.1⟩, hnext.2⟩

section Undone

variable (h : book.Invariant)

include h

theorem Invariant.restoration_admissible {id : OrderId} {order : OrderRecord}
    (hfound : book.active_orders[id]? = some order) :
    (OrderEvent.add (order.restoration header stock)).Admissible book.stock_locate := by
  have horder := h.orders id order hfound
  exact ⟨horder.locate_eq, horder.side, horder.price⟩

-- The events lead back from what the ledger of the book became.
def Undoes (book : OrderBook) (ledger : OrderLedger) (events : List OrderEvent) : Prop :=
  (∀ event ∈ events, event.Admissible book.stock_locate) ∧
    Leads levelCapacity ledger (events.map OrderEvent.step) book.view

theorem Invariant.undoes_remove {id : OrderId} {order : OrderRecord}
    (hfound : book.active_orders[id]? = some order) :
    Undoes book (Ledger.remove book.view id) [.add (order.restoration header stock)] := by
  have hid := (h.orders id order hfound).id_eq
  refine ⟨List.forall_mem_singleton.mpr (h.restoration_admissible hfound), ?_⟩
  show Leads levelCapacity (book.view.erase id) [.enter order.id order.resting] book.view
  rw [hid]
  exact Ledger.Step.leads_enter h.sound (view_of_getElem? hfound)

theorem Invariant.undoes_reduction {id : OrderId} {shares : Shares}
    (htake : Ledger.CanTake book.view id shares.toNat) :
    Undoes book (Ledger.take book.view id shares.toNat)
      (undoReduction header stock book id shares) := by
  obtain ⟨-, _, hentry, -⟩ := htake
  obtain ⟨order, hfound, rfl⟩ := view_eq_some hentry
  have hid := (h.orders id order hfound).id_eq
  unfold undoReduction
  rw [hfound]
  dsimp only
  by_cases hall : order.remaining = shares
  · rw [if_pos hall, Ledger.take_all hentry (congrArg UInt32.toNat hall)]
    exact h.undoes_remove hfound
  · rw [if_neg hall, Ledger.take_part hentry fun heq => hall (UInt32.toNat_inj.mp heq)]
    refine ⟨List.forall_mem_cons.mpr ⟨⟨rfl, trivial⟩,
      List.forall_mem_singleton.mpr (h.restoration_admissible hfound)⟩, ?_⟩
    show Leads levelCapacity _ [.remove id, .enter order.id order.resting] book.view
    rw [hid]
    exact Ledger.Step.leads_remove_enter h.sound hentry _

theorem Invariant.undoes_replace (message : OrderReplace) {order : OrderRecord}
    (hfound : book.active_orders[message.original_order_reference]? = some order)
    (hmove : Ledger.CanMove levelCapacity book.view message.original_order_reference
      message.new_order_reference message.place message.shares.toNat) :
    Undoes book (Ledger.move book.view message.original_order_reference
        message.new_order_reference message.place message.shares.toNat)
      [.replace (order.reversion header message.new_order_reference)] := by
  have horder := h.orders _ order hfound
  refine ⟨List.forall_mem_singleton.mpr ⟨horder.locate_eq, horder.price⟩, ?_⟩
  show Leads levelCapacity _ [.move message.new_order_reference order.id _ _] book.view
  rw [horder.id_eq]
  exact Ledger.Step.leads_move h.sound (view_of_getElem? hfound) hmove rfl

theorem Invariant.undoes_accepted {event : OrderEvent} (hok : book.Succeeds event) :
    Undoes book (event.step.effect book.view) (undoAccepted header stock book event) := by
  obtain ⟨-, haccepts⟩ := (apply_ok_iff_step h event).mp hok
  cases event with
  | add message =>
    obtain ⟨-, hfresh, -⟩ := (Ledger.Step.accepts_enter_iff _ _).mp haccepts
    exact ⟨List.forall_mem_singleton.mpr ⟨rfl, trivial⟩, Ledger.Step.leads_remove hfresh⟩
  | execute message => exact h.undoes_reduction ((Ledger.Step.accepts_take_iff _ _).mp haccepts)
  | execute_with_price message =>
    exact h.undoes_reduction ((Ledger.Step.accepts_take_iff _ _).mp haccepts)
  | cancel message => exact h.undoes_reduction ((Ledger.Step.accepts_take_iff _ _).mp haccepts)
  | delete_order message =>
    obtain ⟨_, hentry⟩ := (Ledger.Step.accepts_remove_iff _).mp haccepts
    obtain ⟨order, hfound, -⟩ := view_eq_some hentry
    simp only [undoAccepted, hfound]
    exact h.undoes_remove hfound
  | replace message =>
    have hmove := (Ledger.Step.accepts_move_iff _ _ _ _).mp haccepts
    have hentry := hmove
    obtain ⟨-, _, hentry, -⟩ := hentry
    obtain ⟨order, hfound, -⟩ := view_eq_some hentry
    simp only [undoAccepted, hfound]
    exact h.undoes_replace message hfound hmove

theorem Invariant.undo_locate {event undoing : OrderEvent}
    (hmem : undoing ∈ undo header stock book event) : undoing.stock_locate = book.stock_locate := by
  unfold undo at hmem
  split_ifs at hmem with hok
  · exact ((h.undoes_accepted hok).1 undoing hmem).1
  · cases hmem

-- An event is taken back by messages that the book accepts.
theorem Invariant.undone (header : ItchCommonHeader) (stock : StockSymbol) (event : OrderEvent) :
    Machine.Admits apply Succeeds (book.apply event).2 (undo header stock book event) ∧
      Machine.run apply (book.apply event).2 (undo header stock book event) = book := by
  unfold undo
  by_cases hok : book.Succeeds event
  · obtain ⟨hadmissible, hleads⟩ := h.undoes_accepted hok
    rw [if_pos hok]
    have hlocate := apply_stock_locate h event
    rw [← hlocate] at hadmissible
    rw [← apply_view h hok] at hleads
    exact (apply_invariant h event).run_leads h hlocate hadmissible hleads
  · rw [if_neg hok]
    refine ⟨trivial, ?_⟩
    cases hresult : (book.apply event).1 with
    | error error => exact apply_error_unchanged h event hresult
    | ok => exact absurd hresult hok

end Undone

end OrderBook

end AegisFeed
