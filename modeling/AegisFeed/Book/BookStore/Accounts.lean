import AegisFeed.Book.BookStore.Totals
import AegisFeed.Library.Machine

namespace AegisFeed

open Std
open FiniteMap (total)

namespace OrderBook

-- What an applied event does to the accounts of the book it is applied to.
section Amounts

-- The remaining shares under a reference, zero for one that is not active.
def remaining (book : OrderBook) (reference : OrderId) : Nat :=
  match book.active_orders[reference]? with
  | none => 0
  | some order => order.remaining.toNat

def shares_entered (_ : OrderBook) : OrderEvent → Nat
  | .add message => message.shares.toNat
  | .replace message => message.shares.toNat
  | _ => 0

def shares_reduced (_ : OrderBook) : OrderEvent → Nat
  | .execute message => message.executed_shares.toNat
  | .execute_with_price message => message.executed_shares.toNat
  | .cancel message => message.cancelled_shares.toNat
  | _ => 0

-- The remaining shares of the order that a deletion or a replacement removes.
def shares_removed (book : OrderBook) : OrderEvent → Nat
  | .delete_order message => book.remaining message.order_reference
  | .replace message => book.remaining message.original_order_reference
  | _ => 0

def orders_added (_ : OrderBook) : OrderEvent → Nat
  | .add _ => 1
  | _ => 0

def orders_deleted (_ : OrderBook) : OrderEvent → Nat
  | .delete_order _ => 1
  | _ => 0

-- One for a reduction by all that remains of its order.
def consumes (book : OrderBook) (reference : OrderId) (shares : Shares) : Nat :=
  if book.remaining reference = shares.toNat then 1 else 0

def orders_consumed (book : OrderBook) : OrderEvent → Nat
  | .execute message => book.consumes message.order_reference message.executed_shares
  | .execute_with_price message => book.consumes message.order_reference message.executed_shares
  | .cancel message => book.consumes message.order_reference message.cancelled_shares
  | _ => 0

end Amounts

theorem held_view (book : OrderBook) (reference : OrderId) :
    Ledger.Step.held book.view reference = book.remaining reference := by
  unfold Ledger.Step.held remaining view
  rw [ExtTreeMap.getElem?_map]
  cases book.active_orders[reference]? with
  | none => rfl
  | some order => rfl

theorem closed_take (book : OrderBook) (reference : OrderId) (shares : Shares) :
    (Ledger.Step.take reference shares.toNat).closed book.view =
      book.consumes reference shares := by
  show (if Ledger.Step.held book.view reference = shares.toNat then 1 else 0) = _
  rw [held_view]
  rfl

theorem active_orders_new (stock_locate : StockLocate) (capacity : UInt64) :
    (new stock_locate capacity).active_orders.size = 0 :=
  ExtTreeMap.size_empty

section Step

variable (book : OrderBook) (event : OrderEvent)

theorem gained_step : event.step.gained = book.shares_entered event := by
  cases event <;> rfl

theorem lost_step :
    event.step.lost book.view = book.shares_reduced event + book.shares_removed event := by
  cases event with
  | add message => rfl
  | execute message => rfl
  | execute_with_price message => rfl
  | cancel message => rfl
  | delete_order message => exact (book.held_view _).trans (Nat.zero_add _).symm
  | replace message => exact (book.held_view _).trans (Nat.zero_add _).symm

theorem opened_step : event.step.opened = book.orders_added event := by
  cases event <;> rfl

theorem closed_step :
    event.step.closed book.view = book.orders_deleted event + book.orders_consumed event := by
  cases event with
  | add message => rfl
  | execute message => exact (book.closed_take _ _).trans (Nat.zero_add _).symm
  | execute_with_price message => exact (book.closed_take _ _).trans (Nat.zero_add _).symm
  | cancel message => exact (book.closed_take _ _).trans (Nat.zero_add _).symm
  | delete_order message => rfl
  | replace message => rfl

variable {book event} (h : book.Invariant) (hok : (book.apply event).1 = .ok ())

include h hok

theorem apply_shares_balance :
    (book.apply event).2.displayed_shares +
        (book.shares_reduced event + book.shares_removed event) =
      book.displayed_shares + book.shares_entered event := by
  rw [← lost_step, ← gained_step]
  exact apply_displayed_shares h hok

theorem apply_orders_balance :
    (book.apply event).2.active_orders.size +
        (book.orders_deleted event + book.orders_consumed event) =
      book.active_orders.size + book.orders_added event := by
  rw [← closed_step, ← opened_step]
  exact apply_active_orders h hok

end Step

end OrderBook

namespace BookStore

-- What a message counts for: the amount of an order event at the book it is applied to,
-- and nothing for any other message.
def applied (amount : OrderBook → OrderEvent → Nat) (store : BookStore) : StoreMessage → Nat
  | .directory _ => 0
  | .order event =>
    if (store.apply_event event).1 = .ok .Applied then
      match store.books_by_locate[event.stock_locate]? with
      | none => 0
      | some book => amount book event
    else 0

-- The sum of an amount over the applied order events of a run.
def account (amount : OrderBook → OrderEvent → Nat) (start : BookStore)
    (messages : List StoreMessage) : Nat :=
  Machine.accumulated BookStore.apply (applied amount) start messages

theorem applied_of_ne (amount : OrderBook → OrderEvent → Nat) {store : BookStore}
    {event : OrderEvent} (hother : (store.apply_event event).1 ≠ .ok .Applied) :
    applied amount store (.order event) = 0 :=
  if_neg hother

theorem applied_of_owned (amount : OrderBook → OrderEvent → Nat) {store : BookStore}
    {event : OrderEvent} {book : OrderBook} (happlied : (store.apply_event event).1 = .ok .Applied)
    (howned : store.books_by_locate[event.stock_locate]? = some book) :
    applied amount store (.order event) = amount book event := by
  unfold applied
  simp only [if_pos happlied, howned]

theorem applied_add (first second : OrderBook → OrderEvent → Nat) (store : BookStore)
    (message : StoreMessage) :
    applied (fun book event => first book event + second book event) store message =
      applied first store message + applied second store message := by
  cases message with
  | directory message => rfl
  | order event =>
    by_cases happlied : (store.apply_event event).1 = .ok .Applied
    · cases howned : store.books_by_locate[event.stock_locate]? with
      | none => simp only [applied, if_pos happlied, howned]
      | some book => simp only [applied_of_owned _ happlied howned]
    · simp only [applied_of_ne _ happlied]

theorem account_add (first second : OrderBook → OrderEvent → Nat) (start : BookStore)
    (messages : List StoreMessage) :
    account (fun book event => first book event + second book event) start messages =
      account first start messages + account second start messages := by
  have hsplit : applied (fun book event => first book event + second book event) =
      fun store message => applied first store message + applied second store message := by
    funext store message
    exact applied_add first second store message
  unfold account
  rw [hsplit, Machine.accumulated_add]

-- A value that a new book starts without, and what an event that a book accepts brings in
-- and takes out of it.
section Balance

variable {value : OrderBook → Nat} {gain loss : OrderBook → OrderEvent → Nat}
  (hnew : ∀ stock_locate capacity, value (OrderBook.new stock_locate capacity) = 0)
  (hevent : ∀ (book : OrderBook) (event : OrderEvent), book.Invariant →
    (book.apply event).1 = .ok () →
      value (book.apply event).2 + loss book event = value book + gain book event)

include hnew in
theorem Observed.total_eq {store : BookStore} {message : StockDirectory}
    {outcome : Result Unit × BookStore} (hobserved : Observed store message outcome) :
    total value outcome.2.books_by_locate = total value store.books_by_locate := by
  cases hobserved with
  | rejected error => rfl
  | unselected directory observed unselected => rfl
  | selected directory observed selected =>
    show total value (store.books_by_locate.insertIfNew _ _) = _
    cases howned : store.books_by_locate[message.header.stock_locate]? with
    | none =>
      rw [FiniteMap.insertIfNew_of_none _ _ _ howned, FiniteMap.total_insert _ _ _ _ howned,
        hnew, Nat.add_zero]
    | some book => rw [FiniteMap.insertIfNew_of_some _ _ _ howned]

include hevent in
theorem Invariant.event_balance {store : BookStore} (h : store.Invariant) (event : OrderEvent) :
    total value (store.apply_event event).2.books_by_locate + applied loss store (.order event) =
      total value store.books_by_locate + applied gain store (.order event) := by
  by_cases happlied : (store.apply_event event).1 = .ok .Applied
  · obtain ⟨book, howned, hok⟩ := (h.applied_iff event).mp happlied
    have hbook := hevent book event (h.books _ book howned).1 hok
    have htotal := FiniteMap.total_replace value store.books_by_locate event.stock_locate book
      (book.apply event).2 howned
    rw [applied_of_owned loss happlied howned, applied_of_owned gain happlied howned,
      h.apply_event_ok howned hok]
    dsimp only
    omega
  · rw [applied_of_ne loss happlied, applied_of_ne gain happlied,
      h.unapplied_unchanged event happlied]

include hnew hevent

theorem Invariant.message_balance {store : BookStore} (h : store.Invariant)
    (message : StoreMessage) :
    total value (store.apply message).2.books_by_locate + applied loss store message =
      total value store.books_by_locate + applied gain store message := by
  cases message with
  | directory message => exact (observe_spec store message).total_eq hnew
  | order event => exact h.event_balance hevent event

-- From creation, a store holds what came in and did not go out.
theorem run_balance {requested_symbols : List Symbol} {capacity : UInt64} {start : BookStore}
    (hcreate : create requested_symbols capacity = .ok start) (messages : List StoreMessage) :
    total value (Machine.run BookStore.apply start messages).books_by_locate +
      account loss start messages = account gain start messages := by
  have hbalance := Machine.run_balance BookStore.apply Invariant
    (fun store => total value store.books_by_locate) (applied gain) (applied loss)
    (fun _ message h => h.apply message) (fun _ message h => h.message_balance hnew hevent message)
    (create_invariant hcreate) messages
  have hempty : total value start.books_by_locate = 0 := by
    rw [(create_directory hcreate).2, FiniteMap.total_empty]
  rwa [hempty, Nat.zero_add] at hbalance

end Balance

section Runs

variable {requested_symbols : List Symbol} {capacity : UInt64} {start : BookStore}
  (hcreate : create requested_symbols capacity = .ok start) (messages : List StoreMessage)

include hcreate

theorem run_shares :
    (Machine.run BookStore.apply start messages).displayed_shares +
        (account OrderBook.shares_reduced start messages +
          account OrderBook.shares_removed start messages) =
      account OrderBook.shares_entered start messages := by
  rw [← account_add]
  exact run_balance OrderBook.displayed_shares_new
    (fun _ _ => OrderBook.apply_shares_balance) hcreate messages

theorem run_orders :
    (Machine.run BookStore.apply start messages).active_order_count +
        (account OrderBook.orders_deleted start messages +
          account OrderBook.orders_consumed start messages) =
      account OrderBook.orders_added start messages := by
  rw [← account_add]
  exact run_balance OrderBook.active_orders_new
    (fun _ _ => OrderBook.apply_orders_balance) hcreate messages

end Runs

-- The digest of a run accounts for the whole history of messages: the shares and the
-- orders it shows are those that applied events brought in and none took out.
theorem run_accounts {requested_symbols : List Symbol} {capacity : UInt64} {start : BookStore}
    (hcreate : create requested_symbols capacity = .ok start) (messages : List StoreMessage) :
    let store := Machine.run BookStore.apply start messages
    ∀ (order : HashOrder store) (last_mold_sequence : UInt64) (digest : StateDigest),
      compute_state_digest store order last_mold_sequence = .ok digest →
      digest.aggregate_displayed_shares.toNat +
          (account OrderBook.shares_reduced start messages +
            account OrderBook.shares_removed start messages) =
        account OrderBook.shares_entered start messages ∧
      digest.active_order_count.toNat +
          (account OrderBook.orders_deleted start messages +
            account OrderBook.orders_consumed start messages) =
        account OrderBook.orders_added start messages := by
  intro store order last_mold_sequence digest hdigest
  have hexact := ((Reachable.created hcreate).run messages).digestExact hdigest
  rw [hexact.aggregate_displayed_shares, hexact.active_order_count]
  exact ⟨run_shares hcreate messages, run_orders hcreate messages⟩

-- An order of 60 shares that is reduced by 20 and then replaced by one of 30.
def sampleHistory : List StoreMessage :=
  [.directory sampleListing, .order (.add (sampleAdd 7 60)), .order (.cancel (sampleCancel 20)),
    .order (.replace
      { header := sampleHeader 'U' 7, original_order_reference := 1, new_order_reference := 2,
        shares := 30, price_1e4 := 1000000 })]

theorem sampleStore_accounts :
    ∃ digest, compute_state_digest (sampleStore sampleHistory) (.ascending _) 5 = .ok digest ∧
      digest.aggregate_displayed_shares.toNat + (20 + 40) = 60 + 30 ∧
      digest.active_order_count.toNat + (0 + 0) = 1 := by
  have hfits : (sampleStore sampleHistory).displayed_shares < 2 ^ 64 := by decide
  obtain ⟨digest, hdigest⟩ :=
    ((sampleStore_reachable _).exists_digest_iff (.ascending _) 5).mpr hfits
  exact ⟨digest, hdigest, run_accounts sampleStart_created sampleHistory _ 5 digest hdigest⟩

end BookStore

end AegisFeed
