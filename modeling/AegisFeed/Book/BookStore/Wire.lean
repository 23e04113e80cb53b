import AegisFeed.Book.BookStore.Theorems
import AegisFeed.Book.OrderBook.Rejections
import AegisFeed.Book.SymbolDirectory.Names
import AegisFeed.Itch.Decoder.Theorems

namespace AegisFeed

-- The decoded messages that a store takes.
def DecodedItchMessage.storeMessage : DecodedItchMessage → Option StoreMessage
  | .StockDirectory message => some (.directory message)
  | .AddOrder message => some (.order (.add message))
  | .OrderExecuted message => some (.order (.execute message))
  | .OrderExecutedWithPrice message => some (.order (.execute_with_price message))
  | .OrderCancel message => some (.order (.cancel message))
  | .OrderDelete message => some (.order (.delete_order message))
  | .OrderReplace message => some (.order (.replace message))
  | .SystemEvent _ => none
  | .KnownBookNeutral _ => none

def StoreResponse.error? : StoreResponse → Option Error
  | .observed (.error error) => some error
  | .routed (.error error) => some error
  | _ => none

-- What the decoder has checked of the messages of a store.
def StoreMessage.Checked : StoreMessage → Prop
  | .directory message => PrintableText message.stock
  | .order event => event.InRange

-- The ways a checked message can be refused.
inductive StoreMessage.Refused : StoreMessage → Error → Prop
  | blank (message : StockDirectory)
      (blank : ∀ character ∈ message.stock.toList, character = ' '.toUInt8) :
      Refused (.directory message)
        (Error.invalid_stock_symbol "feed stock symbol is empty after normalization" 0)
  | order {event : OrderEvent} {error : Error} (refused : event.Refused error) :
      Refused (.order event) error
  | state {message : StoreMessage} {error : Error} (code : error.code.rejectsValues = false) :
      Refused message error

section Decoded

variable {payload : Span} {context : ItchDecodeContext} {decoded : DecodedItchMessage}
  {message : StoreMessage}

theorem AddOrder.Valid.inRange {order : AddOrder} {has_attribution : Bool}
    (h : order.Valid has_attribution) : (OrderEvent.add order).InRange := by
  refine ⟨?_, h.price_1e4⟩
  have hside := h.side
  rw [Grammar.sides, Grammar.letters, List.map_cons, List.map_cons, List.map_nil, List.mem_pair]
    at hside
  exact hside.imp (congrArg Side.mk) (congrArg Side.mk)

theorem DecodedItchMessage.WellFormed.checked (h : decoded.WellFormed)
    (hmessage : decoded.storeMessage = some message) : message.Checked := by
  cases decoded <;> cases hmessage
  case StockDirectory => exact h.2.stock
  case AddOrder => exact h.elim (fun h => h.2.inRange) (fun h => h.2.inRange)
  case OrderReplace => exact h.2
  all_goals trivial

theorem checked_of_decoded (h : decode_itch payload context = .ok decoded)
    (hmessage : decoded.storeMessage = some message) : message.Checked := by
  have hrequired : decoded.Required := by
    cases decoded <;> trivial
  exact (accepted_required hrequired h).1.checked hmessage

end Decoded

namespace SymbolDirectory

theorem observe_refused {directory : SymbolDirectory} {message : StockDirectory} {error : Error}
    (hprintable : PrintableText message.stock)
    (h : (directory.observe message).1 = .error error) :
    StoreMessage.Refused (.directory message) error := by
  have hnull : 0 ∉ message.stock.toList := by
    intro hmem
    exact absurd (hprintable 0 hmem) (by decide)
  unfold observe at h
  cases hnormal : normalize_feed_symbol message.stock with
  | error error' =>
    rw [hnormal] at h
    cases h
    obtain ⟨hblank, rfl⟩ := normalize_feed_symbol_error hnull hnormal
    exact .blank message hblank
  | ok symbol =>
    rw [hnormal] at h
    dsimp only at h
    split at h
    · split_ifs at h
      cases h
      exact .state rfl
    · split at h
      · cases h
      · cases h
      · split_ifs at h
        cases h
        exact .state rfl

end SymbolDirectory

namespace BookStore

variable {store : BookStore} {error : Error}

theorem observe_error {message : StockDirectory} (h : (store.observe message).1 = .error error) :
    (store.symbol_directory.observe message).1 = .error error := by
  unfold observe at h
  generalize store.symbol_directory.observe message = outcome at h ⊢
  rcases outcome with ⟨result, directory⟩
  cases result with
  | error error' => exact h
  | ok =>
    dsimp only at h
    split_ifs at h

-- The routed book has the locate of the event, so its own check of the locate passes.
theorem Invariant.event_refused (h : store.Invariant) {event : OrderEvent}
    (hrange : event.InRange) (herror : (store.apply_event event).1 = .error error) :
    StoreMessage.Refused (.order event) error := by
  have hrouted := h.routed event
  generalize store.apply_event event = outcome at hrouted herror
  cases hrouted with
  | unknown _ =>
    cases herror
    exact .state rfl
  | unselected _ => cases herror
  | rejected book error' owned result =>
    cases herror
    have hlocate := (h.books _ book owned).2
    exact .order (OrderBook.apply_refused hlocate.symm hrange result)
  | applied _ _ _ => cases herror

theorem Invariant.apply_refused (h : store.Invariant) {message : StoreMessage}
    (hchecked : message.Checked) (herror : (store.apply message).1.error? = some error) :
    message.Refused error := by
  cases message with
  | directory message =>
    change StoreResponse.error? (.observed (store.observe message).1) = some error at herror
    cases hresult : (store.observe message).1 with
    | error error' =>
      rw [hresult] at herror
      cases herror
      exact SymbolDirectory.observe_refused hchecked (observe_error hresult)
    | ok =>
      rw [hresult] at herror
      cases herror
  | order event =>
    change StoreResponse.error? (.routed (store.apply_event event).1) = some error at herror
    cases hresult : (store.apply_event event).1 with
    | error error' =>
      rw [hresult] at herror
      cases herror
      exact h.event_refused hchecked hresult
    | ok =>
      rw [hresult] at herror
      cases herror

-- Of the values of a decoded message, a reachable store rejects a zero quantity and a blank name,
-- and no other: the wire has been checked for the rest.
theorem Reachable.wire_refused {payload : Span} {context : ItchDecodeContext}
    {decoded : DecodedItchMessage} {message : StoreMessage} (h : store.Reachable)
    (hdecode : decode_itch payload context = .ok decoded)
    (hmessage : decoded.storeMessage = some message)
    (herror : (store.apply message).1.error? = some error) :
    (error.code = .InvalidAddOrder → ∃ order : AddOrder,
      message = .order (.add order) ∧ order.shares = 0 ∧
      error = Error.invalid_add_order "add order must have positive shares" 0 1) ∧
    (error.code = .InvalidOrderReduction → ∃ event locate id kind,
      message = .order event ∧ event.reduction = some (locate, id, 0, kind) ∧
      error = Error.invalid_order_reduction "order reduction must have positive shares" 0 1) ∧
    (error.code = .InvalidOrderReplace → ∃ order : OrderReplace,
      message = .order (.replace order) ∧ order.shares = 0 ∧
      error = Error.invalid_order_replace "replacement order must have positive shares" 0 1) ∧
    error.code ≠ .InvalidOrderDelete ∧
    (error.code = .InvalidStockSymbol → ∃ directory : StockDirectory,
      message = .directory directory ∧
      (∀ character ∈ directory.stock.toList, character = ' '.toUInt8) ∧
      error = Error.invalid_stock_symbol "feed stock symbol is empty after normalization" 0) := by
  have hrefused := h.invariant.apply_refused (checked_of_decoded hdecode hmessage) herror
  by_cases hvalues : error.code.rejectsValues = false
  · have hother : ∀ code : ErrorCode, code.rejectsValues = true → error.code ≠ code := by
      rintro code htrue rfl
      cases hvalues.symm.trans htrue
    exact ⟨(absurd · (hother _ rfl)), (absurd · (hother _ rfl)), (absurd · (hother _ rfl)),
      hother _ rfl, (absurd · (hother _ rfl))⟩
  · cases hrefused with
    | blank directory blank =>
      exact ⟨nofun, nofun, nofun, nofun, fun _ => ⟨directory, rfl, blank, rfl⟩⟩
    | state code => exact absurd code hvalues
    | order refused =>
      cases refused with
      | add order zero => exact ⟨fun _ => ⟨order, rfl, zero, rfl⟩, nofun, nofun, nofun, nofun⟩
      | reduction locate id kind zero =>
        exact ⟨nofun, fun _ => ⟨_, locate, id, kind, rfl, zero, rfl⟩, nofun, nofun, nofun⟩
      | replace order zero =>
        exact ⟨nofun, nofun, fun _ => ⟨order, rfl, zero, rfl⟩, nofun, nofun⟩
      | state code => exact absurd code hvalues

-- The payload that cancels nothing is accepted on the wire and refused by the book.
theorem sampleStore_wire_refused : ∃ error,
    ((sampleStore [.directory sampleListing]).apply (.order (.cancel (sampleCancel 0)))).1.error? =
      some error ∧
    error.code = .InvalidOrderReduction ∧
    error = Error.invalid_order_reduction "order reduction must have positive shares" 0 1 := by
  have hwell : (DecodedItchMessage.OrderCancel (sampleCancel 0)).WellFormed :=
    ⟨rfl, by decide⟩
  have hdecode := @decode_itch_wire ⟨(sampleCancel 0).wire, by decide⟩ ⟨0⟩ _ hwell rfl
  refine ⟨_, rfl, rfl, ?_⟩
  obtain ⟨-, hreduction, -⟩ :=
    (sampleStore_reachable [.directory sampleListing]).wire_refused hdecode rfl rfl
  obtain ⟨_, _, _, _, _, _, herror⟩ := hreduction rfl
  exact herror

end BookStore

end AegisFeed
