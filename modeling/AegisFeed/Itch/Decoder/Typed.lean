import AegisFeed.Itch.Decoder.Theorems

namespace AegisFeed

open ShortCircuit

-- A typed decoder, with the alternative of the unified message that holds its messages.
structure TypedDecoder where
  Message : Type
  type : UInt8
  length : UInt64
  decode : Span → ItchDecodeContext → Result Message
  lift : Message → DecodedItchMessage
  registered : ⟨type, length, .Required⟩ ∈ itch_type_definitions
  lift_injective : lift.Injective
  dispatched : ∀ payload context,
    decode_required payload context type = lift_decoded_result lift (decode payload context)
  length_checked : ∀ payload context, payload.size ≠ length →
    decode payload context =
      .error (Error.invalid_itch_length length payload.size context.sequence type)
  type_checked : ∀ payload context, payload.bytes.length = length.toNat →
    ∃ faults message, decode payload context =
      verdict (typeFaults payload.bytes context.sequence type ++ faults) message

-- The nine typed decoders.
def SystemEvent.decoder : TypedDecoder where
  Message := SystemEvent
  type := 'S'.toUInt8
  length := kSystemEventLength
  decode := decode_system_event
  lift := .SystemEvent
  registered := SystemEvent.layout.registered
  lift_injective _ _ := DecodedItchMessage.SystemEvent.inj
  dispatched _ _ := rfl
  length_checked _ _ h := if_pos h
  type_checked _ _ h := ⟨_, _, decode_system_event_eq h⟩

def StockDirectory.decoder : TypedDecoder where
  Message := StockDirectory
  type := 'R'.toUInt8
  length := kStockDirectoryLength
  decode := decode_stock_directory
  lift := .StockDirectory
  registered := StockDirectory.layout.registered
  lift_injective _ _ := DecodedItchMessage.StockDirectory.inj
  dispatched _ _ := rfl
  length_checked _ _ h := if_pos h
  type_checked _ _ h := ⟨_, _, decode_stock_directory_eq h⟩

def AddOrder.decoder : TypedDecoder where
  Message := AddOrder
  type := 'A'.toUInt8
  length := kAddOrderLength
  decode := decode_add_order
  lift := .AddOrder
  registered := AddOrder.layout.registered
  lift_injective _ _ := DecodedItchMessage.AddOrder.inj
  dispatched _ _ := rfl
  length_checked _ _ h := if_pos h
  type_checked _ _ h := ⟨_, _, decode_add_order_eq h⟩

def AddOrder.attributedDecoder : TypedDecoder where
  Message := AddOrder
  type := 'F'.toUInt8
  length := kAddOrderWithAttributionLength
  decode := decode_add_order_with_attribution
  lift := .AddOrder
  registered := AddOrder.attributedLayout.registered
  lift_injective _ _ := DecodedItchMessage.AddOrder.inj
  dispatched _ _ := rfl
  length_checked _ _ h := if_pos h
  type_checked _ _ h := ⟨_, _, decode_add_order_with_attribution_eq h⟩

def OrderExecuted.decoder : TypedDecoder where
  Message := OrderExecuted
  type := 'E'.toUInt8
  length := kOrderExecutedLength
  decode := decode_order_executed
  lift := .OrderExecuted
  registered := OrderExecuted.layout.registered
  lift_injective _ _ := DecodedItchMessage.OrderExecuted.inj
  dispatched _ _ := rfl
  length_checked _ _ h := if_pos h
  type_checked _ _ h := ⟨_, _, decode_order_executed_eq h⟩

def OrderExecutedWithPrice.decoder : TypedDecoder where
  Message := OrderExecutedWithPrice
  type := 'C'.toUInt8
  length := kOrderExecutedWithPriceLength
  decode := decode_order_executed_with_price
  lift := .OrderExecutedWithPrice
  registered := OrderExecutedWithPrice.layout.registered
  lift_injective _ _ := DecodedItchMessage.OrderExecutedWithPrice.inj
  dispatched _ _ := rfl
  length_checked _ _ h := if_pos h
  type_checked _ _ h := ⟨_, _, decode_order_executed_with_price_eq h⟩

def OrderCancel.decoder : TypedDecoder where
  Message := OrderCancel
  type := 'X'.toUInt8
  length := kOrderCancelLength
  decode := decode_order_cancel
  lift := .OrderCancel
  registered := OrderCancel.layout.registered
  lift_injective _ _ := DecodedItchMessage.OrderCancel.inj
  dispatched _ _ := rfl
  length_checked _ _ h := if_pos h
  type_checked _ _ h := ⟨_, _, decode_order_cancel_eq h⟩

def OrderDelete.decoder : TypedDecoder where
  Message := OrderDelete
  type := 'D'.toUInt8
  length := kOrderDeleteLength
  decode := decode_order_delete
  lift := .OrderDelete
  registered := OrderDelete.layout.registered
  lift_injective _ _ := DecodedItchMessage.OrderDelete.inj
  dispatched _ _ := rfl
  length_checked _ _ h := if_pos h
  type_checked _ _ h := ⟨_, _, decode_order_delete_eq h⟩

def OrderReplace.decoder : TypedDecoder where
  Message := OrderReplace
  type := 'U'.toUInt8
  length := kOrderReplaceLength
  decode := decode_order_replace
  lift := .OrderReplace
  registered := OrderReplace.layout.registered
  lift_injective _ _ := DecodedItchMessage.OrderReplace.inj
  dispatched _ _ := rfl
  length_checked _ _ h := if_pos h
  type_checked _ _ h := ⟨_, _, decode_order_replace_eq h⟩

def typed_decoders : List TypedDecoder :=
  [SystemEvent.decoder, StockDirectory.decoder, AddOrder.decoder, AddOrder.attributedDecoder,
    OrderExecuted.decoder, OrderExecutedWithPrice.decoder, OrderCancel.decoder,
    OrderDelete.decoder, OrderReplace.decoder]

section Lift

variable {Message : Type} {lift : Message → DecodedItchMessage}

theorem lift_decoded_ok_iff (hinjective : lift.Injective) (result : Result Message)
    (message : Message) :
    lift_decoded_result lift result = .ok (lift message) ↔ result = .ok message := by
  cases result with
  | error error => exact iff_of_false nofun nofun
  | ok value => simp only [lift_decoded_result, Except.ok.injEq, hinjective.eq_iff]

theorem lift_decoded_error_iff (result : Result Message) (error : Error) :
    lift_decoded_result lift result = .error error ↔ result = .error error := by
  cases result with
  | error error' => simp only [lift_decoded_result, Except.error.injEq]
  | ok value => exact iff_of_false nofun nofun

end Lift

namespace TypedDecoder

variable (decoder : TypedDecoder) {payload : Span} {context : ItchDecodeContext}

-- On a payload of its type the unified decoder does what the typed one does.
theorem decode_itch_eq (htype : payload.bytes.head? = some decoder.type) :
    decode_itch payload context =
      lift_decoded_result decoder.lift (decoder.decode payload context) := by
  rw [decode_itch_of_registered decoder.registered htype]
  by_cases hsize : payload.size = decoder.length
  · have hrequired : ItchTypeClass.Required ≠ .KnownBookNeutral := by decide
    rw [if_neg (not_not_intro hsize), if_neg hrequired]
    exact decoder.dispatched payload context
  · rw [if_pos hsize, decoder.length_checked payload context hsize]
    rfl

-- On a payload of another type it fails at the type.
theorem decode_of_other (hsize : payload.size = decoder.length) {observed : UInt8}
    (hobserved : payload.bytes.head? = some observed) (hne : observed ≠ decoder.type) :
    decoder.decode payload context =
      .error (Error.unexpected_itch_type decoder.type observed context.sequence) := by
  have hlength : payload.bytes.length = decoder.length.toNat := by
    rw [← hsize, Span.toNat_size]
  obtain ⟨faults, message, hdecode⟩ := decoder.type_checked payload context hlength
  have hfirst : payload.bytes[0]? = some observed := by rw [← List.head?_eq_getElem?, hobserved]
  have hfaults : typeFaults payload.bytes context.sequence decoder.type =
      [Error.unexpected_itch_type decoder.type observed context.sequence] := by
    rw [typeFaults, Slices.slice_one hfirst, BigEndian.u8_singleton, if_pos hne]
  rw [hdecode, hfaults]
  rfl

-- No registered length is zero.
theorem head_of_size (hsize : payload.size = decoder.length) :
    ∃ observed, payload.bytes.head? = some observed := by
  cases htype : payload.bytes.head? with
  | none =>
    have hlengths : ∀ definition ∈ itch_type_definitions, definition.length ≠ 0 := by decide
    have hzero : payload.size = 0 := by
      rw [← UInt64.toNat_inj, Span.toNat_size, List.head?_eq_none_iff.mp htype]
      rfl
    exact absurd (hsize.symm.trans hzero) (hlengths _ decoder.registered)
  | some observed => exact ⟨observed, rfl⟩

theorem type_of_ok {message : decoder.Message}
    (hok : decoder.decode payload context = .ok message) :
    payload.bytes.head? = some decoder.type := by
  have hsize : payload.size = decoder.length := by
    by_contra hsize
    rw [decoder.length_checked payload context hsize] at hok
    cases hok
  obtain ⟨observed, hobserved⟩ := decoder.head_of_size hsize
  rw [hobserved, Option.some.injEq]
  by_contra hne
  rw [decoder.decode_of_other hsize hobserved hne] at hok
  cases hok

end TypedDecoder

theorem typed_decoders_distinct {decoder other : TypedDecoder} (hmem : decoder ∈ typed_decoders)
    (hother : other ∈ typed_decoders) (htype : decoder.type = other.type) : decoder = other := by
  have hnodup : (typed_decoders.map TypedDecoder.type).Nodup := by decide
  exact List.inj_on_of_nodup_map hnodup hmem hother htype

-- The unified decoder and the typed ones agree: on the letter of a typed decoder both do the
-- same, no other typed decoder accepts, and another one fails at the length or at the letter.
theorem decode_itch_typed (payload : Span) (context : ItchDecodeContext) :
    (∀ decoder ∈ typed_decoders, payload.bytes.head? = some decoder.type →
      (∀ message, decode_itch payload context = .ok (decoder.lift message) ↔
        decoder.decode payload context = .ok message) ∧
      ∀ error, decode_itch payload context = .error error ↔
        decoder.decode payload context = .error error) ∧
    (∀ decoder ∈ typed_decoders, ∀ message, decoder.decode payload context = .ok message →
      payload.bytes.head? = some decoder.type ∧
      ∀ other ∈ typed_decoders, ∀ message', other.decode payload context = .ok message' →
        other = decoder) ∧
    ∀ decoder ∈ typed_decoders, payload.bytes.head? ≠ some decoder.type →
      (payload.size ≠ decoder.length → decoder.decode payload context = .error
        (Error.invalid_itch_length decoder.length payload.size context.sequence decoder.type)) ∧
      (payload.size = decoder.length → ∃ observed, payload.bytes.head? = some observed ∧
        decoder.decode payload context = .error
          (Error.unexpected_itch_type decoder.type observed context.sequence)) := by
  refine ⟨?_, ?_, ?_⟩
  · intro decoder _ htype
    rw [decoder.decode_itch_eq htype]
    exact ⟨lift_decoded_ok_iff decoder.lift_injective _, lift_decoded_error_iff _⟩
  · intro decoder hmem message hok
    have htype := decoder.type_of_ok hok
    refine ⟨htype, ?_⟩
    intro other hother message' hok'
    have heq := (other.type_of_ok hok').symm.trans htype
    exact typed_decoders_distinct hother hmem (Option.some.inj heq)
  · intro decoder _ hother
    refine ⟨decoder.length_checked payload context, ?_⟩
    intro hsize
    obtain ⟨observed, hobserved⟩ := decoder.head_of_size hsize
    have hne : observed ≠ decoder.type := fun heq => hother (by rw [hobserved, heq])
    exact ⟨observed, hobserved, decoder.decode_of_other hsize hobserved hne⟩

end AegisFeed
