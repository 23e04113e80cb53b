import AegisFeed.Itch.Decoder.Messages
import AegisFeed.Itch.Layout

namespace AegisFeed

open Grammar (Accepts Framed Reports faults faultsOf)
open ShortCircuit

variable {payload : Span} {context : ItchDecodeContext} {definition : ItchTypeDefinition}

theorem lift_decoded_eq {Message : Type} {lift : Message → DecodedItchMessage}
    {result : Result Message} {typeFaults faults : List Error} {message : Message}
    (hresult : result = verdict (typeFaults ++ faults) message) (htype : typeFaults = []) :
    lift_decoded_result lift result = verdict faults (lift message) := by
  rw [hresult, htype, List.nil_append]
  cases faults <;> rfl

theorem typeFaults_eq_nil (h : payload.bytes.head? = some definition.type)
    (sequence : UInt64) : typeFaults payload.bytes sequence definition.type = [] := by
  have hfirst : payload.bytes[0]? = some definition.type := by rw [← List.head?_eq_getElem?, h]
  rw [typeFaults, Slices.slice_one hfirst, BigEndian.u8_singleton]
  exact if_neg (not_not_intro rfl)

-- The message that a payload of a registered type decodes to.
def DecodedItchMessage.ofBytes (type : UInt8) (payload : List UInt8) : DecodedItchMessage :=
  if type = 'S'.toUInt8 then .SystemEvent (.ofBytes payload)
  else if type = 'R'.toUInt8 then .StockDirectory (.ofBytes payload)
  else if type = 'A'.toUInt8 then .AddOrder (.ofBytes payload false)
  else if type = 'F'.toUInt8 then .AddOrder (.ofBytes payload true)
  else if type = 'E'.toUInt8 then .OrderExecuted (.ofBytes payload)
  else if type = 'C'.toUInt8 then .OrderExecutedWithPrice (.ofBytes payload)
  else if type = 'X'.toUInt8 then .OrderCancel (.ofBytes payload)
  else if type = 'D'.toUInt8 then .OrderDelete (.ofBytes payload)
  else if type = 'U'.toUInt8 then .OrderReplace (.ofBytes payload)
  else .KnownBookNeutral { header := .ofBytes payload }

-- The required types are the nine that have a layout.
theorem required_definitions : ∀ definition ∈ itch_type_definitions,
    definition.classification = .Required →
      definition = SystemEvent.layout.definition ∨
      definition = StockDirectory.layout.definition ∨
      definition = AddOrder.layout.definition ∨
      definition = AddOrder.attributedLayout.definition ∨
      definition = OrderExecuted.layout.definition ∨
      definition = OrderExecutedWithPrice.layout.definition ∨
      definition = OrderCancel.layout.definition ∨
      definition = OrderDelete.layout.definition ∨
      definition = OrderReplace.layout.definition := by
  decide

theorem neutral_definitions : ∀ definition ∈ itch_type_definitions,
    definition.classification ≠ .Required →
      definition.classification = .KnownBookNeutral ∧
      Grammar.fields definition.type = [] ∧ definition ∈ itch_type_definitions.drop 9 := by
  decide

theorem decode_required_eq (h : Framed payload.bytes definition)
    (hrequired : definition.classification = .Required) :
    decode_required payload context definition.type =
      verdict (faults payload.bytes context.sequence definition.type)
        (.ofBytes definition.type payload.bytes) := by
  obtain ⟨hmem, htype, hlength⟩ := h
  have hfaults := typeFaults_eq_nil htype context.sequence
  rcases required_definitions definition hmem hrequired with
    rfl | rfl | rfl | rfl | rfl | rfl | rfl | rfl | rfl
  · exact lift_decoded_eq (decode_system_event_eq hlength) hfaults
  · exact lift_decoded_eq (decode_stock_directory_eq hlength) hfaults
  · exact lift_decoded_eq (decode_add_order_eq hlength) hfaults
  · exact lift_decoded_eq (decode_add_order_with_attribution_eq hlength) hfaults
  · exact lift_decoded_eq (decode_order_executed_eq hlength) hfaults
  · exact lift_decoded_eq (decode_order_executed_with_price_eq hlength) hfaults
  · exact lift_decoded_eq (decode_order_cancel_eq hlength) hfaults
  · exact lift_decoded_eq (decode_order_delete_eq hlength) hfaults
  · exact lift_decoded_eq (decode_order_replace_eq hlength) hfaults

theorem neutral_ofBytes (h : definition ∈ itch_type_definitions.drop 9) (bytes : List UInt8) :
    DecodedItchMessage.ofBytes definition.type bytes =
      .KnownBookNeutral { header := .ofBytes bytes } := by
  simp only [itch_type_definitions, List.drop_succ_cons, List.drop_zero, List.mem_cons,
    List.not_mem_nil, or_false] at h
  rcases h with rfl | rfl | rfl | rfl | rfl | rfl | rfl | rfl | rfl | rfl | rfl | rfl | rfl | rfl
    <;> rfl

section Dispatch

variable {type : UInt8}

theorem decode_itch_of_unknown (htype : payload.bytes.head? = some type)
    (h : ∀ definition ∈ itch_type_definitions, definition.type ≠ type) :
    decode_itch payload context = .error (Error.unknown_itch_type type context.sequence) := by
  obtain ⟨rest, hbytes⟩ := List.head?_eq_some_iff.mp htype
  have hclass : classify_itch_type type = .Unknown := by
    rw [classify_itch_type, (find_definition_eq_none_iff type).mpr h]
  unfold decode_itch
  rw [hbytes]
  exact if_pos hclass

-- The dispatch on a type of the table.
theorem decode_itch_of_registered (hmem : definition ∈ itch_type_definitions)
    (htype : payload.bytes.head? = some definition.type) :
    decode_itch payload context =
      if payload.size ≠ definition.length then
        .error (Error.invalid_itch_length definition.length payload.size context.sequence
          definition.type)
      else if definition.classification = .KnownBookNeutral then
        decode_known_book_neutral payload context definition.type definition.length
      else decode_required payload context definition.type := by
  obtain ⟨rest, hbytes⟩ := List.head?_eq_some_iff.mp htype
  have hfind := (find_definition_eq_some_iff definition.type definition).mpr ⟨hmem, rfl⟩
  have hclass : classify_itch_type definition.type = definition.classification := by
    rw [classify_itch_type, hfind]
  have hexpected : expected_itch_length definition.type = some definition.length := by
    rw [expected_itch_length, hfind, Option.map_some]
  have hknown : ∀ definition ∈ itch_type_definitions, definition.classification ≠ .Unknown := by
    decide
  unfold decode_itch
  rw [hbytes]
  simp only [hclass, hexpected, if_neg (hknown definition hmem)]

theorem decode_itch_of_length (hmem : definition ∈ itch_type_definitions)
    (htype : payload.bytes.head? = some definition.type)
    (h : payload.bytes.length ≠ definition.length.toNat) :
    decode_itch payload context =
      .error (Error.invalid_itch_length definition.length payload.size context.sequence
        definition.type) := by
  have hsize : payload.size ≠ definition.length := by
    intro heq
    exact h (by rw [← heq, Span.toNat_size])
  rw [decode_itch_of_registered hmem htype, if_pos hsize]

theorem decode_itch_of_framed (h : Framed payload.bytes definition) :
    decode_itch payload context =
      verdict (faults payload.bytes context.sequence definition.type)
        (.ofBytes definition.type payload.bytes) := by
  have hsize : payload.size = definition.length := by
    rw [← UInt64.toNat_inj, Span.toNat_size, h.2.2]
  rw [decode_itch_of_registered h.1 h.2.1, if_neg (not_not_intro hsize)]
  by_cases hrequired : definition.classification = .Required
  · rw [if_neg (by rw [hrequired]; decide)]
    exact decode_required_eq h hrequired
  · obtain ⟨hneutral, hfields, hdrop⟩ := neutral_definitions definition h.1 hrequired
    rw [if_pos hneutral, decode_known_book_neutral_eq h.header_fits,
      typeFaults_eq_nil h.2.1, neutral_ofBytes hdrop, faults, hfields]
    rfl

end Dispatch

theorem payload_cases (bytes : List UInt8) :
    bytes = [] ∨
    (∃ type, bytes.head? = some type ∧
      ∀ definition ∈ itch_type_definitions, definition.type ≠ type) ∨
    (∃ definition ∈ itch_type_definitions, bytes.head? = some definition.type ∧
      bytes.length ≠ definition.length.toNat) ∨
    ∃ definition, Framed bytes definition := by
  cases bytes with
  | nil => exact .inl rfl
  | cons type rest =>
    right
    cases hfind : find_definition type with
    | none => exact .inl ⟨type, rfl, (find_definition_eq_none_iff type).mp hfind⟩
    | some definition =>
      right
      obtain ⟨hmem, rfl⟩ := (find_definition_eq_some_iff type definition).mp hfind
      by_cases hlength : (definition.type :: rest).length = definition.length.toNat
      · exact .inr ⟨definition, hmem, rfl, hlength⟩
      · exact .inl ⟨definition, hmem, rfl, hlength⟩

theorem decode_itch_of_empty (h : payload.bytes = []) :
    decode_itch payload context = .error (Error.invalid_itch_length 1 0 context.sequence 0) := by
  unfold decode_itch
  rw [h]

theorem decode_itch_eq_ok_iff (message : DecodedItchMessage) :
    decode_itch payload context = .ok message ↔
      ∃ definition, Framed payload.bytes definition ∧
        faults payload.bytes context.sequence definition.type = [] ∧
        DecodedItchMessage.ofBytes definition.type payload.bytes = message := by
  constructor
  · intro h
    rcases payload_cases payload.bytes with
      hempty | ⟨type, htype, hunknown⟩ | ⟨definition, hmem, htype, hlength⟩ | ⟨definition, hframed⟩
    · rw [decode_itch_of_empty hempty] at h
      cases h
    · rw [decode_itch_of_unknown htype hunknown] at h
      cases h
    · rw [decode_itch_of_length hmem htype hlength] at h
      cases h
    · rw [decode_itch_of_framed hframed, verdict_eq_ok_iff] at h
      exact ⟨definition, hframed, h⟩
  · rintro ⟨definition, hframed, h⟩
    rw [decode_itch_of_framed hframed, verdict_eq_ok_iff]
    exact h

theorem decode_itch_eq_error_iff (error : Error) :
    decode_itch payload context = .error error ↔
      Reports payload.bytes context.sequence error := by
  constructor
  · intro h
    rcases payload_cases payload.bytes with
      hempty | ⟨type, htype, hunknown⟩ | ⟨definition, hmem, htype, hlength⟩ | ⟨definition, hframed⟩
    · rw [decode_itch_of_empty hempty] at h
      cases h
      exact .empty hempty
    · rw [decode_itch_of_unknown htype hunknown] at h
      cases h
      exact .unknown htype hunknown
    · rw [decode_itch_of_length hmem htype hlength] at h
      cases h
      exact .length hmem htype hlength
    · rw [decode_itch_of_framed hframed, verdict_eq_error_iff, hframed.head?_faults_iff] at h
      obtain ⟨field, hfield, hviolates, hfirst⟩ := h
      exact .field hframed hfield hviolates hfirst
  · intro h
    cases h with
    | empty hempty => exact decode_itch_of_empty hempty
    | unknown htype hunknown => exact decode_itch_of_unknown htype hunknown
    | length hmem htype hlength => exact decode_itch_of_length hmem htype hlength
    | field hframed hfield hviolates hfirst =>
      rw [decode_itch_of_framed hframed, verdict_eq_error_iff, hframed.head?_faults_iff]
      exact ⟨_, hfield, hviolates, hfirst⟩

theorem exists_ok_iff_accepts :
    (∃ message, decode_itch payload context = .ok message) ↔ Accepts payload.bytes := by
  simp only [decode_itch_eq_ok_iff]
  constructor
  · rintro ⟨message, definition, hframed, hfaults, -⟩
    exact ⟨definition, hframed, hframed.faults_eq_nil_iff.mp hfaults⟩
  · rintro ⟨definition, hframed, hvalid⟩
    exact ⟨_, definition, hframed, hframed.faults_eq_nil_iff.mpr hvalid, rfl⟩

-- The decoder accepts exactly the documented grammar and reports the first violation.
-- A book-neutral payload is accepted as it is, and only its header is kept.
theorem decode_itch_grammar (payload : Span) (context : ItchDecodeContext) :
    ((∃ message, decode_itch payload context = .ok message) ↔ Accepts payload.bytes) ∧
    (∀ error, decode_itch payload context = .error error ↔
      Reports payload.bytes context.sequence error) ∧
    ∀ definition, Framed payload.bytes definition →
      definition.classification = .KnownBookNeutral →
      ∃ header, decode_itch payload context = .ok (.KnownBookNeutral { header }) ∧
        header.wire = payload.bytes.take 11 := by
  refine ⟨exists_ok_iff_accepts, decode_itch_eq_error_iff, fun definition hframed hneutral => ?_⟩
  obtain ⟨-, hfields, hdrop⟩ := neutral_definitions definition hframed.1
    (by rw [hneutral]; decide)
  refine ⟨.ofBytes payload.bytes, ?_, ?_⟩
  · rw [decode_itch_eq_ok_iff]
    refine ⟨definition, hframed, ?_, neutral_ofBytes hdrop payload.bytes⟩
    rw [faults, hfields]
    rfl
  · rw [ItchCommonHeader.wire_ofBytes hframed.header_fits]
    rfl

section Lossless

theorem accepted_required {message : DecodedItchMessage} (hrequired : message.Required)
    (h : decode_itch payload context = .ok message) :
    message.WellFormed ∧ message.wire = payload.bytes := by
  obtain ⟨definition, hframed, hfaults, rfl⟩ := (decode_itch_eq_ok_iff message).mp h
  by_cases hclass : definition.classification = .Required
  · rcases required_definitions definition hframed.1 hclass with
      rfl | rfl | rfl | rfl | rfl | rfl | rfl | rfl | rfl
    · obtain ⟨hheader, hvalid, hwire⟩ := SystemEvent.layout.accepted hframed hfaults
      exact ⟨⟨hheader, hvalid⟩, hwire⟩
    · obtain ⟨hheader, hvalid, hwire⟩ := StockDirectory.layout.accepted hframed hfaults
      exact ⟨⟨hheader, hvalid⟩, hwire⟩
    · obtain ⟨hheader, hvalid, hwire⟩ := AddOrder.layout.accepted hframed hfaults
      exact ⟨.inl ⟨hheader, hvalid⟩, hwire⟩
    · obtain ⟨hheader, hvalid, hwire⟩ := AddOrder.attributedLayout.accepted hframed hfaults
      exact ⟨.inr ⟨hheader, hvalid⟩, hwire⟩
    · obtain ⟨hheader, -, hwire⟩ := OrderExecuted.layout.accepted hframed hfaults
      exact ⟨hheader, hwire⟩
    · obtain ⟨hheader, hvalid, hwire⟩ := OrderExecutedWithPrice.layout.accepted hframed hfaults
      exact ⟨⟨hheader, hvalid⟩, hwire⟩
    · obtain ⟨hheader, -, hwire⟩ := OrderCancel.layout.accepted hframed hfaults
      exact ⟨hheader, hwire⟩
    · obtain ⟨hheader, -, hwire⟩ := OrderDelete.layout.accepted hframed hfaults
      exact ⟨hheader, hwire⟩
    · obtain ⟨hheader, hvalid, hwire⟩ := OrderReplace.layout.accepted hframed hfaults
      exact ⟨⟨hheader, hvalid⟩, hwire⟩
  · obtain ⟨-, -, hdrop⟩ := neutral_definitions definition hframed.1 hclass
    rw [neutral_ofBytes hdrop] at hrequired
    exact hrequired.elim

-- What a layout writes for a well-formed message decodes to that message.
theorem decode_itch_emitted {Message : Type} (layout : Layout Message)
    {lift : Message → DecodedItchMessage} {message : Message}
    (hlift : ∀ bytes, DecodedItchMessage.ofBytes layout.definition.type bytes =
      lift (layout.ofBytes bytes))
    (hbytes : payload.bytes = layout.wire message)
    (hheader : (layout.header message).Carries layout.definition.type)
    (h : layout.Valid message) : decode_itch payload context = .ok (lift message) := by
  obtain ⟨hframed, hfaults, hread⟩ := layout.emitted context.sequence hheader h
  rw [← hbytes] at hframed hfaults hread
  refine (decode_itch_eq_ok_iff _).mpr ⟨layout.definition, hframed, hfaults, ?_⟩
  rw [hlift, hread]

theorem decode_itch_wire {message : DecodedItchMessage} (h : message.WellFormed)
    (hbytes : payload.bytes = message.wire) : decode_itch payload context = .ok message := by
  cases message with
  | SystemEvent message =>
    exact decode_itch_emitted SystemEvent.layout (fun _ => rfl) hbytes h.1 h.2
  | StockDirectory message =>
    exact decode_itch_emitted StockDirectory.layout (fun _ => rfl) hbytes h.1 h.2
  | AddOrder message =>
    rcases h with ⟨hheader, hvalid⟩ | ⟨hheader, hvalid⟩
    · exact decode_itch_emitted AddOrder.layout (fun _ => rfl) hbytes hheader hvalid
    · exact decode_itch_emitted AddOrder.attributedLayout (fun _ => rfl) hbytes hheader hvalid
  | OrderExecuted message =>
    exact decode_itch_emitted OrderExecuted.layout (fun _ => rfl) hbytes h trivial
  | OrderExecutedWithPrice message =>
    exact decode_itch_emitted OrderExecutedWithPrice.layout (fun _ => rfl) hbytes h.1 h.2
  | OrderCancel message =>
    exact decode_itch_emitted OrderCancel.layout (fun _ => rfl) hbytes h trivial
  | OrderDelete message =>
    exact decode_itch_emitted OrderDelete.layout (fun _ => rfl) hbytes h trivial
  | OrderReplace message =>
    exact decode_itch_emitted OrderReplace.layout (fun _ => rfl) hbytes h.1 h.2
  | KnownBookNeutral message => exact h.elim

theorem DecodedItchMessage.WellFormed.length_wire_le {message : DecodedItchMessage}
    (h : message.WellFormed) : message.wire.length ≤ 40 := by
  cases message with
  | SystemEvent message => exact (SystemEvent.layout.length_wire h.2).trans_le (by decide)
  | StockDirectory message => exact (StockDirectory.layout.length_wire h.2).trans_le (by decide)
  | AddOrder message =>
    rcases h with ⟨-, hvalid⟩ | ⟨-, hvalid⟩
    · exact (AddOrder.layout.length_wire hvalid).trans_le (by decide)
    · exact (AddOrder.attributedLayout.length_wire hvalid).trans_le (by decide)
  | OrderExecuted message => exact (OrderExecuted.layout.length_wire trivial).trans_le (by decide)
  | OrderExecutedWithPrice message =>
    exact (OrderExecutedWithPrice.layout.length_wire h.2).trans_le (by decide)
  | OrderCancel message => exact (OrderCancel.layout.length_wire trivial).trans_le (by decide)
  | OrderDelete message => exact (OrderDelete.layout.length_wire trivial).trans_le (by decide)
  | OrderReplace message => exact (OrderReplace.layout.length_wire h.2).trans_le (by decide)
  | KnownBookNeutral message => exact h.elim

-- Decoding a required type and writing its fields are inverse to each other.
theorem decode_itch_lossless :
    (∀ (payload : Span) (context : ItchDecodeContext) (message : DecodedItchMessage),
      decode_itch payload context = .ok message → message.Required →
      message.wire = payload.bytes) ∧
    (∀ message : DecodedItchMessage, message.WellFormed →
      ∃ hfits : message.wire.length < 2 ^ 64, ∀ context,
        decode_itch ⟨message.wire, hfits⟩ context = .ok message) ∧
    ∀ (payload payload' : Span) (context context' : ItchDecodeContext)
      (message : DecodedItchMessage), message.Required →
      decode_itch payload context = .ok message → decode_itch payload' context' = .ok message →
      payload = payload' := by
  refine ⟨fun payload context message h hrequired => (accepted_required hrequired h).2,
    fun message h => ?_, fun payload payload' context context' message hrequired h h' => ?_⟩
  · have hfits : message.wire.length < 2 ^ 64 :=
      Nat.lt_of_le_of_lt h.length_wire_le (by decide)
    exact ⟨hfits, fun context => decode_itch_wire h rfl⟩
  · obtain ⟨bytes, hfits⟩ := payload
    obtain ⟨bytes', hfits'⟩ := payload'
    have hwire : message.wire = bytes := (accepted_required hrequired h).2
    have hwire' : message.wire = bytes' := (accepted_required hrequired h').2
    cases hwire.symm.trans hwire'
    rfl

end Lossless

end AegisFeed
