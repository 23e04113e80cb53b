import AegisFeed.Itch.Grammar.Faults
import AegisFeed.Itch.Wire

namespace AegisFeed

open BigEndian (u8 u32)
open Grammar (Framed Printable faults faultsOf)
open Slices (slice)

section Header

@[simp] theorem ItchCommonHeader.length_wire (header : ItchCommonHeader) :
    header.wire.length = 11 := by
  simp [wire]

theorem ItchCommonHeader.ofBytes_wire {header : ItchCommonHeader} (rest : List UInt8)
    (h : header.timestamp_ns.toNat < 2 ^ 48) : ofBytes (header.wire ++ rest) = header := by
  have hwidth : header.timestamp_ns.toNat < 256 ^ 6 := h
  simp [ofBytes, wire, BigEndian.u64_encode_of_lt hwidth]

@[simp] theorem ItchCommonHeader.wire_ofBytes {payload : List UInt8} (h : 11 ≤ payload.length) :
    (ofBytes payload).wire = slice payload 0 11 := by
  have hslice : ∀ offset width, offset + width ≤ 11 →
      (slice payload offset width).length = width :=
    fun _ _ hle => Slices.length_slice (Nat.le_trans hle h)
  simp [ofBytes, wire, hslice]

theorem ItchCommonHeader.head?_wire (header : ItchCommonHeader) (rest : List UInt8) :
    (header.wire ++ rest).head? = some header.type := by
  simp [wire, BigEndian.encode]

theorem ItchCommonHeader.ofBytes_carries {payload : List UInt8} {type : UInt8}
    (htype : payload.head? = some type) (h : 11 ≤ payload.length) :
    (ofBytes payload).Carries type := by
  constructor
  · have hfirst : payload[0]? = some type := by rw [← List.head?_eq_getElem?, htype]
    rw [ofBytes, Slices.slice_one hfirst, BigEndian.u8_singleton]
  · have hlength : (slice payload 5 6).length = 6 := Slices.length_slice h
    show (BigEndian.u64 (slice payload 5 6)).toNat < 2 ^ 48
    rw [BigEndian.toNat_u64 hlength (by decide)]
    exact BigEndian.decode_lt_of_length hlength (by decide)

end Header

-- How the messages of one type are laid out in the payload.
structure Layout (Message : Type) where
  definition : ItchTypeDefinition
  header : Message → ItchCommonHeader
  Valid : Message → Prop
  wire : Message → List UInt8
  ofBytes : List UInt8 → Message
  registered : definition ∈ itch_type_definitions
  header_ofBytes : ∀ payload, header (ofBytes payload) = .ofBytes payload
  wire_header : ∀ message, ∃ rest, wire message = (header message).wire ++ rest
  length_wire : ∀ {message}, Valid message → (wire message).length = definition.length.toNat
  faults_iff : ∀ {payload sequence}, payload.length = definition.length.toNat →
    (faults payload sequence definition.type = [] ↔
      Valid (ofBytes payload) ∧ wire (ofBytes payload) = payload)
  ofBytes_wire : ∀ {message}, (header message).timestamp_ns.toNat < 2 ^ 48 → Valid message →
    ofBytes (wire message) = message

namespace Layout

variable {Message : Type} (layout : Layout Message)

-- What a payload without faults decodes to is well formed and writes it back.
theorem accepted {payload : List UInt8} {sequence : UInt64}
    (h : Framed payload layout.definition)
    (hfaults : faults payload sequence layout.definition.type = []) :
    (layout.header (layout.ofBytes payload)).Carries layout.definition.type ∧
      layout.Valid (layout.ofBytes payload) ∧ layout.wire (layout.ofBytes payload) = payload := by
  have hheader := h.header_fits
  obtain ⟨-, htype, hlength⟩ := h
  refine ⟨?_, (layout.faults_iff hlength).mp hfaults⟩
  rw [layout.header_ofBytes]
  exact ItchCommonHeader.ofBytes_carries htype hheader

-- What a well-formed message writes is a payload without faults that decodes to it.
theorem emitted {message : Message} (sequence : UInt64)
    (hheader : (layout.header message).Carries layout.definition.type)
    (h : layout.Valid message) :
    Framed (layout.wire message) layout.definition ∧
      faults (layout.wire message) sequence layout.definition.type = [] ∧
      layout.ofBytes (layout.wire message) = message := by
  have hlength := layout.length_wire h
  have hread := layout.ofBytes_wire hheader.2 h
  refine ⟨⟨layout.registered, ?_, hlength⟩, ?_, hread⟩
  · obtain ⟨rest, hrest⟩ := layout.wire_header message
    rw [hrest, ItchCommonHeader.head?_wire, hheader.1]
  · rw [layout.faults_iff hlength, hread]
    exact ⟨h, rfl⟩

end Layout

section Faults

variable {payload : List UInt8} {sequence : UInt64} {type : UInt8}

@[simp] theorem codeFaults_eq_nil_iff (offset : Nat) (codes : List UInt8) (byte : UInt8) :
    Grammar.codeFaults sequence type offset codes byte = [] ↔ byte ∈ codes := by
  simp [Grammar.codeFaults]

@[simp] theorem priceFaults_eq_nil_iff (offset : Nat) (value : UInt32) :
    Grammar.priceFaults sequence type offset value = [] ↔ value ≤ kMaxPrice4 := by
  simp [Grammar.priceFaults]

@[simp] theorem textFaults_eq_nil_iff {Size : Nat} {text : List UInt8} (offset : Nat)
    (h : text.length = Size) :
    Grammar.textFaults sequence type offset text = [] ↔ PrintableText (chars Size text) := by
  rw [Grammar.textFaults_eq_nil_iff, PrintableText, toList_chars h]

@[simp] theorem printableText_one_iff {text : List UInt8} (h : text.length = 1) :
    PrintableText (chars 1 text) ↔ Printable (u8 text) := by
  obtain ⟨byte, rfl⟩ := List.length_eq_one_iff.mp h
  rw [PrintableText, toList_chars h, BigEndian.u8_singleton, List.forall_mem_singleton]

-- The flag of an execution writes back only a documented byte.
theorem encode_flag_iff {bytes : List UInt8} (h : bytes.length = 1) :
    BigEndian.encode 1 (if u8 bytes = 'Y'.toUInt8 then 'Y'.toUInt8 else 'N'.toUInt8).toNat = bytes ↔
      u8 bytes ∈ Grammar.flags := by
  obtain ⟨byte, rfl⟩ := List.length_eq_one_iff.mp h
  rw [BigEndian.u8_singleton]
  by_cases hyes : byte = 'Y'.toUInt8
  · simp [hyes, BigEndian.encode, Grammar.flags, Grammar.letters]
  · simp [hyes, BigEndian.encode, Grammar.flags, Grammar.letters, eq_comm]

end Faults

def SystemEvent.layout : Layout SystemEvent where
  definition := ⟨'S'.toUInt8, kSystemEventLength, .Required⟩
  header := SystemEvent.header
  Valid := SystemEvent.Valid
  wire := SystemEvent.wire
  ofBytes := SystemEvent.ofBytes
  registered := by decide
  header_ofBytes _ := rfl
  wire_header _ := ⟨_, rfl⟩
  length_wire _ := by simp [wire, kSystemEventLength]
  faults_iff {payload sequence} h := by
    have hlength : payload.length = 12 := h
    show faultsOf payload sequence _ Grammar.systemEventFields = [] ↔ _
    simp [faultsOf, Grammar.systemEventFields, Grammar.Field.faults, Valid, ofBytes, wire, hlength]
  ofBytes_wire {message} h _ := by simp [ofBytes, wire, ItchCommonHeader.ofBytes_wire _ h]

def StockDirectory.layout : Layout StockDirectory where
  definition := ⟨'R'.toUInt8, kStockDirectoryLength, .Required⟩
  header := StockDirectory.header
  Valid := StockDirectory.Valid
  wire := StockDirectory.wire
  ofBytes := StockDirectory.ofBytes
  registered := by decide
  header_ofBytes _ := rfl
  wire_header message := by simp only [wire, List.append_assoc]; exact ⟨_, rfl⟩
  length_wire _ := by simp [wire, kStockDirectoryLength]
  faults_iff {payload sequence} h := by
    have hlength : payload.length = 39 := h
    show faultsOf payload sequence _ Grammar.stockDirectoryFields = [] ↔ _
    simp [faultsOf, Grammar.stockDirectoryFields, Grammar.Field.faults, valid_iff, ofBytes, wire,
      hlength]
  ofBytes_wire {message} h _ := by simp [ofBytes, wire, ItchCommonHeader.ofBytes_wire _ h]

-- With or without attribution, an order is one record at two lengths.
def AddOrder.layout : Layout AddOrder where
  definition := ⟨'A'.toUInt8, kAddOrderLength, .Required⟩
  header := AddOrder.header
  Valid message := message.Valid false
  wire := AddOrder.wire
  ofBytes payload := AddOrder.ofBytes payload false
  registered := by decide
  header_ofBytes _ := rfl
  wire_header message := by simp only [wire, List.append_assoc]; exact ⟨_, rfl⟩
  length_wire {message} h := by
    have hnone : message.attribution = none :=
      Option.isNone_iff_eq_none.mp (Option.isSome_eq_false_iff.mp h.attribution)
    simp [wire, hnone, kAddOrderLength]
  faults_iff {payload sequence} h := by
    have hlength : payload.length = 36 := h
    show faultsOf payload sequence _ Grammar.addOrderFields = [] ↔ _
    simp [faultsOf, Grammar.addOrderFields, Grammar.Field.faults, valid_iff, ofBytes, wire,
      hlength]
  ofBytes_wire {message} hheader h := by
    obtain ⟨header, order_reference, side, shares, stock, price_1e4, attribution⟩ := message
    cases attribution with
    | none => simp [ofBytes, wire, ItchCommonHeader.ofBytes_wire _ hheader]
    | some attribution => cases h.attribution

def AddOrder.attributedLayout : Layout AddOrder where
  definition := ⟨'F'.toUInt8, kAddOrderWithAttributionLength, .Required⟩
  header := AddOrder.header
  Valid message := message.Valid true
  wire := AddOrder.wire
  ofBytes payload := AddOrder.ofBytes payload true
  registered := by decide
  header_ofBytes _ := rfl
  wire_header message := by simp only [wire, List.append_assoc]; exact ⟨_, rfl⟩
  length_wire {message} h := by
    obtain ⟨attribution, hsome⟩ := Option.isSome_iff_exists.mp h.attribution
    simp [wire, hsome, kAddOrderWithAttributionLength]
  faults_iff {payload sequence} h := by
    have hlength : payload.length = 40 := h
    show faultsOf payload sequence _ Grammar.attributedOrderFields = [] ↔ _
    simp [faultsOf, Grammar.attributedOrderFields, Grammar.addOrderFields, Grammar.Field.faults,
      valid_iff, ofBytes, wire, hlength]
  ofBytes_wire {message} hheader h := by
    obtain ⟨header, order_reference, side, shares, stock, price_1e4, attribution⟩ := message
    cases attribution with
    | none => cases h.attribution
    | some attribution => simp [ofBytes, wire, ItchCommonHeader.ofBytes_wire _ hheader]

def OrderExecuted.layout : Layout OrderExecuted where
  definition := ⟨'E'.toUInt8, kOrderExecutedLength, .Required⟩
  header := OrderExecuted.header
  Valid _ := True
  wire := OrderExecuted.wire
  ofBytes := OrderExecuted.ofBytes
  registered := by decide
  header_ofBytes _ := rfl
  wire_header message := by simp only [wire, List.append_assoc]; exact ⟨_, rfl⟩
  length_wire _ := by simp [wire, kOrderExecutedLength]
  faults_iff {payload sequence} h := by
    have hlength : payload.length = 31 := h
    show faultsOf payload sequence _ [] = [] ↔ _
    simp [faultsOf, ofBytes, wire, hlength]
  ofBytes_wire {message} h _ := by simp [ofBytes, wire, ItchCommonHeader.ofBytes_wire _ h]

theorem OrderExecutedWithPrice.wire_ofBytes_iff {payload : List UInt8}
    (hlength : payload.length = 36) :
    (ofBytes payload).wire = payload ↔ u8 (slice payload 31 1) ∈ Grammar.flags := by
  have hflag : (slice payload 31 1).length = 1 := Slices.length_slice (by omega)
  have hsplit : slice payload 0 31 ++ (slice payload 31 1 ++ slice payload 32 4) = payload := by
    simp [hlength]
  have hfields : (ofBytes payload).wire = slice payload 0 31 ++
      (BigEndian.encode 1
        (if u8 (slice payload 31 1) = 'Y'.toUInt8 then 'Y'.toUInt8 else 'N'.toUInt8).toNat ++
        slice payload 32 4) := by
    simp [ofBytes, wire, hlength]
  rw [← encode_flag_iff hflag, hfields]
  constructor
  · intro hwrite
    exact List.append_cancel_right (List.append_cancel_left (hwrite.trans hsplit.symm))
  · intro hwrite
    rw [hwrite]
    exact hsplit

def OrderExecutedWithPrice.layout : Layout OrderExecutedWithPrice where
  definition := ⟨'C'.toUInt8, kOrderExecutedWithPriceLength, .Required⟩
  header := OrderExecutedWithPrice.header
  Valid := OrderExecutedWithPrice.Valid
  wire := OrderExecutedWithPrice.wire
  ofBytes := OrderExecutedWithPrice.ofBytes
  registered := by decide
  header_ofBytes _ := rfl
  wire_header message := by simp only [wire, List.append_assoc]; exact ⟨_, rfl⟩
  length_wire _ := by simp [wire, kOrderExecutedWithPriceLength]
  faults_iff {payload sequence} h := by
    have hlength : payload.length = 36 := h
    show faultsOf payload sequence _ Grammar.executionWithPriceFields = [] ↔ _
    rw [wire_ofBytes_iff hlength]
    simp [faultsOf, Grammar.executionWithPriceFields, Grammar.Field.faults, Valid, ofBytes,
      and_comm]
  ofBytes_wire {message} h _ := by
    obtain ⟨header, order_reference, executed_shares, match_number, printable, price⟩ := message
    have hflag : 'N'.toUInt8 ≠ 'Y'.toUInt8 := by decide
    cases printable with
    | false => simp [ofBytes, wire, ItchCommonHeader.ofBytes_wire _ h, hflag]
    | true => simp [ofBytes, wire, ItchCommonHeader.ofBytes_wire _ h]

def OrderCancel.layout : Layout OrderCancel where
  definition := ⟨'X'.toUInt8, kOrderCancelLength, .Required⟩
  header := OrderCancel.header
  Valid _ := True
  wire := OrderCancel.wire
  ofBytes := OrderCancel.ofBytes
  registered := by decide
  header_ofBytes _ := rfl
  wire_header message := by simp only [wire, List.append_assoc]; exact ⟨_, rfl⟩
  length_wire _ := by simp [wire, kOrderCancelLength]
  faults_iff {payload sequence} h := by
    have hlength : payload.length = 23 := h
    show faultsOf payload sequence _ [] = [] ↔ _
    simp [faultsOf, ofBytes, wire, hlength]
  ofBytes_wire {message} h _ := by simp [ofBytes, wire, ItchCommonHeader.ofBytes_wire _ h]

def OrderDelete.layout : Layout OrderDelete where
  definition := ⟨'D'.toUInt8, kOrderDeleteLength, .Required⟩
  header := OrderDelete.header
  Valid _ := True
  wire := OrderDelete.wire
  ofBytes := OrderDelete.ofBytes
  registered := by decide
  header_ofBytes _ := rfl
  wire_header _ := ⟨_, rfl⟩
  length_wire _ := by simp [wire, kOrderDeleteLength]
  faults_iff {payload sequence} h := by
    have hlength : payload.length = 19 := h
    show faultsOf payload sequence _ [] = [] ↔ _
    simp [faultsOf, ofBytes, wire, hlength]
  ofBytes_wire {message} h _ := by simp [ofBytes, wire, ItchCommonHeader.ofBytes_wire _ h]

def OrderReplace.layout : Layout OrderReplace where
  definition := ⟨'U'.toUInt8, kOrderReplaceLength, .Required⟩
  header := OrderReplace.header
  Valid := OrderReplace.Valid
  wire := OrderReplace.wire
  ofBytes := OrderReplace.ofBytes
  registered := by decide
  header_ofBytes _ := rfl
  wire_header message := by simp only [wire, List.append_assoc]; exact ⟨_, rfl⟩
  length_wire _ := by simp [wire, kOrderReplaceLength]
  faults_iff {payload sequence} h := by
    have hlength : payload.length = 35 := h
    show faultsOf payload sequence _ Grammar.orderReplaceFields = [] ↔ _
    simp [faultsOf, Grammar.orderReplaceFields, Grammar.Field.faults, Valid, ofBytes, wire,
      hlength]
  ofBytes_wire {message} h _ := by simp [ofBytes, wire, ItchCommonHeader.ofBytes_wire _ h]

end AegisFeed
