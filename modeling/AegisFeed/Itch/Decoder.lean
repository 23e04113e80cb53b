import AegisFeed.Common.ByteReader
import AegisFeed.Itch.Lengths
import AegisFeed.Itch.Types
import AegisFeed.Library.ShortCircuit

namespace AegisFeed

open ShortCircuit

structure ItchDecodeContext where
  sequence : UInt64 := 0
deriving DecidableEq, Repr

inductive DecodedItchMessage where
  | SystemEvent (message : SystemEvent)
  | StockDirectory (message : StockDirectory)
  | AddOrder (message : AddOrder)
  | OrderExecuted (message : OrderExecuted)
  | OrderExecutedWithPrice (message : OrderExecutedWithPrice)
  | OrderCancel (message : OrderCancel)
  | OrderDelete (message : OrderDelete)
  | OrderReplace (message : OrderReplace)
  | KnownBookNeutral (message : KnownBookNeutral)
deriving DecidableEq, Repr

structure ItchReadCursor where
  reader : ByteReader
  context : ItchDecodeContext
  message_type : UInt8
  error : Error
deriving DecidableEq, Repr

namespace ItchReadCursor

def create (payload : Span) (context : ItchDecodeContext) (message_type : UInt8)
    (expected_size : UInt64) : ItchReadCursor where
  reader := { bytes := payload }
  context := context
  message_type := message_type
  error := Error.invalid_itch_length expected_size payload.size context.sequence message_type

-- The destination of a read that fails keeps its value, which no caller uses.
def take {T : Type} (cursor : ItchReadCursor) (result : Result T × ByteReader) :
    Option T × ItchReadCursor :=
  match result with
  | (.ok value, reader) => (some value, { cursor with reader })
  | (.error source, reader) =>
    (none, { cursor with
      reader
      error := { source with
        category := .ItchDecode
        code := .InvalidItchLength
        message := "ITCH field exceeds payload"
        sequence := cursor.context.sequence
        message_type := cursor.message_type } })

def read_u8 (cursor : ItchReadCursor) : Option UInt8 × ItchReadCursor :=
  cursor.take cursor.reader.read_u8

def read_u16_be (cursor : ItchReadCursor) : Option UInt16 × ItchReadCursor :=
  cursor.take cursor.reader.read_u16_be

def read_u32_be (cursor : ItchReadCursor) : Option UInt32 × ItchReadCursor :=
  cursor.take cursor.reader.read_u32_be

def read_u48_be (cursor : ItchReadCursor) : Option UInt64 × ItchReadCursor :=
  cursor.take cursor.reader.read_u48_be

def read_u64_be (cursor : ItchReadCursor) : Option UInt64 × ItchReadCursor :=
  cursor.take cursor.reader.read_u64_be

def read_bytes (count : UInt64) (cursor : ItchReadCursor) : Option Span × ItchReadCursor :=
  cursor.take (cursor.reader.read_bytes count)

end ItchReadCursor

-- The reader of a decoder and its local variable `error`.
structure DecodeState where
  reader : ItchReadCursor
  error : Error := {}
deriving DecidableEq, Repr

-- A decoder returns a result. A field, which is one operand of the `||` in a
-- decoder, only says whether it was read.
abbrev Decoding := ExceptT Error (StateM DecodeState)
abbrev FieldRead := OptionT (StateM DecodeState)

def read_field {T : Type} (read : ItchReadCursor → Option T × ItchReadCursor) : FieldRead T :=
  fun state => ((read state.reader).1, { state with reader := (read state.reader).2 })

-- What the `if` around a chain of fields returns.
def reader_error (state : DecodeState) : Error := state.reader.error
def local_error (state : DecodeState) : Error := state.error

def shared_error (state : DecodeState) : Error :=
  if state.error.code = .None then state.reader.error else state.error

-- `error = ...; return false;`.
def fail_with {T : Type} (error : DecodeState → Error) : FieldRead T :=
  fun state => (none, { state with error := error state })

def decode_common_header (expected_type : UInt8) (context : ItchDecodeContext) :
    Decoding ItchCommonHeader := do
  let raw_type ← orFail reader_error (read_field ItchReadCursor.read_u8)
  failIf (raw_type ≠ expected_type)
    (Error.unexpected_itch_type expected_type raw_type context.sequence)
  orFail reader_error do
    let stock_locate ← read_field ItchReadCursor.read_u16_be
    let tracking_number ← read_field ItchReadCursor.read_u16_be
    let timestamp_ns ← read_field ItchReadCursor.read_u48_be
    return { type := raw_type, stock_locate, tracking_number, timestamp_ns }

section Validators

def is_valid_system_event_code (value : UInt8) : Bool :=
  [SystemEventCode.StartOfMessages, .StartOfSystemHours, .StartOfMarketHours,
    .EndOfMarketHours, .EndOfSystemHours, .EndOfMessages, .EmergencyMarketConditionHalt,
    .EmergencyMarketConditionQuoteOnly, .EmergencyMarketConditionResumption].contains ⟨value⟩

def is_valid_side (value : UInt8) : Bool :=
  value == Side.Buy.code || value == Side.Sell.code

def is_valid_market_category (value : UInt8) : Bool :=
  [MarketCategory.NotAvailable, .NasdaqGlobalSelect, .NasdaqGlobalMarket,
    .NasdaqCapitalMarket, .NewYorkStockExchange, .NyseTexas, .TexasStockExchange,
    .NyseAmerican, .NyseArca, .CboeBzx, .InvestorsExchange].contains ⟨value⟩

def is_valid_financial_status (value : UInt8) : Bool :=
  [FinancialStatusIndicator.NotAvailable, .Deficient, .Delinquent, .Bankrupt, .Suspended,
    .DeficientAndBankrupt, .DeficientAndDelinquent, .DelinquentAndBankrupt,
    .DeficientDelinquentAndBankrupt, .CreationsOrRedemptionsSuspended,
    .Normal].contains ⟨value⟩

def is_valid_round_lots_only (value : UInt8) : Bool :=
  value == RoundLotsOnly.No.code || value == RoundLotsOnly.Yes.code

def is_valid_authenticity (value : UInt8) : Bool :=
  value == Authenticity.Production.code || value == Authenticity.Test.code

def is_valid_short_sale_threshold (value : UInt8) : Bool :=
  [ShortSaleThresholdIndicator.NotAvailable, .NotRestricted, .Restricted].contains ⟨value⟩

def is_valid_ipo_flag (value : UInt8) : Bool :=
  [IpoFlag.NotAvailable, .NotIpo, .Ipo, .NonIpoNewIssue].contains ⟨value⟩

def is_valid_luld_tier (value : UInt8) : Bool :=
  [LuldReferencePriceTier.NotAvailable, .TierOne, .TierTwo].contains ⟨value⟩

def is_valid_etp_flag (value : UInt8) : Bool :=
  [EtpFlag.NotAvailable, .NotEtp, .Etp].contains ⟨value⟩

def is_valid_inverse_indicator (value : UInt8) : Bool :=
  value == InverseIndicator.NotInverse.code || value == InverseIndicator.Inverse.code

def is_printable_ascii (value : UInt8) : Bool :=
  value ≥ 0x20 && value ≤ 0x7E

end Validators

section Fields

-- The first read of a field, whose failure leaves the error of the reader.
def read_or_fail {T : Type} (read : ItchReadCursor → Option T × ItchReadCursor) : FieldRead T :=
  fun state =>
    match read_field read state with
    | (some value, state) => (some value, state)
    | (none, state) => fail_with reader_error state

def read_enum_field {Enum : Type} (offset : UInt64) (context : ItchDecodeContext)
    (message_type : UInt8) (validator : UInt8 → Bool) (enum : UInt8 → Enum) :
    FieldRead Enum := do
  let value ← read_or_fail ItchReadCursor.read_u8
  if validator value then return enum value
  else fail_with fun _ =>
    Error.invalid_itch_enum offset value context.sequence message_type

-- The loop of `read_ascii_field`, from the byte at `offset`.
def check_ascii (context : ItchDecodeContext) (message_type : UInt8) :
    UInt64 → List UInt8 → FieldRead Unit
  | _, [] => return ()
  | offset, value :: rest =>
    if is_printable_ascii value then check_ascii context message_type (offset + 1) rest
    else fail_with fun _ =>
      Error.invalid_itch_ascii offset value context.sequence message_type

def read_ascii_field (Size : Nat) (offset : UInt64) (context : ItchDecodeContext)
    (message_type : UInt8) : FieldRead (Vector UInt8 Size) := do
  let bytes ← read_or_fail (ItchReadCursor.read_bytes (.ofNat Size))
  check_ascii context message_type offset bytes.bytes
  return .ofFn fun index => bytes.bytes.getD index 0

def read_ascii_character (offset : UInt64) (context : ItchDecodeContext)
    (message_type : UInt8) : FieldRead UInt8 := do
  let value ← read_or_fail ItchReadCursor.read_u8
  if is_printable_ascii value then return value
  else fail_with fun _ =>
    Error.invalid_itch_ascii offset value context.sequence message_type

def read_printable_flag (offset : UInt64) (context : ItchDecodeContext)
    (message_type : UInt8) : FieldRead Bool := do
  let value ← read_or_fail ItchReadCursor.read_u8
  if value = 'Y'.toUInt8 then return true
  else if value = 'N'.toUInt8 then return false
  else fail_with fun _ =>
    Error.invalid_itch_enum offset value context.sequence message_type

end Fields

section Messages

structure ExecutionFields where
  header : ItchCommonHeader
  order_reference : UInt64
  executed_shares : UInt32
  match_number : UInt64
deriving DecidableEq, Repr

def decode_execution_fields (context : ItchDecodeContext) (message_type : UInt8) :
    Decoding ExecutionFields := do
  let header ← decode_common_header message_type context
  orFail reader_error do
    let order_reference ← read_field ItchReadCursor.read_u64_be
    let executed_shares ← read_field ItchReadCursor.read_u32_be
    let match_number ← read_field ItchReadCursor.read_u64_be
    return { header, order_reference, executed_shares, match_number }

-- A decoder with its own reader of the payload.
def decode_payload {T : Type} (payload : Span) (context : ItchDecodeContext)
    (message_type : UInt8) (expected_size : UInt64) (decoding : Decoding T) : Result T :=
  (decoding { reader := .create payload context message_type expected_size }).1

def decode_add_order_fields (payload : Span) (context : ItchDecodeContext)
    (message_type : UInt8) (expected_size : UInt64) (has_attribution : Bool) :
    Result AddOrder :=
  decode_payload payload context message_type expected_size do
    let header ← decode_common_header message_type context
    let order ← orFail shared_error do
      let order_reference ← read_field ItchReadCursor.read_u64_be
      let side ← read_enum_field 19 context message_type is_valid_side Side.mk
      let shares ← read_field ItchReadCursor.read_u32_be
      let stock ← read_ascii_field 8 24 context message_type
      let price_1e4 ← read_field ItchReadCursor.read_u32_be
      return { header, order_reference, side, shares, stock, price_1e4, attribution := none }
    failIf (order.price_1e4 > kMaxPrice4)
      (Error.invalid_itch_value 32 order.price_1e4.toUInt64 kMaxPrice4.toUInt64
        context.sequence message_type)
    if has_attribution then
      let attribution ← orFail local_error (read_ascii_field 4 36 context message_type)
      return { order with attribution := some attribution }
    else return order

def decode_known_book_neutral (payload : Span) (context : ItchDecodeContext)
    (message_type : UInt8) (expected_size : UInt64) : Result DecodedItchMessage :=
  decode_payload payload context message_type expected_size do
    let header ← decode_common_header message_type context
    return .KnownBookNeutral { header }

-- The check that starts every typed decoder.
def check_length {T : Type} (payload : Span) (context : ItchDecodeContext)
    (message_type : UInt8) (length : UInt64) (result : Result T) : Result T :=
  if payload.size ≠ length then
    .error (Error.invalid_itch_length length payload.size context.sequence message_type)
  else result

def decode_exact {T : Type} (payload : Span) (context : ItchDecodeContext)
    (message_type : UInt8) (length : UInt64) (decoding : Decoding T) : Result T :=
  check_length payload context message_type length
    (decode_payload payload context message_type length decoding)

def decode_system_event (payload : Span) (context : ItchDecodeContext) : Result SystemEvent :=
  let message_type := 'S'.toUInt8
  decode_exact payload context message_type kSystemEventLength do
    let header ← decode_common_header message_type context
    orFail local_error do
      let event_code ← read_enum_field kItchCommonHeaderLength context message_type
        is_valid_system_event_code SystemEventCode.mk
      return { header, event_code }

def decode_stock_directory (payload : Span) (context : ItchDecodeContext) :
    Result StockDirectory :=
  let message_type := 'R'.toUInt8
  decode_exact payload context message_type kStockDirectoryLength do
    let header ← decode_common_header message_type context
    orFail shared_error do
      let stock ← read_ascii_field 8 11 context message_type
      let market_category ← read_enum_field 19 context message_type
        is_valid_market_category MarketCategory.mk
      let financial_status_indicator ← read_enum_field 20 context message_type
        is_valid_financial_status FinancialStatusIndicator.mk
      let round_lot_size ← read_field ItchReadCursor.read_u32_be
      let round_lots_only ← read_enum_field 25 context message_type
        is_valid_round_lots_only RoundLotsOnly.mk
      let issue_classification ← read_ascii_character 26 context message_type
      let issue_subtype ← read_ascii_field 2 27 context message_type
      let authenticity ← read_enum_field 29 context message_type
        is_valid_authenticity Authenticity.mk
      let short_sale_threshold_indicator ← read_enum_field 30 context message_type
        is_valid_short_sale_threshold ShortSaleThresholdIndicator.mk
      let ipo_flag ← read_enum_field 31 context message_type is_valid_ipo_flag IpoFlag.mk
      let luld_reference_price_tier ← read_enum_field 32 context message_type
        is_valid_luld_tier LuldReferencePriceTier.mk
      let etp_flag ← read_enum_field 33 context message_type is_valid_etp_flag EtpFlag.mk
      let etp_leverage_factor ← read_field ItchReadCursor.read_u32_be
      let inverse_indicator ← read_enum_field 38 context message_type
        is_valid_inverse_indicator InverseIndicator.mk
      return {
        header, stock, market_category, financial_status_indicator, round_lot_size,
        round_lots_only, issue_classification, issue_subtype, authenticity,
        short_sale_threshold_indicator, ipo_flag, luld_reference_price_tier, etp_flag,
        etp_leverage_factor, inverse_indicator }

def decode_add_order (payload : Span) (context : ItchDecodeContext) : Result AddOrder :=
  let message_type := 'A'.toUInt8
  check_length payload context message_type kAddOrderLength
    (decode_add_order_fields payload context message_type kAddOrderLength false)

def decode_add_order_with_attribution (payload : Span) (context : ItchDecodeContext) :
    Result AddOrder :=
  let message_type := 'F'.toUInt8
  check_length payload context message_type kAddOrderWithAttributionLength
    (decode_add_order_fields payload context message_type kAddOrderWithAttributionLength true)

def decode_order_executed (payload : Span) (context : ItchDecodeContext) :
    Result OrderExecuted :=
  let message_type := 'E'.toUInt8
  decode_exact payload context message_type kOrderExecutedLength do
    let fields ← decode_execution_fields context message_type
    return {
      header := fields.header, order_reference := fields.order_reference,
      executed_shares := fields.executed_shares, match_number := fields.match_number }

def decode_order_executed_with_price (payload : Span) (context : ItchDecodeContext) :
    Result OrderExecutedWithPrice :=
  let message_type := 'C'.toUInt8
  decode_exact payload context message_type kOrderExecutedWithPriceLength do
    let fields ← decode_execution_fields context message_type
    let message : OrderExecutedWithPrice ← orFail shared_error do
      let printable ← read_printable_flag 31 context message_type
      let execution_price_1e4 ← read_field ItchReadCursor.read_u32_be
      return {
        header := fields.header, order_reference := fields.order_reference,
        executed_shares := fields.executed_shares, match_number := fields.match_number,
        printable, execution_price_1e4 }
    failIf (message.execution_price_1e4 > kMaxPrice4)
      (Error.invalid_itch_value 32 message.execution_price_1e4.toUInt64 kMaxPrice4.toUInt64
        context.sequence message_type)
    return message

def decode_order_cancel (payload : Span) (context : ItchDecodeContext) : Result OrderCancel :=
  let message_type := 'X'.toUInt8
  decode_exact payload context message_type kOrderCancelLength do
    let header ← decode_common_header message_type context
    orFail reader_error do
      let order_reference ← read_field ItchReadCursor.read_u64_be
      let cancelled_shares ← read_field ItchReadCursor.read_u32_be
      return { header, order_reference, cancelled_shares }

def decode_order_delete (payload : Span) (context : ItchDecodeContext) : Result OrderDelete :=
  let message_type := 'D'.toUInt8
  decode_exact payload context message_type kOrderDeleteLength do
    let header ← decode_common_header message_type context
    orFail reader_error do
      let order_reference ← read_field ItchReadCursor.read_u64_be
      return { header, order_reference }

def decode_order_replace (payload : Span) (context : ItchDecodeContext) :
    Result OrderReplace :=
  let message_type := 'U'.toUInt8
  decode_exact payload context message_type kOrderReplaceLength do
    let header ← decode_common_header message_type context
    let message : OrderReplace ← orFail reader_error do
      let original_order_reference ← read_field ItchReadCursor.read_u64_be
      let new_order_reference ← read_field ItchReadCursor.read_u64_be
      let shares ← read_field ItchReadCursor.read_u32_be
      let price_1e4 ← read_field ItchReadCursor.read_u32_be
      return { header, original_order_reference, new_order_reference, shares, price_1e4 }
    failIf (message.price_1e4 > kMaxPrice4)
      (Error.invalid_itch_value 31 message.price_1e4.toUInt64 kMaxPrice4.toUInt64
        context.sequence message_type)
    return message

end Messages

def lift_decoded_result {Message : Type} (lift : Message → DecodedItchMessage)
    (result : Result Message) : Result DecodedItchMessage :=
  match result with
  | .ok message => .ok (lift message)
  | .error error => .error error

-- The `switch` of `decode_itch`.
def decode_required (payload : Span) (context : ItchDecodeContext) (message_type : UInt8) :
    Result DecodedItchMessage :=
  if message_type = 'S'.toUInt8 then
    lift_decoded_result .SystemEvent (decode_system_event payload context)
  else if message_type = 'R'.toUInt8 then
    lift_decoded_result .StockDirectory (decode_stock_directory payload context)
  else if message_type = 'A'.toUInt8 then
    lift_decoded_result .AddOrder (decode_add_order payload context)
  else if message_type = 'F'.toUInt8 then
    lift_decoded_result .AddOrder (decode_add_order_with_attribution payload context)
  else if message_type = 'E'.toUInt8 then
    lift_decoded_result .OrderExecuted (decode_order_executed payload context)
  else if message_type = 'C'.toUInt8 then
    lift_decoded_result .OrderExecutedWithPrice
      (decode_order_executed_with_price payload context)
  else if message_type = 'X'.toUInt8 then
    lift_decoded_result .OrderCancel (decode_order_cancel payload context)
  else if message_type = 'D'.toUInt8 then
    lift_decoded_result .OrderDelete (decode_order_delete payload context)
  else if message_type = 'U'.toUInt8 then
    lift_decoded_result .OrderReplace (decode_order_replace payload context)
  else
    .error (Error.unknown_itch_type message_type context.sequence)

def decode_itch (payload : Span) (context : ItchDecodeContext) : Result DecodedItchMessage :=
  match payload.bytes with
  | [] => .error (Error.invalid_itch_length 1 0 context.sequence 0)
  | raw_type :: _ =>
    if classify_itch_type raw_type = .Unknown then
      .error (Error.unknown_itch_type raw_type context.sequence)
    else
      match expected_itch_length raw_type with
      | none => .error (Error.unknown_itch_type raw_type context.sequence)
      | some expected_size =>
        if payload.size ≠ expected_size then
          .error (Error.invalid_itch_length expected_size payload.size context.sequence raw_type)
        else if classify_itch_type raw_type = .KnownBookNeutral then
          decode_known_book_neutral payload context raw_type expected_size
        else decode_required payload context raw_type

end AegisFeed
