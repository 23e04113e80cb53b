import AegisFeed.Itch.Decoder.Fields

namespace AegisFeed

open BigEndian (u8 u16 u32 u64)
open Grammar (codeFaults textFaults priceFaults faultsOf)
open ShortCircuit
open Slices (slice)

section Codes

variable (value : UInt8)

theorem is_valid_system_event_code_iff :
    is_valid_system_event_code value = true ↔ value ∈ Grammar.systemEventCodes := by
  simp [is_valid_system_event_code, Grammar.systemEventCodes, Grammar.letters,
    SystemEventCode.StartOfMessages, SystemEventCode.StartOfSystemHours,
    SystemEventCode.StartOfMarketHours, SystemEventCode.EndOfMarketHours,
    SystemEventCode.EndOfSystemHours, SystemEventCode.EndOfMessages,
    SystemEventCode.EmergencyMarketConditionHalt,
    SystemEventCode.EmergencyMarketConditionQuoteOnly,
    SystemEventCode.EmergencyMarketConditionResumption]

theorem is_valid_side_iff : is_valid_side value = true ↔ value ∈ Grammar.sides := by
  simp [is_valid_side, Grammar.sides, Grammar.letters, Side.Buy, Side.Sell]

theorem is_valid_market_category_iff :
    is_valid_market_category value = true ↔ value ∈ Grammar.marketCategories := by
  simp [is_valid_market_category, Grammar.marketCategories, Grammar.letters,
    MarketCategory.NotAvailable, MarketCategory.NasdaqGlobalSelect,
    MarketCategory.NasdaqGlobalMarket, MarketCategory.NasdaqCapitalMarket,
    MarketCategory.NewYorkStockExchange, MarketCategory.NyseTexas,
    MarketCategory.TexasStockExchange, MarketCategory.NyseAmerican, MarketCategory.NyseArca,
    MarketCategory.CboeBzx, MarketCategory.InvestorsExchange]

theorem is_valid_financial_status_iff :
    is_valid_financial_status value = true ↔ value ∈ Grammar.financialStatuses := by
  simp [is_valid_financial_status, Grammar.financialStatuses, Grammar.letters,
    FinancialStatusIndicator.NotAvailable, FinancialStatusIndicator.Deficient,
    FinancialStatusIndicator.Delinquent, FinancialStatusIndicator.Bankrupt,
    FinancialStatusIndicator.Suspended, FinancialStatusIndicator.DeficientAndBankrupt,
    FinancialStatusIndicator.DeficientAndDelinquent,
    FinancialStatusIndicator.DelinquentAndBankrupt,
    FinancialStatusIndicator.DeficientDelinquentAndBankrupt,
    FinancialStatusIndicator.CreationsOrRedemptionsSuspended, FinancialStatusIndicator.Normal]

theorem is_valid_round_lots_only_iff :
    is_valid_round_lots_only value = true ↔ value ∈ Grammar.flags := by
  simp [is_valid_round_lots_only, Grammar.flags, Grammar.letters, RoundLotsOnly.No,
    RoundLotsOnly.Yes]

theorem is_valid_authenticity_iff :
    is_valid_authenticity value = true ↔ value ∈ Grammar.authenticities := by
  simp [is_valid_authenticity, Grammar.authenticities, Grammar.letters,
    Authenticity.Production, Authenticity.Test]

theorem is_valid_short_sale_threshold_iff :
    is_valid_short_sale_threshold value = true ↔ value ∈ Grammar.optionalFlags := by
  simp [is_valid_short_sale_threshold, Grammar.optionalFlags, Grammar.letters,
    ShortSaleThresholdIndicator.NotAvailable, ShortSaleThresholdIndicator.NotRestricted,
    ShortSaleThresholdIndicator.Restricted]

theorem is_valid_ipo_flag_iff : is_valid_ipo_flag value = true ↔ value ∈ Grammar.ipoFlags := by
  simp [is_valid_ipo_flag, Grammar.ipoFlags, Grammar.letters, IpoFlag.NotAvailable,
    IpoFlag.NotIpo, IpoFlag.Ipo, IpoFlag.NonIpoNewIssue]

theorem is_valid_luld_tier_iff :
    is_valid_luld_tier value = true ↔ value ∈ Grammar.luldTiers := by
  simp [is_valid_luld_tier, Grammar.luldTiers, Grammar.letters,
    LuldReferencePriceTier.NotAvailable, LuldReferencePriceTier.TierOne,
    LuldReferencePriceTier.TierTwo]

theorem is_valid_etp_flag_iff :
    is_valid_etp_flag value = true ↔ value ∈ Grammar.optionalFlags := by
  simp [is_valid_etp_flag, Grammar.optionalFlags, Grammar.letters, EtpFlag.NotAvailable,
    EtpFlag.NotEtp, EtpFlag.Etp]

theorem is_valid_inverse_indicator_iff :
    is_valid_inverse_indicator value = true ↔ value ∈ Grammar.flags := by
  simp [is_valid_inverse_indicator, Grammar.flags, Grammar.letters,
    InverseIndicator.NotInverse, InverseIndicator.Inverse]

end Codes

def typeFaults (payload : List UInt8) (sequence : UInt64) (expected_type : UInt8) :
    List Error :=
  if u8 (slice payload 0 1) ≠ expected_type then
    [Error.unexpected_itch_type expected_type (u8 (slice payload 0 1)) sequence]
  else []

section

variable {payload : Span} {context : ItchDecodeContext} {message_type : UInt8}
  {expected_size : UInt64}

theorem outcome_common_header (h : 11 ≤ payload.bytes.length) :
    Outcome (decode_common_header message_type context)
      (.at payload context message_type expected_size 0)
      (.at payload context message_type expected_size 11)
      (typeFaults payload.bytes context.sequence message_type)
      (.ofBytes payload.bytes) := by
  rw [← List.append_nil (typeFaults _ _ _)]
  exact (outcome_u8 reader_error (by omega)).bind_of_nil <| (Outcome.failIf _ _ _).bind <|
    (outcome_u16 reader_error (by omega)).orFail_bind_of_nil <|
    (outcome_u16 reader_error (by omega)).orFail_bind_of_nil <|
    (outcome_u48 reader_error (by omega)).orFail_bind_pure

theorem decode_payload_eq {T : Type} {decoding : Decoding T} {length : UInt64}
    {faults : List Error} {value : T} (next : Nat)
    (houtcome : Outcome decoding (.at payload context message_type length 0)
      (.at payload context message_type length next) faults value) :
    decode_payload payload context message_type length decoding = verdict faults value :=
  houtcome.eq_verdict

theorem check_length_eq {T : Type} {length : UInt64} (result : Result T)
    (hlength : payload.bytes.length = length.toNat) :
    check_length payload context message_type length result = result := by
  have hsize : payload.size = length := by
    rw [← UInt64.toNat_inj, Span.toNat_size, hlength]
  exact if_neg (not_not_intro hsize)

theorem decode_exact_eq {T : Type} {decoding : Decoding T} {length : UInt64} {faults : List Error}
    {value : T} (next : Nat) (hlength : payload.bytes.length = length.toNat)
    (houtcome : Outcome decoding (.at payload context message_type length 0)
      (.at payload context message_type length next) faults value) :
    decode_exact payload context message_type length decoding = verdict faults value :=
  (check_length_eq _ hlength).trans (decode_payload_eq next houtcome)

theorem decode_system_event_eq (h : payload.bytes.length = 12) :
    decode_system_event payload context =
      verdict (typeFaults payload.bytes context.sequence 'S'.toUInt8 ++
        faultsOf payload.bytes context.sequence 'S'.toUInt8 Grammar.systemEventFields)
        (.ofBytes payload.bytes) := by
  refine decode_exact_eq 12 h <| (outcome_common_header (by omega)).bind ?_
  exact (outcome_enum_field surfaces_local_error 11 is_valid_system_event_code_iff
    (by omega)).orFail_bind (.of_some _ rfl)

theorem decode_stock_directory_eq (h : payload.bytes.length = 39) :
    decode_stock_directory payload context =
      verdict (typeFaults payload.bytes context.sequence 'R'.toUInt8 ++
        faultsOf payload.bytes context.sequence 'R'.toUInt8 Grammar.stockDirectoryFields)
        (.ofBytes payload.bytes) := by
  have hfailure := surfaces_shared_error
  refine decode_exact_eq 39 h <| (outcome_common_header (by omega)).bind ?_
  exact (outcome_ascii_field hfailure 11 (by omega)).orFail_bind <|
    (outcome_enum_field hfailure 19 is_valid_market_category_iff (by omega)).orFail_bind <|
    (outcome_enum_field hfailure 20 is_valid_financial_status_iff (by omega)).orFail_bind <|
    (outcome_u32 shared_error (by omega)).orFail_bind_of_nil <|
    (outcome_enum_field hfailure 25 is_valid_round_lots_only_iff (by omega)).orFail_bind <|
    (outcome_ascii_character hfailure 26 (by omega)).orFail_bind <|
    (outcome_ascii_field hfailure 27 (by omega)).orFail_bind <|
    (outcome_enum_field hfailure 29 is_valid_authenticity_iff (by omega)).orFail_bind <|
    (outcome_enum_field hfailure 30 is_valid_short_sale_threshold_iff (by omega)).orFail_bind <|
    (outcome_enum_field hfailure 31 is_valid_ipo_flag_iff (by omega)).orFail_bind <|
    (outcome_enum_field hfailure 32 is_valid_luld_tier_iff (by omega)).orFail_bind <|
    (outcome_enum_field hfailure 33 is_valid_etp_flag_iff (by omega)).orFail_bind <|
    (outcome_u32 shared_error (by omega)).orFail_bind_of_nil <|
    (outcome_enum_field hfailure 38 is_valid_inverse_indicator_iff (by omega)).orFail_bind
      (.of_some _ rfl)

theorem outcome_price (offset : Nat) (price : Price4) (state : DecodeState) :
    Outcome (failIf (price > kMaxPrice4)
        (Error.invalid_itch_value (.ofNat offset) price.toUInt64 kMaxPrice4.toUInt64
          context.sequence message_type)) state state
      (priceFaults context.sequence message_type offset price) () :=
  .failIf _ _ _

-- The part of an order up to its price, and what follows it.
theorem outcome_order_fields {header : ItchCommonHeader} {rest : AddOrder → Decoding AddOrder}
    {after : DecodeState} {faults : List Error} {result : AddOrder}
    (h : 36 ≤ payload.bytes.length)
    (hrest : Outcome (rest { AddOrder.ofBytes payload.bytes false with header })
      (.at payload context message_type expected_size 36) after faults result) :
    Outcome
      ((orFail shared_error do
        let order_reference ← read_field ItchReadCursor.read_u64_be
        let side ← read_enum_field 19 context message_type is_valid_side Side.mk
        let shares ← read_field ItchReadCursor.read_u32_be
        let stock ← read_ascii_field 8 24 context message_type
        let price_1e4 ← read_field ItchReadCursor.read_u32_be
        return ({ header, order_reference, side, shares, stock, price_1e4, attribution := none } :
          AddOrder)) >>= rest)
      (.at payload context message_type expected_size 11) after
      (codeFaults context.sequence message_type 19 Grammar.sides
        (u8 (slice payload.bytes 19 1)) ++
        (textFaults context.sequence message_type 24 (slice payload.bytes 24 8) ++ faults))
      result :=
  (outcome_u64 shared_error (by omega)).orFail_bind_then_of_nil <|
    (outcome_enum_field surfaces_shared_error 19 is_valid_side_iff
      (by omega)).orFail_bind_then <|
    (outcome_u32 shared_error (by omega)).orFail_bind_then_of_nil <|
    (outcome_ascii_field surfaces_shared_error 24 (by omega)).orFail_bind_then <|
    (outcome_u32 shared_error (by omega)).orFail_bind_pure_then hrest

theorem decode_add_order_eq (h : payload.bytes.length = 36) :
    decode_add_order payload context =
      verdict (typeFaults payload.bytes context.sequence 'A'.toUInt8 ++
        faultsOf payload.bytes context.sequence 'A'.toUInt8 Grammar.addOrderFields)
        (.ofBytes payload.bytes false) := by
  refine (check_length_eq _ h).trans <|
    decode_payload_eq 36 <| (outcome_common_header (by omega)).bind ?_
  exact outcome_order_fields (by omega) <| (outcome_price 32 _ _).bind (Outcome.pure _ _)

theorem decode_add_order_with_attribution_eq (h : payload.bytes.length = 40) :
    decode_add_order_with_attribution payload context =
      verdict (typeFaults payload.bytes context.sequence 'F'.toUInt8 ++
        faultsOf payload.bytes context.sequence 'F'.toUInt8 Grammar.attributedOrderFields)
        (.ofBytes payload.bytes true) := by
  refine (check_length_eq _ h).trans <|
    decode_payload_eq 40 <| (outcome_common_header (by omega)).bind ?_
  exact outcome_order_fields (by omega) <| (outcome_price 32 _ _).bind <|
    (outcome_ascii_field surfaces_local_error 36 (by omega)).bind (Outcome.pure _ _)

theorem outcome_execution_fields (h : 31 ≤ payload.bytes.length) :
    Outcome (decode_execution_fields context message_type)
      (.at payload context message_type expected_size 0)
      (.at payload context message_type expected_size 31)
      (typeFaults payload.bytes context.sequence message_type ++ [])
      { header := .ofBytes payload.bytes, order_reference := u64 (slice payload.bytes 11 8),
        executed_shares := u32 (slice payload.bytes 19 4),
        match_number := u64 (slice payload.bytes 23 8) } :=
  (outcome_common_header (by omega)).bind <|
    (outcome_u64 reader_error (by omega)).orFail_bind_of_nil <|
    (outcome_u32 reader_error (by omega)).orFail_bind_of_nil <|
    (outcome_u64 reader_error (by omega)).orFail_bind_pure

theorem decode_order_executed_eq (h : payload.bytes.length = 31) :
    decode_order_executed payload context =
      verdict (typeFaults payload.bytes context.sequence 'E'.toUInt8 ++
        faultsOf payload.bytes context.sequence 'E'.toUInt8 []) (.ofBytes payload.bytes) :=
  decode_exact_eq 31 h (outcome_execution_fields (by omega)).bind_pure

theorem decode_order_executed_with_price_eq (h : payload.bytes.length = 36) :
    decode_order_executed_with_price payload context =
      verdict (typeFaults payload.bytes context.sequence 'C'.toUInt8 ++
        faultsOf payload.bytes context.sequence 'C'.toUInt8 Grammar.executionWithPriceFields)
        (.ofBytes payload.bytes) := by
  rw [← List.append_nil (typeFaults _ _ _)]
  refine decode_exact_eq 36 h <| (outcome_execution_fields (by omega)).bind ?_
  exact (outcome_printable_flag surfaces_shared_error 31 (by omega)).orFail_bind_then <|
    (outcome_u32 shared_error (by omega)).orFail_bind_pure_then <|
    (outcome_price 32 _ _).bind (Outcome.pure _ _)

theorem decode_order_cancel_eq (h : payload.bytes.length = 23) :
    decode_order_cancel payload context =
      verdict (typeFaults payload.bytes context.sequence 'X'.toUInt8 ++
        faultsOf payload.bytes context.sequence 'X'.toUInt8 []) (.ofBytes payload.bytes) :=
  decode_exact_eq 23 h <| (outcome_common_header (by omega)).bind <|
    (outcome_u64 reader_error (by omega)).orFail_bind_of_nil <|
    (outcome_u32 reader_error (by omega)).orFail_bind_pure

theorem decode_order_delete_eq (h : payload.bytes.length = 19) :
    decode_order_delete payload context =
      verdict (typeFaults payload.bytes context.sequence 'D'.toUInt8 ++
        faultsOf payload.bytes context.sequence 'D'.toUInt8 []) (.ofBytes payload.bytes) :=
  decode_exact_eq 19 h <| (outcome_common_header (by omega)).bind <|
    (outcome_u64 reader_error (by omega)).orFail_bind_pure

theorem decode_order_replace_eq (h : payload.bytes.length = 35) :
    decode_order_replace payload context =
      verdict (typeFaults payload.bytes context.sequence 'U'.toUInt8 ++
        faultsOf payload.bytes context.sequence 'U'.toUInt8 Grammar.orderReplaceFields)
        (.ofBytes payload.bytes) := by
  refine decode_exact_eq 35 h <| (outcome_common_header (by omega)).bind ?_
  exact (outcome_u64 reader_error (by omega)).orFail_bind_then_of_nil <|
    (outcome_u64 reader_error (by omega)).orFail_bind_then_of_nil <|
    (outcome_u32 reader_error (by omega)).orFail_bind_then_of_nil <|
    (outcome_u32 reader_error (by omega)).orFail_bind_pure_then <|
    (outcome_price 31 _ _).bind (Outcome.pure _ _)

theorem decode_known_book_neutral_eq (h : 11 ≤ payload.bytes.length) :
    decode_known_book_neutral payload context message_type expected_size =
      verdict (typeFaults payload.bytes context.sequence message_type)
        (.KnownBookNeutral { header := .ofBytes payload.bytes }) :=
  decode_payload_eq 11 (outcome_common_header h).bind_pure

end

end AegisFeed
