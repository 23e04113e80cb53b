import Mathlib.Algebra.Group.Nat.Defs

namespace AegisFeed

inductive ErrorCategory where
  | Configuration
  | InputIo
  | InputFraming
  | SocketIo
  | MoldFraming
  | Session
  | Sequence
  | Recovery
  | ItchDecode
  | BookInvariant
  | ResourceLimit
  | Verification
  | Internal
deriving DecidableEq, Repr

inductive ErrorCode where
  | None
  | ReadPastEnd
  | WritePastEnd
  | ValueOutOfRange
  | InvalidSessionLength
  | InvalidSessionCharacter
  | InvalidItchLength
  | UnexpectedItchType
  | InvalidItchEnum
  | InvalidItchAscii
  | InvalidItchValue
  | UnknownItchType
  | BookInvariantViolation
  | InvalidRequestedSymbol
  | InvalidStockSymbol
  | ConflictingStockLocate
  | InvalidAddOrder
  | DuplicateOrderReference
  | BookArithmeticOverflow
  | ConflictingSelectedSymbolLocate
  | UnknownStockLocate
  | InvalidOrderReduction
  | UnknownOrderReference
  | OverExecution
  | OverCancel
  | InvalidOrderDelete
  | InvalidOrderReplace
deriving DecidableEq, Repr

structure Error where
  category : ErrorCategory := .Internal
  code : ErrorCode := .None
  offset : UInt64 := 0
  requested_size : UInt64 := 0
  available_size : UInt64 := 0
  observed_value : UInt64 := 0
  limit_value : UInt64 := 0
  message : String := ""
  sequence : UInt64 := 0
  message_type : UInt8 := 0
deriving DecidableEq, Repr

-- `Result<T>`: a value or one error.
abbrev Result := Except Error

namespace Error

def read_past_end (offset requested_size available_size : UInt64) : Error :=
  { category := .InputFraming, code := .ReadPastEnd, offset, requested_size, available_size,
    message := "read exceeds remaining buffer" }

def write_past_end (offset requested_size available_size : UInt64) : Error :=
  { category := .ResourceLimit, code := .WritePastEnd, offset, requested_size, available_size,
    message := "write exceeds remaining buffer" }

def value_out_of_range (offset observed_value limit_value : UInt64) : Error :=
  { category := .InputFraming, code := .ValueOutOfRange, offset, observed_value, limit_value,
    message := "value does not fit field width" }

def invalid_session_length (observed_length limit : UInt64) : Error :=
  { category := .Session, code := .InvalidSessionLength,
    requested_size := observed_length, available_size := limit,
    observed_value := observed_length, limit_value := limit,
    message := "session text must contain 1 to 10 printable ASCII characters" }

def invalid_session_character (offset : UInt64) (observed_value : UInt8) : Error :=
  { category := .Session, code := .InvalidSessionCharacter, offset,
    requested_size := 1, available_size := 1,
    observed_value := observed_value.toUInt64, limit_value := 0x7E,
    message := "session text contains a non-printable ASCII character" }

def invalid_itch_length (expected_size observed_size sequence : UInt64)
    (message_type : UInt8) : Error :=
  { category := .ItchDecode, code := .InvalidItchLength,
    requested_size := expected_size, available_size := observed_size,
    observed_value := observed_size, limit_value := expected_size,
    message := "ITCH payload length does not match message type", sequence, message_type }

def unexpected_itch_type (expected_type observed_type : UInt8) (sequence : UInt64) : Error :=
  { category := .ItchDecode, code := .UnexpectedItchType,
    requested_size := 1, available_size := 1,
    observed_value := observed_type.toUInt64, limit_value := expected_type.toUInt64,
    message := "unexpected ITCH message type", sequence, message_type := observed_type }

def unknown_itch_type (observed_type : UInt8) (sequence : UInt64) : Error :=
  { category := .ItchDecode, code := .UnknownItchType,
    requested_size := 1, available_size := 1, observed_value := observed_type.toUInt64,
    message := "unknown ITCH message type", sequence, message_type := observed_type }

def invalid_itch_enum (offset : UInt64) (observed_value : UInt8) (sequence : UInt64)
    (message_type : UInt8) : Error :=
  { category := .ItchDecode, code := .InvalidItchEnum, offset,
    requested_size := 1, available_size := 1, observed_value := observed_value.toUInt64,
    message := "invalid ITCH enum value", sequence, message_type }

def invalid_itch_ascii (offset : UInt64) (observed_value : UInt8) (sequence : UInt64)
    (message_type : UInt8) : Error :=
  { category := .ItchDecode, code := .InvalidItchAscii, offset,
    requested_size := 1, available_size := 1,
    observed_value := observed_value.toUInt64, limit_value := 0x7E,
    message := "ITCH alpha field contains non-printable ASCII", sequence, message_type }

def invalid_itch_value (offset observed_value limit_value sequence : UInt64)
    (message_type : UInt8) : Error :=
  { category := .ItchDecode, code := .InvalidItchValue, offset, observed_value, limit_value,
    message := "ITCH value exceeds permitted range", sequence, message_type }

def book_invariant_violation (reason : String) (observed_value limit_value : UInt64) : Error :=
  { category := .BookInvariant, code := .BookInvariantViolation, observed_value, limit_value,
    message := reason }

def invalid_requested_symbol (reason : String) (observed_size : UInt64) : Error :=
  { category := .Configuration, code := .InvalidRequestedSymbol,
    requested_size := observed_size, available_size := 8,
    observed_value := observed_size, limit_value := 8, message := reason }

def invalid_stock_symbol (reason : String) (offset : UInt64) : Error :=
  { category := .Session, code := .InvalidStockSymbol, offset,
    requested_size := 1, available_size := 8, message := reason }

def conflicting_stock_locate (stock_locate : UInt16) : Error :=
  { category := .Session, code := .ConflictingStockLocate,
    observed_value := stock_locate.toUInt64, limit_value := stock_locate.toUInt64,
    message := "stock locate is already mapped to a different symbol" }

def invalid_add_order (reason : String) (observed_value limit_value : UInt64) : Error :=
  { category := .BookInvariant, code := .InvalidAddOrder, observed_value, limit_value,
    message := reason }

def duplicate_order_reference (order_reference : UInt64) : Error :=
  { category := .BookInvariant, code := .DuplicateOrderReference,
    observed_value := order_reference, message := "order reference is already active" }

def book_arithmetic_overflow (reason : String) (observed_value limit_value : UInt64) : Error :=
  { category := .ResourceLimit, code := .BookArithmeticOverflow, observed_value, limit_value,
    message := reason }

def conflicting_selected_symbol_locate (existing_stock_locate observed_stock_locate : UInt16) :
    Error :=
  { category := .Session, code := .ConflictingSelectedSymbolLocate,
    observed_value := observed_stock_locate.toUInt64,
    limit_value := existing_stock_locate.toUInt64,
    message := "requested symbol is already discovered at a different stock locate" }

def unknown_stock_locate (stock_locate : UInt16) : Error :=
  { category := .Session, code := .UnknownStockLocate,
    observed_value := stock_locate.toUInt64,
    message := "order event references an unknown stock locate" }

def invalid_order_reduction (reason : String) (observed_value limit_value : UInt64) : Error :=
  { category := .BookInvariant, code := .InvalidOrderReduction, observed_value, limit_value,
    message := reason }

def unknown_order_reference (order_reference : UInt64) : Error :=
  { category := .BookInvariant, code := .UnknownOrderReference,
    observed_value := order_reference, message := "order event references an inactive order" }

def over_execution (executed_shares remaining_shares : UInt64) : Error :=
  { category := .BookInvariant, code := .OverExecution,
    observed_value := executed_shares, limit_value := remaining_shares,
    message := "executed shares exceed remaining order shares" }

def over_cancel (cancelled_shares remaining_shares : UInt64) : Error :=
  { category := .BookInvariant, code := .OverCancel,
    observed_value := cancelled_shares, limit_value := remaining_shares,
    message := "cancelled shares exceed remaining order shares" }

def invalid_order_delete (reason : String) (observed_value limit_value : UInt64) : Error :=
  { category := .BookInvariant, code := .InvalidOrderDelete, observed_value, limit_value,
    message := reason }

def invalid_order_replace (reason : String) (observed_value limit_value : UInt64) : Error :=
  { category := .BookInvariant, code := .InvalidOrderReplace, observed_value, limit_value,
    message := reason }

end Error

end AegisFeed
