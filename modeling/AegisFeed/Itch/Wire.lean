import AegisFeed.Itch.Decoder
import AegisFeed.Itch.Grammar
import AegisFeed.Library.BigEndian
import AegisFeed.Library.Slices
import Mathlib.Tactic.MkIffOfInductiveProp

namespace AegisFeed

open BigEndian (encode u8 u16 u32 u64)
open Slices (slice)

-- The bytes that a message stands for: its fields in the order of their declaration,
-- each big-endian at its width.
def ItchCommonHeader.wire (header : ItchCommonHeader) : List UInt8 :=
  encode 1 header.type.toNat ++ encode 2 header.stock_locate.toNat ++
    encode 2 header.tracking_number.toNat ++ encode 6 header.timestamp_ns.toNat

def SystemEvent.wire (message : SystemEvent) : List UInt8 :=
  message.header.wire ++ encode 1 message.event_code.code.toNat

def StockDirectory.wire (message : StockDirectory) : List UInt8 :=
  message.header.wire ++ message.stock.toList ++ encode 1 message.market_category.code.toNat ++
    encode 1 message.financial_status_indicator.code.toNat ++
    encode 4 message.round_lot_size.toNat ++ encode 1 message.round_lots_only.code.toNat ++
    encode 1 message.issue_classification.toNat ++ message.issue_subtype.toList ++
    encode 1 message.authenticity.code.toNat ++
    encode 1 message.short_sale_threshold_indicator.code.toNat ++
    encode 1 message.ipo_flag.code.toNat ++
    encode 1 message.luld_reference_price_tier.code.toNat ++
    encode 1 message.etp_flag.code.toNat ++ encode 4 message.etp_leverage_factor.toNat ++
    encode 1 message.inverse_indicator.code.toNat

def AddOrder.wire (message : AddOrder) : List UInt8 :=
  message.header.wire ++ encode 8 message.order_reference.toNat ++
    encode 1 message.side.code.toNat ++ encode 4 message.shares.toNat ++
    message.stock.toList ++ encode 4 message.price_1e4.toNat ++
    match message.attribution with
    | some attribution => attribution.toList
    | none => []

def OrderExecuted.wire (message : OrderExecuted) : List UInt8 :=
  message.header.wire ++ encode 8 message.order_reference.toNat ++
    encode 4 message.executed_shares.toNat ++ encode 8 message.match_number.toNat

def OrderExecutedWithPrice.wire (message : OrderExecutedWithPrice) : List UInt8 :=
  message.header.wire ++ encode 8 message.order_reference.toNat ++
    encode 4 message.executed_shares.toNat ++ encode 8 message.match_number.toNat ++
    encode 1 (if message.printable then 'Y'.toUInt8 else 'N'.toUInt8).toNat ++
    encode 4 message.execution_price_1e4.toNat

def OrderCancel.wire (message : OrderCancel) : List UInt8 :=
  message.header.wire ++ encode 8 message.order_reference.toNat ++
    encode 4 message.cancelled_shares.toNat

def OrderDelete.wire (message : OrderDelete) : List UInt8 :=
  message.header.wire ++ encode 8 message.order_reference.toNat

def OrderReplace.wire (message : OrderReplace) : List UInt8 :=
  message.header.wire ++ encode 8 message.original_order_reference.toNat ++
    encode 8 message.new_order_reference.toNat ++ encode 4 message.shares.toNat ++
    encode 4 message.price_1e4.toNat

-- A book-neutral message keeps its header only.
def DecodedItchMessage.wire : DecodedItchMessage → List UInt8
  | .SystemEvent message => message.wire
  | .StockDirectory message => message.wire
  | .AddOrder message => message.wire
  | .OrderExecuted message => message.wire
  | .OrderExecutedWithPrice message => message.wire
  | .OrderCancel message => message.wire
  | .OrderDelete message => message.wire
  | .OrderReplace message => message.wire
  | .KnownBookNeutral message => message.header.wire

def DecodedItchMessage.Required : DecodedItchMessage → Prop
  | .KnownBookNeutral _ => False
  | _ => True

section WellFormed

-- The header carries the letter of the type, and its time fits six bytes.
def ItchCommonHeader.Carries (header : ItchCommonHeader) (type : UInt8) : Prop :=
  header.type = type ∧ header.timestamp_ns.toNat < 2 ^ 48

def PrintableText {Size : Nat} (text : Vector UInt8 Size) : Prop :=
  ∀ byte ∈ text.toList, Grammar.Printable byte

def SystemEvent.Valid (message : SystemEvent) : Prop :=
  message.event_code.code ∈ Grammar.systemEventCodes

@[mk_iff] structure StockDirectory.Valid (message : StockDirectory) : Prop where
  stock : PrintableText message.stock
  market_category : message.market_category.code ∈ Grammar.marketCategories
  financial_status_indicator :
    message.financial_status_indicator.code ∈ Grammar.financialStatuses
  round_lots_only : message.round_lots_only.code ∈ Grammar.flags
  issue_classification : Grammar.Printable message.issue_classification
  issue_subtype : PrintableText message.issue_subtype
  authenticity : message.authenticity.code ∈ Grammar.authenticities
  short_sale_threshold_indicator :
    message.short_sale_threshold_indicator.code ∈ Grammar.optionalFlags
  ipo_flag : message.ipo_flag.code ∈ Grammar.ipoFlags
  luld_reference_price_tier : message.luld_reference_price_tier.code ∈ Grammar.luldTiers
  etp_flag : message.etp_flag.code ∈ Grammar.optionalFlags
  inverse_indicator : message.inverse_indicator.code ∈ Grammar.flags

@[mk_iff] structure AddOrder.Valid (message : AddOrder) (has_attribution : Bool) : Prop where
  side : message.side.code ∈ Grammar.sides
  stock : PrintableText message.stock
  price_1e4 : message.price_1e4 ≤ kMaxPrice4
  attribution : message.attribution.isSome = has_attribution
  printable : ∀ attribution, message.attribution = some attribution → PrintableText attribution

def OrderExecutedWithPrice.Valid (message : OrderExecutedWithPrice) : Prop :=
  message.execution_price_1e4 ≤ kMaxPrice4

def OrderReplace.Valid (message : OrderReplace) : Prop :=
  message.price_1e4 ≤ kMaxPrice4

def DecodedItchMessage.WellFormed : DecodedItchMessage → Prop
  | .SystemEvent message => message.header.Carries 'S'.toUInt8 ∧ message.Valid
  | .StockDirectory message => message.header.Carries 'R'.toUInt8 ∧ message.Valid
  | .AddOrder message =>
    message.header.Carries 'A'.toUInt8 ∧ message.Valid false ∨
      message.header.Carries 'F'.toUInt8 ∧ message.Valid true
  | .OrderExecuted message => message.header.Carries 'E'.toUInt8
  | .OrderExecutedWithPrice message => message.header.Carries 'C'.toUInt8 ∧ message.Valid
  | .OrderCancel message => message.header.Carries 'X'.toUInt8
  | .OrderDelete message => message.header.Carries 'D'.toUInt8
  | .OrderReplace message => message.header.Carries 'U'.toUInt8 ∧ message.Valid
  | .KnownBookNeutral _ => False

end WellFormed

-- The fields of a message, each at its offset.
def chars (Size : Nat) (bytes : List UInt8) : Vector UInt8 Size :=
  .ofFn fun index => bytes.getD index 0

def ItchCommonHeader.ofBytes (payload : List UInt8) : ItchCommonHeader where
  type := u8 (slice payload 0 1)
  stock_locate := u16 (slice payload 1 2)
  tracking_number := u16 (slice payload 3 2)
  timestamp_ns := u64 (slice payload 5 6)

def SystemEvent.ofBytes (payload : List UInt8) : SystemEvent where
  header := .ofBytes payload
  event_code := ⟨u8 (slice payload 11 1)⟩

def StockDirectory.ofBytes (payload : List UInt8) : StockDirectory where
  header := .ofBytes payload
  stock := chars 8 (slice payload 11 8)
  market_category := ⟨u8 (slice payload 19 1)⟩
  financial_status_indicator := ⟨u8 (slice payload 20 1)⟩
  round_lot_size := u32 (slice payload 21 4)
  round_lots_only := ⟨u8 (slice payload 25 1)⟩
  issue_classification := u8 (slice payload 26 1)
  issue_subtype := chars 2 (slice payload 27 2)
  authenticity := ⟨u8 (slice payload 29 1)⟩
  short_sale_threshold_indicator := ⟨u8 (slice payload 30 1)⟩
  ipo_flag := ⟨u8 (slice payload 31 1)⟩
  luld_reference_price_tier := ⟨u8 (slice payload 32 1)⟩
  etp_flag := ⟨u8 (slice payload 33 1)⟩
  etp_leverage_factor := u32 (slice payload 34 4)
  inverse_indicator := ⟨u8 (slice payload 38 1)⟩

def AddOrder.ofBytes (payload : List UInt8) (has_attribution : Bool) : AddOrder where
  header := .ofBytes payload
  order_reference := u64 (slice payload 11 8)
  side := ⟨u8 (slice payload 19 1)⟩
  shares := u32 (slice payload 20 4)
  stock := chars 8 (slice payload 24 8)
  price_1e4 := u32 (slice payload 32 4)
  attribution := if has_attribution then some (chars 4 (slice payload 36 4)) else none

def OrderExecuted.ofBytes (payload : List UInt8) : OrderExecuted where
  header := .ofBytes payload
  order_reference := u64 (slice payload 11 8)
  executed_shares := u32 (slice payload 19 4)
  match_number := u64 (slice payload 23 8)

def OrderExecutedWithPrice.ofBytes (payload : List UInt8) : OrderExecutedWithPrice where
  header := .ofBytes payload
  order_reference := u64 (slice payload 11 8)
  executed_shares := u32 (slice payload 19 4)
  match_number := u64 (slice payload 23 8)
  printable := u8 (slice payload 31 1) = 'Y'.toUInt8
  execution_price_1e4 := u32 (slice payload 32 4)

def OrderCancel.ofBytes (payload : List UInt8) : OrderCancel where
  header := .ofBytes payload
  order_reference := u64 (slice payload 11 8)
  cancelled_shares := u32 (slice payload 19 4)

def OrderDelete.ofBytes (payload : List UInt8) : OrderDelete where
  header := .ofBytes payload
  order_reference := u64 (slice payload 11 8)

def OrderReplace.ofBytes (payload : List UInt8) : OrderReplace where
  header := .ofBytes payload
  original_order_reference := u64 (slice payload 11 8)
  new_order_reference := u64 (slice payload 19 8)
  shares := u32 (slice payload 27 4)
  price_1e4 := u32 (slice payload 31 4)

section Chars

@[simp] theorem toList_chars {Size : Nat} {bytes : List UInt8} (h : bytes.length = Size) :
    (chars Size bytes).toList = bytes := by
  subst h
  apply List.ext_getElem
  · simp
  · intro index _ _
    simp [chars, List.getD_eq_getElem?_getD]

@[simp] theorem chars_toList {Size : Nat} (text : Vector UInt8 Size) :
    chars Size text.toList = text := by
  apply Vector.toList_inj.mp
  exact toList_chars text.length_toList

end Chars

end AegisFeed
