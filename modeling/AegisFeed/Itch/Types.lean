import Mathlib.Data.Nat.Basic

namespace AegisFeed

abbrev Price4 := UInt32

def kMaxPrice4 : Price4 := 2000000000

-- `char` is one byte here; no function of the source depends on its sign.
abbrev StockSymbol := Vector UInt8 8
abbrev Attribution := Vector UInt8 4
abbrev IssueSubtype := Vector UInt8 2

-- `Attribution{}`.
def Attribution.zero : Attribution := Vector.replicate 4 0

structure ItchCommonHeader where
  type : UInt8
  stock_locate : UInt16
  tracking_number : UInt16
  timestamp_ns : UInt64
deriving DecidableEq, Repr

-- The enumerations of the source have a fixed underlying type and can hold any
-- byte. Each is the byte; the enumerators are named constants.
structure Side where
  code : UInt8
deriving DecidableEq, Repr

def Side.Buy : Side := ⟨'B'.toUInt8⟩
def Side.Sell : Side := ⟨'S'.toUInt8⟩

structure SystemEventCode where
  code : UInt8
deriving DecidableEq, Repr

namespace SystemEventCode

def StartOfMessages : SystemEventCode := ⟨'O'.toUInt8⟩
def StartOfSystemHours : SystemEventCode := ⟨'S'.toUInt8⟩
def StartOfMarketHours : SystemEventCode := ⟨'Q'.toUInt8⟩
def EndOfMarketHours : SystemEventCode := ⟨'M'.toUInt8⟩
def EndOfSystemHours : SystemEventCode := ⟨'E'.toUInt8⟩
def EndOfMessages : SystemEventCode := ⟨'C'.toUInt8⟩
def EmergencyMarketConditionHalt : SystemEventCode := ⟨'A'.toUInt8⟩
def EmergencyMarketConditionQuoteOnly : SystemEventCode := ⟨'R'.toUInt8⟩
def EmergencyMarketConditionResumption : SystemEventCode := ⟨'B'.toUInt8⟩

end SystemEventCode

structure MarketCategory where
  code : UInt8
deriving DecidableEq, Repr

namespace MarketCategory

def NotAvailable : MarketCategory := ⟨' '.toUInt8⟩
def NasdaqGlobalSelect : MarketCategory := ⟨'Q'.toUInt8⟩
def NasdaqGlobalMarket : MarketCategory := ⟨'G'.toUInt8⟩
def NasdaqCapitalMarket : MarketCategory := ⟨'S'.toUInt8⟩
def NewYorkStockExchange : MarketCategory := ⟨'N'.toUInt8⟩
def NyseTexas : MarketCategory := ⟨'M'.toUInt8⟩
def TexasStockExchange : MarketCategory := ⟨'F'.toUInt8⟩
def NyseAmerican : MarketCategory := ⟨'A'.toUInt8⟩
def NyseArca : MarketCategory := ⟨'P'.toUInt8⟩
def CboeBzx : MarketCategory := ⟨'Z'.toUInt8⟩
def InvestorsExchange : MarketCategory := ⟨'V'.toUInt8⟩

end MarketCategory

structure FinancialStatusIndicator where
  code : UInt8
deriving DecidableEq, Repr

namespace FinancialStatusIndicator

def NotAvailable : FinancialStatusIndicator := ⟨' '.toUInt8⟩
def Deficient : FinancialStatusIndicator := ⟨'D'.toUInt8⟩
def Delinquent : FinancialStatusIndicator := ⟨'E'.toUInt8⟩
def Bankrupt : FinancialStatusIndicator := ⟨'Q'.toUInt8⟩
def Suspended : FinancialStatusIndicator := ⟨'S'.toUInt8⟩
def DeficientAndBankrupt : FinancialStatusIndicator := ⟨'G'.toUInt8⟩
def DeficientAndDelinquent : FinancialStatusIndicator := ⟨'H'.toUInt8⟩
def DelinquentAndBankrupt : FinancialStatusIndicator := ⟨'J'.toUInt8⟩
def DeficientDelinquentAndBankrupt : FinancialStatusIndicator := ⟨'K'.toUInt8⟩
def CreationsOrRedemptionsSuspended : FinancialStatusIndicator := ⟨'C'.toUInt8⟩
def Normal : FinancialStatusIndicator := ⟨'N'.toUInt8⟩

end FinancialStatusIndicator

structure RoundLotsOnly where
  code : UInt8
deriving DecidableEq, Repr

def RoundLotsOnly.No : RoundLotsOnly := ⟨'N'.toUInt8⟩
def RoundLotsOnly.Yes : RoundLotsOnly := ⟨'Y'.toUInt8⟩

structure Authenticity where
  code : UInt8
deriving DecidableEq, Repr

def Authenticity.Production : Authenticity := ⟨'P'.toUInt8⟩
def Authenticity.Test : Authenticity := ⟨'T'.toUInt8⟩

structure ShortSaleThresholdIndicator where
  code : UInt8
deriving DecidableEq, Repr

def ShortSaleThresholdIndicator.NotAvailable : ShortSaleThresholdIndicator := ⟨' '.toUInt8⟩
def ShortSaleThresholdIndicator.NotRestricted : ShortSaleThresholdIndicator := ⟨'N'.toUInt8⟩
def ShortSaleThresholdIndicator.Restricted : ShortSaleThresholdIndicator := ⟨'Y'.toUInt8⟩

structure IpoFlag where
  code : UInt8
deriving DecidableEq, Repr

def IpoFlag.NotAvailable : IpoFlag := ⟨' '.toUInt8⟩
def IpoFlag.NotIpo : IpoFlag := ⟨'N'.toUInt8⟩
def IpoFlag.Ipo : IpoFlag := ⟨'Y'.toUInt8⟩
def IpoFlag.NonIpoNewIssue : IpoFlag := ⟨'Z'.toUInt8⟩

structure LuldReferencePriceTier where
  code : UInt8
deriving DecidableEq, Repr

def LuldReferencePriceTier.NotAvailable : LuldReferencePriceTier := ⟨' '.toUInt8⟩
def LuldReferencePriceTier.TierOne : LuldReferencePriceTier := ⟨'1'.toUInt8⟩
def LuldReferencePriceTier.TierTwo : LuldReferencePriceTier := ⟨'2'.toUInt8⟩

structure EtpFlag where
  code : UInt8
deriving DecidableEq, Repr

def EtpFlag.NotAvailable : EtpFlag := ⟨' '.toUInt8⟩
def EtpFlag.NotEtp : EtpFlag := ⟨'N'.toUInt8⟩
def EtpFlag.Etp : EtpFlag := ⟨'Y'.toUInt8⟩

structure InverseIndicator where
  code : UInt8
deriving DecidableEq, Repr

def InverseIndicator.NotInverse : InverseIndicator := ⟨'N'.toUInt8⟩
def InverseIndicator.Inverse : InverseIndicator := ⟨'Y'.toUInt8⟩

structure SystemEvent where
  header : ItchCommonHeader
  event_code : SystemEventCode
deriving DecidableEq, Repr

structure StockDirectory where
  header : ItchCommonHeader
  stock : StockSymbol
  market_category : MarketCategory
  financial_status_indicator : FinancialStatusIndicator
  round_lot_size : UInt32
  round_lots_only : RoundLotsOnly
  issue_classification : UInt8
  issue_subtype : IssueSubtype
  authenticity : Authenticity
  short_sale_threshold_indicator : ShortSaleThresholdIndicator
  ipo_flag : IpoFlag
  luld_reference_price_tier : LuldReferencePriceTier
  etp_flag : EtpFlag
  etp_leverage_factor : UInt32
  inverse_indicator : InverseIndicator
deriving DecidableEq, Repr

structure AddOrder where
  header : ItchCommonHeader
  order_reference : UInt64
  side : Side
  shares : UInt32
  stock : StockSymbol
  price_1e4 : Price4
  attribution : Option Attribution
deriving DecidableEq, Repr

structure OrderExecuted where
  header : ItchCommonHeader
  order_reference : UInt64
  executed_shares : UInt32
  match_number : UInt64
deriving DecidableEq, Repr

structure OrderExecutedWithPrice where
  header : ItchCommonHeader
  order_reference : UInt64
  executed_shares : UInt32
  match_number : UInt64
  printable : Bool
  execution_price_1e4 : Price4
deriving DecidableEq, Repr

structure OrderCancel where
  header : ItchCommonHeader
  order_reference : UInt64
  cancelled_shares : UInt32
deriving DecidableEq, Repr

structure OrderDelete where
  header : ItchCommonHeader
  order_reference : UInt64
deriving DecidableEq, Repr

structure OrderReplace where
  header : ItchCommonHeader
  original_order_reference : UInt64
  new_order_reference : UInt64
  shares : UInt32
  price_1e4 : Price4
deriving DecidableEq, Repr

structure KnownBookNeutral where
  header : ItchCommonHeader
deriving DecidableEq, Repr

end AegisFeed
