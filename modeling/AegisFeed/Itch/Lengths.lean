import Mathlib.Data.Nat.Basic

namespace AegisFeed

def kItchCommonHeaderLength : UInt64 := 11

def kSystemEventLength : UInt64 := 12
def kStockDirectoryLength : UInt64 := 39
def kAddOrderLength : UInt64 := 36
def kAddOrderWithAttributionLength : UInt64 := 40
def kOrderExecutedLength : UInt64 := 31
def kOrderExecutedWithPriceLength : UInt64 := 36
def kOrderCancelLength : UInt64 := 23
def kOrderDeleteLength : UInt64 := 19
def kOrderReplaceLength : UInt64 := 35

def kStockTradingActionLength : UInt64 := 25
def kRegShoRestrictionLength : UInt64 := 20
def kMarketParticipantPositionLength : UInt64 := 26
def kMwcbDeclineLevelLength : UInt64 := 35
def kMwcbStatusLength : UInt64 := 12
def kIpoQuotingPeriodUpdateLength : UInt64 := 28
def kLuldAuctionCollarLength : UInt64 := 35
def kOperationalHaltLength : UInt64 := 21
def kTradeLength : UInt64 := 44
def kCrossTradeLength : UInt64 := 40
def kBrokenTradeLength : UInt64 := 19
def kNetOrderImbalanceIndicatorLength : UInt64 := 50
def kRetailPriceImprovementIndicatorLength : UInt64 := 20
def kDirectListingPriceDiscoveryLength : UInt64 := 48

inductive ItchTypeClass where
  | Required
  | KnownBookNeutral
  | Unknown
deriving DecidableEq, Repr

structure ItchTypeDefinition where
  type : UInt8
  length : UInt64
  classification : ItchTypeClass
deriving DecidableEq, Repr

def itch_type_definitions : List ItchTypeDefinition := [
  ⟨'S'.toUInt8, kSystemEventLength, .Required⟩,
  ⟨'R'.toUInt8, kStockDirectoryLength, .Required⟩,
  ⟨'A'.toUInt8, kAddOrderLength, .Required⟩,
  ⟨'F'.toUInt8, kAddOrderWithAttributionLength, .Required⟩,
  ⟨'E'.toUInt8, kOrderExecutedLength, .Required⟩,
  ⟨'C'.toUInt8, kOrderExecutedWithPriceLength, .Required⟩,
  ⟨'X'.toUInt8, kOrderCancelLength, .Required⟩,
  ⟨'D'.toUInt8, kOrderDeleteLength, .Required⟩,
  ⟨'U'.toUInt8, kOrderReplaceLength, .Required⟩,
  ⟨'H'.toUInt8, kStockTradingActionLength, .KnownBookNeutral⟩,
  ⟨'Y'.toUInt8, kRegShoRestrictionLength, .KnownBookNeutral⟩,
  ⟨'L'.toUInt8, kMarketParticipantPositionLength, .KnownBookNeutral⟩,
  ⟨'V'.toUInt8, kMwcbDeclineLevelLength, .KnownBookNeutral⟩,
  ⟨'W'.toUInt8, kMwcbStatusLength, .KnownBookNeutral⟩,
  ⟨'K'.toUInt8, kIpoQuotingPeriodUpdateLength, .KnownBookNeutral⟩,
  ⟨'J'.toUInt8, kLuldAuctionCollarLength, .KnownBookNeutral⟩,
  ⟨'h'.toUInt8, kOperationalHaltLength, .KnownBookNeutral⟩,
  ⟨'P'.toUInt8, kTradeLength, .KnownBookNeutral⟩,
  ⟨'Q'.toUInt8, kCrossTradeLength, .KnownBookNeutral⟩,
  ⟨'B'.toUInt8, kBrokenTradeLength, .KnownBookNeutral⟩,
  ⟨'I'.toUInt8, kNetOrderImbalanceIndicatorLength, .KnownBookNeutral⟩,
  ⟨'N'.toUInt8, kRetailPriceImprovementIndicatorLength, .KnownBookNeutral⟩,
  ⟨'O'.toUInt8, kDirectListingPriceDiscoveryLength, .KnownBookNeutral⟩]

def find_definition (type : UInt8) : Option ItchTypeDefinition :=
  itch_type_definitions.find? fun definition => definition.type == type

def classify_itch_type (type : UInt8) : ItchTypeClass :=
  match find_definition type with
  | some definition => definition.classification
  | none => .Unknown

def expected_itch_length (type : UInt8) : Option UInt64 :=
  (find_definition type).map ItchTypeDefinition.length

-- The letters of the table are distinct, so it is a function of the letter.
theorem find_definition_eq_some_iff (type : UInt8) (definition : ItchTypeDefinition) :
    find_definition type = some definition ↔
      definition ∈ itch_type_definitions ∧ definition.type = type := by
  have hdistinct : ∀ first ∈ itch_type_definitions, ∀ second ∈ itch_type_definitions,
      first.type = second.type → first = second := by decide
  constructor
  · intro h
    exact ⟨List.mem_of_find?_eq_some h, by simpa using List.find?_some h⟩
  · rintro ⟨hmem, htype⟩
    cases h : find_definition type with
    | none =>
      have hnone := List.find?_eq_none.mp h definition hmem
      simp [htype] at hnone
    | some found =>
      have hfound : found.type = type := by simpa using List.find?_some h
      rw [hdistinct found (List.mem_of_find?_eq_some h) definition hmem (hfound.trans htype.symm)]

theorem find_definition_eq_none_iff (type : UInt8) :
    find_definition type = none ↔ ∀ definition ∈ itch_type_definitions, definition.type ≠ type := by
  simp [find_definition]

end AegisFeed
