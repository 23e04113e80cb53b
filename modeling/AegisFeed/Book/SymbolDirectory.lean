import AegisFeed.Book.OrderBook

namespace AegisFeed

open Std

-- The bytes of a `std::string`; its order is the order of the bytes.
abbrev Symbol := List UInt8

def kStockSymbolWidth : Nat := 8

def ascii_uppercase (character : UInt8) : UInt8 :=
  if character ≥ 'a'.toUInt8 ∧ character ≤ 'z'.toUInt8 then
    character - 'a'.toUInt8 + 'A'.toUInt8
  else character

-- The loop of `right_trimmed_size`, from `size` downwards.
def right_trimmed_from (symbol : Symbol) : Nat → Nat
  | 0 => 0
  | size + 1 =>
    if symbol[size]? = some ' '.toUInt8 then right_trimmed_from symbol size else size + 1

def right_trimmed_size (symbol : Symbol) : Nat :=
  right_trimmed_from symbol symbol.length

def normalize_feed_symbol (symbol : StockSymbol) : Result Symbol :=
  match symbol.toList.findIdx? (· = 0) with
  | some index =>
    .error (Error.invalid_stock_symbol "feed stock symbol contains an embedded null"
      (.ofNat index))
  | none =>
    let normalized_size := right_trimmed_size symbol.toList
    if normalized_size = 0 then
      .error (Error.invalid_stock_symbol "feed stock symbol is empty after normalization" 0)
    else
      .ok (symbol.toList.take normalized_size)

def normalize_requested_symbol (symbol : Symbol) : Result Symbol :=
  if symbol.length > kStockSymbolWidth then
    .error (Error.invalid_requested_symbol
      "requested symbol exceeds the ITCH stock-symbol width" (.ofNat symbol.length))
  else if symbol.contains 0 then
    .error (Error.invalid_requested_symbol "requested symbol contains an embedded null"
      (.ofNat symbol.length))
  else
    let normalized_size := right_trimmed_size symbol
    if normalized_size = 0 then
      .error (Error.invalid_requested_symbol "requested symbol is empty after normalization"
        (.ofNat symbol.length))
    else
      .ok ((symbol.take normalized_size).map ascii_uppercase)

structure SymbolDirectory where
  symbols_by_locate : ExtTreeMap StockLocate Symbol compare
  requested_symbols : ExtTreeMap Symbol (Option StockLocate) compare
  discovered_requested_symbol_count : UInt64
deriving DecidableEq

namespace SymbolDirectory

-- One iteration of the loop of `create`.
def request (directory : SymbolDirectory) (requested_symbol : Symbol) :
    Result SymbolDirectory :=
  match normalize_requested_symbol requested_symbol with
  | .error error => .error error
  | .ok normalized =>
    .ok { directory with
      requested_symbols := directory.requested_symbols.insertIfNew normalized none }

def create (requested_symbols : List Symbol) : Result SymbolDirectory :=
  requested_symbols.foldlM request
    { symbols_by_locate := ∅, requested_symbols := ∅, discovered_requested_symbol_count := 0 }

def observe (directory : SymbolDirectory) (message : StockDirectory) :
    Result Unit × SymbolDirectory :=
  match normalize_feed_symbol message.stock with
  | .error error => (.error error, directory)
  | .ok normalized =>
    let stock_locate := message.header.stock_locate
    match directory.symbols_by_locate[stock_locate]? with
    | some existing =>
      if existing = normalized then (.ok (), directory)
      else (.error (Error.conflicting_stock_locate stock_locate), directory)
    | none =>
      let symbols_by_locate := directory.symbols_by_locate.insertIfNew stock_locate normalized
      match directory.requested_symbols[normalized]? with
      | none => (.ok (), { directory with symbols_by_locate })
      | some none =>
        (.ok (), {
          symbols_by_locate := symbols_by_locate,
          requested_symbols := directory.requested_symbols.insert normalized stock_locate,
          discovered_requested_symbol_count :=
            directory.discovered_requested_symbol_count + 1 })
      | some (some discovered) =>
        if discovered ≠ stock_locate then
          (.error (Error.conflicting_selected_symbol_locate discovered stock_locate), directory)
        else
          (.ok (), { directory with symbols_by_locate })

def known_locate_count (directory : SymbolDirectory) : Nat :=
  directory.symbols_by_locate.size

def requested_symbol_count (directory : SymbolDirectory) : Nat :=
  directory.requested_symbols.size

def symbol_for (directory : SymbolDirectory) (stock_locate : StockLocate) : Option Symbol :=
  directory.symbols_by_locate[stock_locate]?

def is_known (directory : SymbolDirectory) (stock_locate : StockLocate) : Bool :=
  directory.symbols_by_locate.contains stock_locate

def is_selected (directory : SymbolDirectory) (stock_locate : StockLocate) : Bool :=
  match directory.symbols_by_locate[stock_locate]? with
  | none => false
  | some known => directory.requested_symbols.contains known

def requested_symbol_discovered (directory : SymbolDirectory) (requested_symbol : Symbol) :
    Result Bool :=
  match normalize_requested_symbol requested_symbol with
  | .error error => .error error
  | .ok normalized =>
    match directory.requested_symbols[normalized]? with
    | none => .ok false
    | some discovered => .ok discovered.isSome

def discovered_locate (directory : SymbolDirectory) (requested_symbol : Symbol) :
    Result (Option StockLocate) :=
  match normalize_requested_symbol requested_symbol with
  | .error error => .error error
  | .ok normalized =>
    match directory.requested_symbols[normalized]? with
    | none => .ok none
    | some discovered => .ok discovered

def all_requested_symbols_discovered (directory : SymbolDirectory) : Bool :=
  directory.discovered_requested_symbol_count.toNat = directory.requested_symbols.size

end SymbolDirectory

end AegisFeed
