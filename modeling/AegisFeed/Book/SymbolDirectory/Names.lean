import AegisFeed.Book.SymbolDirectory
import AegisFeed.Library.Fallible
import AegisFeed.Library.Padding

namespace AegisFeed

-- What normalization leaves of a name before it may change the case.
def right_trimmed (symbol : Symbol) : Symbol :=
  symbol.rdropWhile (· = ' '.toUInt8)

-- The stock fields that are accepted as names.
def NamesStock (stock : Symbol) : Prop :=
  0 ∉ stock ∧ ∃ character ∈ stock, character ≠ ' '.toUInt8

-- What holds of every symbol in a directory.
structure Stored (symbol : Symbol) : Prop where
  nonempty : symbol ≠ []
  width : symbol.length ≤ kStockSymbolWidth
  no_null : 0 ∉ symbol
  trimmed : symbol.getLast? ≠ some ' '.toUInt8

section Trimming

theorem right_trimmed_eq (symbol : Symbol) :
    right_trimmed symbol = Padding.trimmed ' '.toUInt8 symbol := rfl

theorem right_trimmed_from_eq (symbol : Symbol) (size : Nat) :
    right_trimmed_from symbol size = Padding.scan ' '.toUInt8 symbol size := by
  induction size with
  | zero => rfl
  | succ size ih => rw [right_trimmed_from, Padding.scan, ih]

theorem take_right_trimmed_size (symbol : Symbol) :
    symbol.take (right_trimmed_size symbol) = right_trimmed symbol := by
  rw [right_trimmed_size, right_trimmed_from_eq, Padding.take_scan_length, right_trimmed_eq]

theorem right_trimmed_size_eq_zero_iff (symbol : Symbol) :
    right_trimmed_size symbol = 0 ↔ right_trimmed symbol = [] := by
  have hle : right_trimmed_size symbol ≤ symbol.length := by
    rw [right_trimmed_size, right_trimmed_from_eq]
    exact Padding.scan_le _ _ _
  rw [← take_right_trimmed_size, ← List.length_eq_zero_iff, List.length_take,
    Nat.min_eq_left hle]

theorem right_trimmed_eq_nil_iff (symbol : Symbol) :
    right_trimmed symbol = [] ↔ ¬∃ character ∈ symbol, character ≠ ' '.toUInt8 :=
  Padding.trimmed_eq_nil_iff _ symbol

theorem right_trimmed_last (symbol : Symbol) :
    (right_trimmed symbol).getLast? ≠ some ' '.toUInt8 := by
  intro hlast
  have hne : right_trimmed symbol ≠ [] := by
    rintro hnil
    rw [hnil] at hlast
    cases hlast
  have hspace := List.rdropWhile_last_not (· = ' '.toUInt8) symbol hne
  rw [List.getLast?_eq_some_getLast hne, Option.some_inj] at hlast
  exact hspace (decide_eq_true hlast)

theorem right_trimmed_prefix (symbol : Symbol) : right_trimmed symbol <+: symbol :=
  Padding.trimmed_prefix _ symbol

theorem NamesStock.stored {stock : Symbol} (h : NamesStock stock)
    (hwidth : stock.length ≤ kStockSymbolWidth) : Stored (right_trimmed stock) := by
  have hinitial := right_trimmed_prefix stock
  refine ⟨?_, hinitial.length_le.trans hwidth, fun hnull => h.1 (hinitial.subset hnull),
    right_trimmed_last stock⟩
  rw [ne_eq, right_trimmed_eq_nil_iff, not_not]
  exact h.2

end Trimming

section Case

def Lowercase (character : UInt8) : Prop :=
  character ≥ 'a'.toUInt8 ∧ character ≤ 'z'.toUInt8

theorem lowercase_iff (character : UInt8) :
    Lowercase character ↔ 97 ≤ character.toNat ∧ character.toNat ≤ 122 := by
  unfold Lowercase
  rw [ge_iff_le, UInt8.le_iff_toNat_le, UInt8.le_iff_toNat_le]
  rfl

theorem toNat_ascii_uppercase {character : UInt8} (hlower : Lowercase character) :
    (ascii_uppercase character).toNat = character.toNat - 32 := by
  obtain ⟨hlow, hhigh⟩ := (lowercase_iff character).mp hlower
  have hshift : ascii_uppercase character = character - 'a'.toUInt8 + 'A'.toUInt8 := if_pos hlower
  rw [hshift, UInt8.toNat_add, UInt8.toNat_sub_of_le _ _ hlower.1]
  have ha : 'a'.toUInt8.toNat = 97 := rfl
  have hA : 'A'.toUInt8.toNat = 65 := rfl
  omega

theorem ascii_uppercase_of_not {character : UInt8} (h : ¬Lowercase character) :
    ascii_uppercase character = character :=
  if_neg h

theorem ascii_uppercase_eq_iff (character : UInt8) {other : UInt8}
    (hother : other.toNat < 65) : ascii_uppercase character = other ↔ character = other := by
  by_cases hlower : Lowercase character
  · have hupper := toNat_ascii_uppercase hlower
    rw [lowercase_iff] at hlower
    rw [← UInt8.toNat_inj, ← UInt8.toNat_inj]
    omega
  · rw [ascii_uppercase_of_not hlower]

theorem right_trimmed_map_uppercase (symbol : Symbol) :
    right_trimmed (symbol.map ascii_uppercase) = (right_trimmed symbol).map ascii_uppercase := by
  unfold right_trimmed List.rdropWhile
  rw [← List.map_reverse, List.dropWhile_map, List.map_reverse]
  congr 3
  funext character
  exact decide_eq_decide.mpr (ascii_uppercase_eq_iff character (by decide))

theorem Stored.map_uppercase {symbol : Symbol} (h : Stored symbol) :
    Stored (symbol.map ascii_uppercase) := by
  refine ⟨?_, ?_, ?_, ?_⟩
  · rw [ne_eq, List.map_eq_nil_iff]
    exact h.nonempty
  · rw [List.length_map]
    exact h.width
  · intro hnull
    obtain ⟨character, hmem, hcharacter⟩ := List.mem_map.mp hnull
    rw [ascii_uppercase_eq_iff character (by decide)] at hcharacter
    exact h.no_null (hcharacter ▸ hmem)
  · intro hlast
    rw [List.getLast?_map, Option.map_eq_some_iff] at hlast
    obtain ⟨character, hmem, hcharacter⟩ := hlast
    rw [ascii_uppercase_eq_iff character (by decide)] at hcharacter
    exact h.trimmed (hcharacter ▸ hmem)

end Case

section Normalization

-- The field of a feed message becomes its name without the spaces on the right.
theorem normalize_feed_symbol_ok_iff (stock : StockSymbol) (symbol : Symbol) :
    normalize_feed_symbol stock = .ok symbol ↔
      NamesStock stock.toList ∧ symbol = right_trimmed stock.toList := by
  unfold normalize_feed_symbol NamesStock
  rw [← not_not (a := ∃ character ∈ stock.toList, character ≠ ' '.toUInt8),
    ← right_trimmed_eq_nil_iff]
  cases hnull : stock.toList.findIdx? (· = 0) with
  | some index =>
    have hmem : (0 : UInt8) ∈ stock.toList := by
      by_contra hn
      have hnone : stock.toList.findIdx? (· = 0) = none := by
        rw [List.findIdx?_eq_none_iff]
        intro character hcharacter
        rw [decide_eq_false_iff_not]
        rintro rfl
        exact hn hcharacter
      rw [hnone] at hnull
      cases hnull
    simp [hmem]
  | none =>
    have hmem : (0 : UInt8) ∉ stock.toList := by
      intro hzero
      have hfalse := List.findIdx?_eq_none_iff.mp hnull 0 hzero
      simp at hfalse
    dsimp only
    rw [take_right_trimmed_size, Fallible.guard_ok_iff, right_trimmed_size_eq_zero_iff,
      Except.ok.injEq]
    constructor
    · rintro ⟨hne, rfl⟩
      exact ⟨⟨hmem, hne⟩, rfl⟩
    · rintro ⟨⟨-, hne⟩, rfl⟩
      exact ⟨hne, rfl⟩

-- A field without a null is rejected only when it is blank.
theorem normalize_feed_symbol_error {stock : StockSymbol} {error : Error}
    (hnull : 0 ∉ stock.toList) (h : normalize_feed_symbol stock = .error error) :
    (∀ character ∈ stock.toList, character = ' '.toUInt8) ∧
      error = Error.invalid_stock_symbol "feed stock symbol is empty after normalization" 0 := by
  have hnone : stock.toList.findIdx? (· = 0) = none := by
    rw [List.findIdx?_eq_none_iff]
    intro character hmem
    rw [decide_eq_false_iff_not]
    rintro rfl
    exact hnull hmem
  unfold normalize_feed_symbol at h
  rw [hnone] at h
  dsimp only at h
  split_ifs at h with hempty
  rw [right_trimmed_size_eq_zero_iff, right_trimmed_eq_nil_iff] at hempty
  cases h
  refine ⟨fun character hmem => ?_, rfl⟩
  by_contra hne
  exact hempty ⟨character, hmem, hne⟩

-- A requested name may be in any case, and need not fill the field.
theorem normalize_requested_symbol_ok_iff (requested symbol : Symbol) :
    normalize_requested_symbol requested = .ok symbol ↔
      requested.length ≤ kStockSymbolWidth ∧ NamesStock requested ∧
        symbol = (right_trimmed requested).map ascii_uppercase := by
  unfold normalize_requested_symbol NamesStock
  rw [Fallible.guard_ok_iff, Fallible.guard_ok_iff]
  dsimp only
  rw [Fallible.guard_ok_iff, right_trimmed_size_eq_zero_iff, right_trimmed_eq_nil_iff, not_not,
    take_right_trimmed_size, Except.ok.injEq, Nat.not_lt, List.contains_iff_mem]
  constructor
  · rintro ⟨hwidth, hnull, hspace, rfl⟩
    exact ⟨hwidth, ⟨hnull, hspace⟩, rfl⟩
  · rintro ⟨hwidth, ⟨hnull, hspace⟩, rfl⟩
    exact ⟨hwidth, hnull, hspace, rfl⟩

end Normalization

end AegisFeed
