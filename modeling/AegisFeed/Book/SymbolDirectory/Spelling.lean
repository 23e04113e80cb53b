import AegisFeed.Book.SymbolDirectory.Discovery

namespace AegisFeed

open Std

-- The feed keeps the case of its names, a request is compared in upper case.
def HasLowercase (symbol : Symbol) : Prop :=
  ∃ character ∈ symbol, Lowercase character

section Case

theorem not_lowercase_ascii_uppercase (character : UInt8) :
    ¬Lowercase (ascii_uppercase character) := by
  by_cases hlower : Lowercase character
  · have hupper := toNat_ascii_uppercase hlower
    rw [lowercase_iff] at hlower ⊢
    omega
  · rwa [ascii_uppercase_of_not hlower]

theorem not_hasLowercase_uppercase (symbol : Symbol) :
    ¬HasLowercase (symbol.map ascii_uppercase) := by
  rintro ⟨_, hmem, hlower⟩
  obtain ⟨character, -, rfl⟩ := List.mem_map.mp hmem
  exact not_lowercase_ascii_uppercase character hlower

theorem uppercase_of_not_hasLowercase {symbol : Symbol} (h : ¬HasLowercase symbol) :
    symbol.map ascii_uppercase = symbol := by
  refine (List.map_congr_left fun character hmem => ?_).trans (List.map_id symbol)
  exact ascii_uppercase_of_not fun hlower => h ⟨character, hmem, hlower⟩

end Case

section Names

theorem right_trimmed_right_trimmed (symbol : Symbol) :
    right_trimmed (right_trimmed symbol) = right_trimmed symbol :=
  Padding.trimmed_trimmed _ symbol

theorem NamesStock.trimmed {stock : Symbol} (h : NamesStock stock) :
    NamesStock (right_trimmed stock) := by
  have hinitial := right_trimmed_prefix stock
  have htrimmed := right_trimmed_right_trimmed stock
  refine ⟨fun hnull => h.1 (hinitial.subset hnull), ?_⟩
  rw [← not_not (a := ∃ character ∈ _, _), ← right_trimmed_eq_nil_iff, htrimmed,
    right_trimmed_eq_nil_iff, not_not]
  exact h.2

-- The name of a field of the feed can be requested.
theorem normalize_feed_name {stock : StockSymbol} {symbol : Symbol}
    (hfeed : normalize_feed_symbol stock = .ok symbol) :
    normalize_requested_symbol symbol = .ok (symbol.map ascii_uppercase) := by
  obtain ⟨hnames, rfl⟩ := (normalize_feed_symbol_ok_iff stock symbol).mp hfeed
  have hwidth : stock.toList.length ≤ kStockSymbolWidth := by
    rw [Vector.length_toList]
    exact Nat.le_refl _
  refine (normalize_requested_symbol_ok_iff _ _).mpr
    ⟨(hnames.stored hwidth).width, hnames.trimmed, ?_⟩
  rw [right_trimmed_right_trimmed]

end Names

namespace SymbolDirectory

variable {directory : SymbolDirectory} {message : StockDirectory}

section Queries

variable {symbol name : Symbol} (hname : normalize_requested_symbol symbol = .ok name)

include hname

theorem requested_symbol_discovered_eq : directory.requested_symbol_discovered symbol =
    .ok ((directory.requested_symbols[name]?.join).isSome) := by
  unfold requested_symbol_discovered
  rw [hname]
  cases hfound : directory.requested_symbols[name]? with
  | none => simp only [hfound, Option.join_none, Option.isSome_none]
  | some discovered => simp only [hfound, Option.join_some]

theorem discovered_locate_eq :
    directory.discovered_locate symbol = .ok directory.requested_symbols[name]?.join := by
  unfold discovered_locate
  rw [hname]
  cases hfound : directory.requested_symbols[name]? with
  | none => simp only [hfound, Option.join_none]
  | some discovered => simp only [hfound, Option.join_some]

end Queries

section Unseen

variable (hok : (directory.observe message).1 = .ok ())

include hok

theorem observe_symbol_for : (directory.observe message).2.symbol_for message.header.stock_locate =
    some (right_trimmed message.stock.toList) := by
  have hmem : message.entry ∈ (directory.observe message).2.registry := by
    rw [observe_registry hok]
    exact Set.mem_insert _ _
  exact hmem

theorem observe_is_selected_iff :
    (directory.observe message).2.is_selected message.header.stock_locate ↔
      directory.Requests (right_trimmed message.stock.toList) := by
  rw [is_selected_iff, observe_symbol_for hok, ← observe_requests directory message]
  simp only [Option.some.injEq, exists_eq_left']
  rfl

-- A message for a name that is not requested leaves the requests as they are.
theorem observe_requested_symbols
    (hother : ¬directory.Requests (right_trimmed message.stock.toList)) :
    (directory.observe message).2.requested_symbols = directory.requested_symbols := by
  have hspec := observe_spec directory message
  have hsymbol := observe_symbol_for hok
  generalize directory.observe message = outcome at hspec hsymbol
  cases hspec with
  | rejected _ => rfl
  | repeated _ _ => rfl
  | mapped _ _ _ => rfl
  | discovered symbol _ requested =>
    have heq : some symbol = some (right_trimmed message.stock.toList) := by
      rw [← hsymbol]
      exact ((FiniteMap.getElem?_insert _ _ _ _).trans (if_pos rfl)).symm
    cases heq
    exact absurd (requests_iff.mpr ⟨none, requested⟩) hother

theorem Invariant.observe_discovered (h : directory.Invariant)
    (hrequests : directory.Requests (right_trimmed message.stock.toList)) :
    (directory.observe message).2.requested_symbols[right_trimmed message.stock.toList]? =
      some (some message.header.stock_locate) := by
  have hinv : (directory.observe message).2.Invariant :=
    (observe_spec directory message).invariant h
  exact hinv.known_discovered (observe_symbol_for hok)
    ((observe_requests directory message _).mpr hrequests)

end Unseen

-- A requested list with the spelling of the feed asks for that name only in upper case.
theorem Created.requests_spelling_iff {requested : List Symbol} (h : Created requested directory)
    {symbol : Symbol} (hmem : symbol ∈ requested)
    (hname : normalize_requested_symbol symbol = .ok (symbol.map ascii_uppercase)) :
    directory.Requests symbol ↔ ¬HasLowercase symbol := by
  rw [h.requests_iff]
  constructor
  · rintro ⟨other, -, hother⟩
    obtain ⟨-, -, rfl⟩ := (normalize_requested_symbol_ok_iff other symbol).mp hother
    exact not_hasLowercase_uppercase _
  · intro hupper
    rw [uppercase_of_not_hasLowercase hupper] at hname
    exact ⟨symbol, hmem, hname⟩

-- Requesting a name as the feed spells it selects it exactly when it has no lowercase letter;
-- with one, the message discovers nothing.
theorem run_feed_spelling :
    (∀ (stock : StockSymbol) (symbol : Symbol), normalize_feed_symbol stock = .ok symbol →
      normalize_requested_symbol symbol = .ok (symbol.map ascii_uppercase)) ∧
    ∀ (requested : List Symbol) (directory : SymbolDirectory) (messages : List StockDirectory)
      (message : StockDirectory) (symbol : Symbol),
      create requested = .ok directory → symbol ∈ requested →
      normalize_feed_symbol message.stock = .ok symbol →
      let before := Machine.run observe directory messages
      let after := (before.observe message).2
      ¬before.is_known message.header.stock_locate → (before.observe message).1 = .ok () →
      (¬HasLowercase symbol → after.is_selected message.header.stock_locate ∧
        after.requested_symbol_discovered symbol = .ok true ∧
        after.discovered_locate symbol = .ok (some message.header.stock_locate)) ∧
      (HasLowercase symbol → ¬after.is_selected message.header.stock_locate ∧
        after.requested_symbol_discovered symbol = before.requested_symbol_discovered symbol ∧
        after.discovered_locate symbol = before.discovered_locate symbol ∧
        after.discovered_locate symbol ≠ .ok (some message.header.stock_locate)) := by
  refine ⟨fun _ _ => normalize_feed_name, ?_⟩
  intro requested directory messages message symbol hcreate hmem hfeed before after hunseen hok
  have hname := normalize_feed_name hfeed
  obtain ⟨-, hsymbol⟩ := (normalize_feed_symbol_ok_iff _ _).mp hfeed
  have hcreated := create_created hcreate
  have haccurate : before.Accurate := hcreated.accurate.run messages
  have hrequests : before.Requests symbol ↔ ¬HasLowercase symbol :=
    (run_requests directory messages symbol).trans (hcreated.requests_spelling_iff hmem hname)
  have hselected := observe_is_selected_iff hok
  rw [← hsymbol] at hselected
  refine ⟨fun hupper => ?_, fun hlower => ?_⟩
  · have hrequested := hrequests.mpr hupper
    have hdiscovered := haccurate.mapping.observe_discovered hok (hsymbol ▸ hrequested)
    rw [← hsymbol] at hdiscovered
    rw [uppercase_of_not_hasLowercase hupper] at hname
    refine ⟨hselected.mpr hrequested, ?_, ?_⟩
    · rw [requested_symbol_discovered_eq hname, hdiscovered, Option.join_some, Option.isSome_some]
    · rw [discovered_locate_eq hname, hdiscovered, Option.join_some]
  · have hother : ¬before.Requests symbol := fun hrequested => hrequests.mp hrequested hlower
    have hsame := observe_requested_symbols hok (hsymbol ▸ hother)
    have hlocate : after.discovered_locate symbol = before.discovered_locate symbol := by
      rw [discovered_locate_eq hname, discovered_locate_eq hname, hsame]
    refine ⟨fun hafter => hother (hselected.mp hafter), ?_, hlocate, ?_⟩
    · rw [requested_symbol_discovered_eq hname, requested_symbol_discovered_eq hname, hsame]
    · -- a discovered locate is known
      rw [hlocate, discovered_locate_eq hname, ne_eq, Except.ok.injEq, Option.join_eq_some_iff]
      intro hdiscovered
      have hknown := (haccurate.mapping _ _ hdiscovered _).mpr rfl
      exact hunseen ((is_known_iff _ _).mpr ⟨_, hknown⟩)

-- The feed lists a name with a lowercase letter, and the request spells it the same.
def sampleSpelling : Symbol := ['A'.toUInt8, 'b'.toUInt8, 'C'.toUInt8]

def sampleSpelled : StockDirectory :=
  { sampleMessage 7 with stock := #v['A'.toUInt8, 'b'.toUInt8, 'C'.toUInt8, 32, 32, 32, 32, 32] }

theorem sampleSpelled_unselected :
    ¬(∀ (requested : List Symbol) (directory : SymbolDirectory) (message : StockDirectory)
      (symbol : Symbol), create requested = .ok directory → symbol ∈ requested →
      normalize_feed_symbol message.stock = .ok symbol →
      ¬directory.is_known message.header.stock_locate →
      (directory.observe message).1 = .ok () →
      (directory.observe message).2.is_selected message.header.stock_locate ∧
      (directory.observe message).2.requested_symbol_discovered symbol = .ok true ∧
      (directory.observe message).2.discovered_locate symbol =
        .ok (some message.header.stock_locate)) := by
  intro hselects
  have hselected := (hselects [sampleSpelling] _ sampleSpelled sampleSpelling rfl
    (List.mem_singleton_self _) rfl (by decide) rfl).1
  revert hselected
  decide

end SymbolDirectory

end AegisFeed
