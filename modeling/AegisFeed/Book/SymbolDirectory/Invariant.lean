import AegisFeed.Book.SymbolDirectory

namespace AegisFeed

open Std

namespace SymbolDirectory

-- A requested symbol is discovered at the locate that maps to it, and at no other.
def Invariant (directory : SymbolDirectory) : Prop :=
  ∀ (symbol : Symbol) (discovered : Option StockLocate),
    directory.requested_symbols[symbol]? = some discovered →
    ∀ stock_locate, directory.symbols_by_locate[stock_locate]? = some symbol ↔
      discovered = some stock_locate

-- The ways `observe` can end.
inductive Observed (directory : SymbolDirectory) (message : StockDirectory) :
    Result Unit × SymbolDirectory → Prop
  | rejected (error : Error) : Observed directory message (.error error, directory)
  | repeated (symbol : Symbol)
      (known : directory.symbols_by_locate[message.header.stock_locate]? = some symbol) :
      Observed directory message (.ok (), directory)
  | mapped (symbol : Symbol)
      (unknown : directory.symbols_by_locate[message.header.stock_locate]? = none)
      (requested : ∀ discovered, directory.requested_symbols[symbol]? = some discovered →
        discovered = some message.header.stock_locate) :
      Observed directory message (.ok (), { directory with
        symbols_by_locate :=
          directory.symbols_by_locate.insert message.header.stock_locate symbol })
  | discovered (symbol : Symbol)
      (unknown : directory.symbols_by_locate[message.header.stock_locate]? = none)
      (requested : directory.requested_symbols[symbol]? = some none) :
      Observed directory message (.ok (), {
        symbols_by_locate :=
          directory.symbols_by_locate.insert message.header.stock_locate symbol,
        requested_symbols :=
          directory.requested_symbols.insert symbol message.header.stock_locate,
        discovered_requested_symbol_count := directory.discovered_requested_symbol_count + 1 })

variable {directory : SymbolDirectory} {message : StockDirectory}

theorem observe_spec (directory : SymbolDirectory) (message : StockDirectory) :
    Observed directory message (directory.observe message) := by
  unfold observe
  cases normalize_feed_symbol message.stock with
  | error error => exact .rejected error
  | ok normalized =>
    dsimp only
    cases hknown : directory.symbols_by_locate[message.header.stock_locate]? with
    | some existing =>
      dsimp only
      split
      · exact .repeated existing hknown
      · exact .rejected _
    | none =>
      dsimp only
      rw [FiniteMap.insertIfNew_of_none _ _ _ hknown]
      cases hrequested : directory.requested_symbols[normalized]? with
      | none =>
        refine .mapped normalized hknown ?_
        rw [hrequested]
        nofun
      | some discovered =>
        cases discovered with
        | none => exact .discovered normalized hknown hrequested
        | some discovered =>
          dsimp only
          split
          · exact .rejected _
          · rename_i heq
            refine .mapped normalized hknown ?_
            intro found hfound
            rw [hrequested, Option.some.injEq] at hfound
            rw [← hfound, not_not.mp heq]

theorem is_known_iff (directory : SymbolDirectory) (stock_locate : StockLocate) :
    directory.is_known stock_locate ↔
      ∃ symbol, directory.symbol_for stock_locate = some symbol := by
  unfold is_known
  rw [ExtTreeMap.contains_iff_mem, FiniteMap.mem_iff_getElem?]
  rfl

theorem is_selected_iff (directory : SymbolDirectory) (stock_locate : StockLocate) :
    directory.is_selected stock_locate ↔ ∃ symbol,
      directory.symbol_for stock_locate = some symbol ∧
        directory.requested_symbols.contains symbol := by
  unfold is_selected symbol_for
  cases directory.symbols_by_locate[stock_locate]? with
  | none => simp
  | some symbol => simp

section Mapping

variable (hinv : directory.Invariant) {stock_locate : StockLocate} {symbol : Symbol}
  (unknown : directory.symbols_by_locate[stock_locate]? = none)

include hinv unknown

-- A symbol that is not requested, or discovered at this locate already.
theorem Invariant.mapped
    (requested : ∀ discovered, directory.requested_symbols[symbol]? = some discovered →
      discovered = some stock_locate) :
    Invariant { directory with
      symbols_by_locate := directory.symbols_by_locate.insert stock_locate symbol } := by
  intro other discovered hother locate
  have hold := hinv other discovered hother locate
  rw [FiniteMap.getElem?_insert]
  by_cases heq : stock_locate = locate
  · subst heq
    rw [unknown] at hold
    rw [if_pos rfl, ← hold]
    simp only [Option.some.injEq, reduceCtorEq, iff_false]
    rintro rfl
    exact absurd (requested discovered hother) fun hd => by simp [hd] at hold
  · rw [if_neg heq]
    exact hold

-- A requested symbol to which nothing was mapped before.
theorem Invariant.discovered (requested : directory.requested_symbols[symbol]? = some none) :
    Invariant {
      symbols_by_locate := directory.symbols_by_locate.insert stock_locate symbol,
      requested_symbols := directory.requested_symbols.insert symbol stock_locate,
      discovered_requested_symbol_count := directory.discovered_requested_symbol_count + 1 } := by
  intro other discovered hother locate
  rw [FiniteMap.getElem?_insert] at hother ⊢
  by_cases hsymbol : symbol = other
  · subst hsymbol
    rw [if_pos rfl, Option.some.injEq] at hother
    subst hother
    have hold := hinv symbol none requested locate
    split_ifs with heq
    · simp [heq]
    · rw [hold, Option.some.injEq]
      simp [heq]
  · rw [if_neg hsymbol] at hother
    have hold := hinv other discovered hother locate
    split_ifs with heq
    · subst heq
      rw [unknown] at hold
      rw [← hold]
      simp [hsymbol]
    · exact hold

end Mapping

section Observed

variable {outcome : Result Unit × SymbolDirectory} (h : Observed directory message outcome)

include h

theorem Observed.error_unchanged {error : Error} (herror : outcome.1 = .error error) :
    outcome.2 = directory := by
  cases h with
  | rejected _ => rfl
  | repeated _ _ => rfl
  | mapped _ _ _ => cases herror
  | discovered _ _ _ => cases herror

-- Requests are made at creation only.
theorem Observed.requested_contains (symbol : Symbol) :
    outcome.2.requested_symbols.contains symbol =
      directory.requested_symbols.contains symbol := by
  cases h with
  | rejected _ => rfl
  | repeated _ _ => rfl
  | mapped _ _ _ => rfl
  | discovered found unknown requested =>
    have hfound : directory.requested_symbols.contains found := by
      rw [ExtTreeMap.contains_iff_mem, FiniteMap.mem_iff_getElem?]
      exact ⟨none, requested⟩
    rw [ExtTreeMap.contains_insert, Bool.or_eq_right_iff_imp]
    intro heq
    rwa [← LawfulEqCmp.compare_eq_iff_eq.mp (beq_iff_eq.mp heq)]

-- Only the locate of the message can be mapped.
theorem Observed.symbol_for_of_ne {stock_locate : StockLocate}
    (hne : stock_locate ≠ message.header.stock_locate) :
    outcome.2.symbol_for stock_locate = directory.symbol_for stock_locate := by
  cases h with
  | rejected _ => rfl
  | repeated _ _ => rfl
  | mapped _ _ _ => exact (FiniteMap.getElem?_insert _ _ _ _).trans (if_neg hne.symm)
  | discovered _ _ _ => exact (FiniteMap.getElem?_insert _ _ _ _).trans (if_neg hne.symm)

-- A locate keeps its symbol.
theorem Observed.symbol_for_mono {stock_locate : StockLocate} {symbol : Symbol}
    (hfound : directory.symbol_for stock_locate = some symbol) :
    outcome.2.symbol_for stock_locate = some symbol := by
  by_cases heq : stock_locate = message.header.stock_locate
  · subst heq
    cases h with
    | rejected _ => exact hfound
    | repeated _ _ => exact hfound
    | mapped _ unknown _ =>
      rw [symbol_for, unknown] at hfound
      cases hfound
    | discovered _ unknown _ =>
      rw [symbol_for, unknown] at hfound
      cases hfound
  · rw [h.symbol_for_of_ne heq]
    exact hfound

theorem Observed.invariant (hinv : directory.Invariant) : outcome.2.Invariant := by
  cases h with
  | rejected _ => exact hinv
  | repeated _ _ => exact hinv
  | mapped _ unknown requested => exact hinv.mapped unknown requested
  | discovered _ unknown requested => exact hinv.discovered unknown requested

theorem Observed.is_known_of_ne {stock_locate : StockLocate}
    (hne : stock_locate ≠ message.header.stock_locate) :
    outcome.2.is_known stock_locate = directory.is_known stock_locate := by
  rw [Bool.eq_iff_iff, is_known_iff, is_known_iff, h.symbol_for_of_ne hne]

theorem Observed.is_selected_of_ne {stock_locate : StockLocate}
    (hne : stock_locate ≠ message.header.stock_locate) :
    outcome.2.is_selected stock_locate = directory.is_selected stock_locate := by
  rw [Bool.eq_iff_iff, is_selected_iff, is_selected_iff, h.symbol_for_of_ne hne]
  simp only [h.requested_contains]

-- A selected locate stays selected.
theorem Observed.is_selected_mono {stock_locate : StockLocate}
    (hselected : directory.is_selected stock_locate) : outcome.2.is_selected stock_locate := by
  obtain ⟨symbol, hsymbol, hrequested⟩ := (is_selected_iff _ _).mp hselected
  refine (is_selected_iff _ _).mpr ⟨symbol, h.symbol_for_mono hsymbol, ?_⟩
  rwa [h.requested_contains]

end Observed

-- Selected locates have different symbols.
theorem Invariant.symbol_for_inj (h : directory.Invariant) {first second : StockLocate}
    {symbol : Symbol} (hfirst : directory.symbol_for first = some symbol)
    (hsecond : directory.symbol_for second = some symbol)
    (hrequested : directory.requested_symbols.contains symbol) : first = second := by
  rw [ExtTreeMap.contains_iff_mem, FiniteMap.mem_iff_getElem?] at hrequested
  obtain ⟨discovered, hdiscovered⟩ := hrequested
  have hf := (h symbol discovered hdiscovered first).mp hfirst
  have hs := (h symbol discovered hdiscovered second).mp hsecond
  exact Option.some.inj (hf.symm.trans hs)

-- What holds of a directory before any message.
structure Fresh (directory : SymbolDirectory) : Prop where
  symbols : directory.symbols_by_locate = ∅
  requested : ∀ (symbol : Symbol) (discovered : Option StockLocate),
    directory.requested_symbols[symbol]? = some discovered → discovered = none

theorem Fresh.request (h : directory.Fresh) {symbol : Symbol} {requested : SymbolDirectory}
    (hok : directory.request symbol = .ok requested) : requested.Fresh := by
  unfold SymbolDirectory.request at hok
  cases hnormal : normalize_requested_symbol symbol with
  | error error =>
    rw [hnormal] at hok
    cases hok
  | ok normalized =>
    rw [hnormal] at hok
    cases hok
    refine ⟨h.symbols, ?_⟩
    intro other discovered hother
    rw [ExtTreeMap.getElem?_insertIfNew] at hother
    split_ifs at hother with hnew
    · exact (Option.some.inj hother).symm
    · exact h.requested other discovered hother

theorem Fresh.requests {start : SymbolDirectory} (h : start.Fresh) (symbols : List Symbol)
    (hok : symbols.foldlM SymbolDirectory.request start = .ok directory) : directory.Fresh := by
  induction symbols generalizing start with
  | nil =>
    cases hok
    exact h
  | cons symbol rest ih =>
    rw [List.foldlM_cons] at hok
    cases hrequest : start.request symbol with
    | error error =>
      rw [hrequest] at hok
      cases hok
    | ok next =>
      rw [hrequest] at hok
      exact ih (h.request hrequest) hok

theorem create_fresh {requested_symbols : List Symbol}
    (hok : create requested_symbols = .ok directory) : directory.Fresh := by
  refine Fresh.requests ⟨rfl, ?_⟩ requested_symbols hok
  intro symbol discovered hfound
  simp at hfound

theorem Fresh.invariant (h : directory.Fresh) : directory.Invariant := by
  intro symbol discovered hfound stock_locate
  rw [h.symbols, h.requested symbol discovered hfound]
  simp

end SymbolDirectory

end AegisFeed
