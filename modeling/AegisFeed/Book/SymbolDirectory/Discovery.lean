import AegisFeed.Book.SymbolDirectory.Invariant
import AegisFeed.Book.SymbolDirectory.Names
import AegisFeed.Library.Machine
import AegisFeed.Library.Registry
import AegisFeed.Library.Words
import Mathlib.Data.Set.Function

namespace AegisFeed

open Std

-- What a message says: the locate and the name.
def StockDirectory.entry (message : StockDirectory) : StockLocate × Symbol :=
  (message.header.stock_locate, right_trimmed message.stock.toList)

namespace SymbolDirectory

-- What a directory is for: a registry of names by locate, in which a requested name is
-- exclusive.
def registry (directory : SymbolDirectory) : Set (StockLocate × Symbol) :=
  {entry | directory.symbols_by_locate[entry.1]? = some entry.2}

def Requests (directory : SymbolDirectory) (symbol : Symbol) : Prop :=
  directory.requested_symbols.contains symbol

variable {directory : SymbolDirectory} {message : StockDirectory}

theorem mem_registry {locate : StockLocate} {symbol : Symbol} :
    (locate, symbol) ∈ directory.registry ↔ directory.symbols_by_locate[locate]? = some symbol :=
  Iff.rfl

theorem symbols_eq_of_registry {other : SymbolDirectory}
    (hregistry : directory.registry = other.registry) :
    directory.symbols_by_locate = other.symbols_by_locate := by
  apply ExtTreeMap.ext_getElem?
  intro stock_locate
  apply Option.ext
  intro symbol
  rw [← mem_registry, ← mem_registry, hregistry]

theorem requests_iff {symbol : Symbol} : directory.Requests symbol ↔
    ∃ discovered, directory.requested_symbols[symbol]? = some discovered := by
  unfold Requests
  rw [ExtTreeMap.contains_iff_mem, FiniteMap.mem_iff_getElem?]

theorem Invariant.registry_consistent (h : directory.Invariant) :
    Registry.Consistent directory.Requests directory.registry := by
  rintro ⟨locate, symbol⟩ hfirst ⟨other, symbol'⟩ hsecond
  rw [mem_registry] at hfirst hsecond
  refine ⟨?_, ?_⟩
  · rintro rfl
    exact Option.some.inj (hfirst.symm.trans hsecond)
  · rintro rfl hrequested
    exact h.symbol_for_inj hfirst hsecond hrequested

-- A directory with the same symbols that requests more selects more.
theorem is_selected_widen {narrow wide : SymbolDirectory}
    (hsymbols : narrow.symbols_by_locate = wide.symbols_by_locate)
    (hrequests : ∀ symbol, narrow.Requests symbol → wide.Requests symbol)
    {stock_locate : StockLocate} (hselected : narrow.is_selected stock_locate) :
    wide.is_selected stock_locate := by
  obtain ⟨symbol, hsymbol, hrequested⟩ := (is_selected_iff _ _).mp hselected
  unfold symbol_for at hsymbol
  rw [hsymbols] at hsymbol
  exact (is_selected_iff _ _).mpr ⟨symbol, hsymbol, hrequests symbol hrequested⟩

section Registry

variable {locate : StockLocate} {symbol : Symbol}

theorem Invariant.accepts_known_iff (h : directory.Invariant) {existing : Symbol}
    (hknown : directory.symbols_by_locate[locate]? = some existing) :
    Registry.Accepts directory.Requests directory.registry (locate, symbol) ↔
      existing = symbol := by
  constructor
  · intro haccepts
    exact (haccepts (locate, existing) (mem_registry.mpr hknown)).1 rfl
  · rintro rfl other hother
    exact h.registry_consistent other hother _ (mem_registry.mpr hknown)

-- A locate without a symbol may take any that is not discovered elsewhere.
theorem Invariant.accepts_unknown_iff (h : directory.Invariant)
    (hunknown : directory.symbols_by_locate[locate]? = none) :
    Registry.Accepts directory.Requests directory.registry (locate, symbol) ↔
      ∀ discovered, directory.requested_symbols[symbol]? ≠ some (some discovered) := by
  constructor
  · intro haccepts discovered hrequested
    have hmapped := mem_registry.mpr ((h symbol _ hrequested discovered).mpr rfl)
    have heq := (haccepts _ hmapped).2 rfl (requests_iff.mpr ⟨_, hrequested⟩)
    dsimp only at heq
    rw [heq, mem_registry, hunknown] at hmapped
    cases hmapped
  · rintro hnone ⟨other, symbol'⟩ hother
    have hne : other ≠ locate := by
      rintro rfl
      rw [mem_registry, hunknown] at hother
      cases hother
    refine ⟨fun heq => absurd heq hne, ?_⟩
    rintro rfl hrequests
    obtain ⟨discovered, hrequested⟩ := requests_iff.mp hrequests
    rw [(h _ discovered hrequested other).mp hother] at hrequested
    exact absurd hrequested (hnone other)

theorem registry_insertIfNew {other : SymbolDirectory}
    (hunknown : directory.symbols_by_locate[locate]? = none)
    (hother : other.symbols_by_locate = directory.symbols_by_locate.insertIfNew locate symbol) :
    other.registry = insert (locate, symbol) directory.registry := by
  ext ⟨locate', symbol'⟩
  rw [mem_registry, hother, FiniteMap.getElem?_insertIfNew, Set.mem_insert_iff, mem_registry,
    Prod.mk.injEq]
  by_cases hlocate : locate = locate'
  · subst hlocate
    simp [hunknown, eq_comm]
  · simp [hlocate, Ne.symm hlocate]

end Registry

section Observe

-- A message is accepted when its field is a name and the registry accepts the entry.
theorem observe_ok_iff (h : directory.Invariant) (message : StockDirectory) :
    (directory.observe message).1 = .ok () ↔ NamesStock message.stock.toList ∧
      Registry.Accepts directory.Requests directory.registry message.entry := by
  unfold observe
  cases hname : normalize_feed_symbol message.stock with
  | error error =>
    simp only [reduceCtorEq, false_iff, not_and]
    intro hnames
    rw [(normalize_feed_symbol_ok_iff message.stock _).mpr ⟨hnames, rfl⟩] at hname
    cases hname
  | ok symbol =>
    obtain ⟨hnames, rfl⟩ := (normalize_feed_symbol_ok_iff message.stock symbol).mp hname
    simp only [hnames, true_and]
    unfold StockDirectory.entry
    cases hknown : directory.symbols_by_locate[message.header.stock_locate]? with
    | some existing =>
      dsimp only
      rw [h.accepts_known_iff hknown]
      by_cases hsame : existing = right_trimmed message.stock.toList
      · rw [if_pos hsame]
        exact iff_of_true rfl hsame
      · rw [if_neg hsame]
        exact iff_of_false nofun hsame
    | none =>
      rw [h.accepts_unknown_iff hknown]
      cases hrequested : directory.requested_symbols[right_trimmed message.stock.toList]? with
      | none => exact iff_of_true rfl nofun
      | some discovered =>
        cases discovered with
        | none => exact iff_of_true rfl nofun
        | some discovered =>
          -- discovered elsewhere, since this locate has no symbol
          have hmapped := (h _ _ hrequested discovered).mpr rfl
          have hne : discovered ≠ message.header.stock_locate := by
            rintro rfl
            cases hknown.symm.trans hmapped
          dsimp only
          rw [if_pos hne]
          exact iff_of_false nofun fun hnone => hnone discovered rfl

-- An accepted message enters the registry.
theorem observe_registry (hok : (directory.observe message).1 = .ok ()) :
    (directory.observe message).2.registry = insert message.entry directory.registry := by
  unfold observe at hok ⊢
  cases hname : normalize_feed_symbol message.stock with
  | error error =>
    rw [hname] at hok
    cases hok
  | ok symbol =>
    obtain ⟨-, rfl⟩ := (normalize_feed_symbol_ok_iff message.stock symbol).mp hname
    rw [hname] at hok
    dsimp only at hok ⊢
    cases hknown : directory.symbols_by_locate[message.header.stock_locate]? with
    | some existing =>
      rw [hknown] at hok
      dsimp only at hok ⊢
      split_ifs at hok with hsame
      subst hsame
      rw [if_pos rfl]
      exact (Set.insert_eq_of_mem (mem_registry.mpr hknown)).symm
    | none =>
      rw [hknown] at hok
      dsimp only at hok ⊢
      cases hrequested : directory.requested_symbols[right_trimmed message.stock.toList]? with
      | none => exact registry_insertIfNew hknown rfl
      | some discovered =>
        cases discovered with
        | none => exact registry_insertIfNew hknown rfl
        | some discovered =>
          rw [hrequested] at hok
          dsimp only at hok ⊢
          split_ifs at hok with hne
          rw [if_neg hne]
          exact registry_insertIfNew hknown rfl

end Observe

section Create

-- The names that a list of requests asks for.
def normalized (requested : List Symbol) : Set Symbol :=
  {name | ∃ symbol ∈ requested, normalize_requested_symbol symbol = .ok name}

instance (requested : List Symbol) (name : Symbol) : Decidable (name ∈ normalized requested) :=
  inferInstanceAs
    (Decidable (∃ symbol ∈ requested, normalize_requested_symbol symbol = .ok name))

-- What `create` makes of a list of requests.
structure Created (requested : List Symbol) (directory : SymbolDirectory) : Prop where
  accepted : ∀ symbol ∈ requested, ∃ name, normalize_requested_symbol symbol = .ok name
  symbols : directory.symbols_by_locate = ∅
  count : directory.discovered_requested_symbol_count = 0
  requested : ∀ (name : Symbol) (discovered : Option StockLocate),
    directory.requested_symbols[name]? = some discovered ↔
      discovered = none ∧ name ∈ normalized requested

theorem request_ok_iff (directory next : SymbolDirectory) (symbol : Symbol) :
    directory.request symbol = .ok next ↔
      ∃ name, normalize_requested_symbol symbol = .ok name ∧ next = { directory with
        requested_symbols := directory.requested_symbols.insertIfNew name none } := by
  unfold request
  cases normalize_requested_symbol symbol with
  | error error => simp
  | ok name => simp [eq_comm]

theorem normalized_concat {requested : List Symbol} {symbol name : Symbol}
    (hname : normalize_requested_symbol symbol = .ok name) :
    normalized (requested ++ [symbol]) = insert name (normalized requested) := by
  ext other
  constructor
  · rintro ⟨found, hfound, hother⟩
    rcases List.mem_append.mp hfound with hold | hnew
    · exact Or.inr ⟨found, hold, hother⟩
    · rw [List.mem_singleton.mp hnew, hname] at hother
      exact Or.inl (Except.ok.inj hother).symm
  · rintro (rfl | ⟨found, hfound, hother⟩)
    · exact ⟨symbol, List.mem_append_right _ (List.mem_singleton_self _), hname⟩
    · exact ⟨found, List.mem_append_left _ hfound, hother⟩

-- The induction follows the loop: the last request is the last one normalized.
theorem create_created {requested : List Symbol} (hcreate : create requested = .ok directory) :
    Created requested directory := by
  induction requested using List.reverseRecOn generalizing directory with
  | nil =>
    cases hcreate
    refine ⟨nofun, rfl, rfl, ?_⟩
    intro name discovered
    simp [normalized]
  | append_singleton requested symbol ih =>
    unfold create at hcreate ih
    rw [List.foldlM_append, Fallible.bind_eq_ok] at hcreate
    obtain ⟨before, hbefore, hlast⟩ := hcreate
    have hlast : before.request symbol = .ok directory := by simpa using hlast
    obtain ⟨name, hname, rfl⟩ := (request_ok_iff _ _ _).mp hlast
    obtain ⟨haccepted, hsymbols, hcount, hrequested⟩ := ih hbefore
    refine ⟨?_, hsymbols, hcount, ?_⟩
    · intro other hother
      rcases List.mem_append.mp hother with hold | hnew
      · exact haccepted other hold
      · exact ⟨name, by rw [List.mem_singleton.mp hnew, hname]⟩
    · intro other discovered
      rw [normalized_concat hname, Set.mem_insert_iff, FiniteMap.getElem?_insertIfNew]
      split_ifs with hnew
      · simp [hnew.1, eq_comm]
      · rw [hrequested other discovered]
        refine and_congr_right fun _ => ⟨Or.inr, ?_⟩
        rintro (rfl | hother)
        · -- it was requested before
          cases hfound : before.requested_symbols[other]? with
          | none => exact absurd ⟨rfl, hfound⟩ hnew
          | some found => exact ((hrequested other found).mp hfound).2
        · exact hother

theorem create_of_accepted {requested : List Symbol}
    (haccepted : ∀ symbol ∈ requested, ∃ name, normalize_requested_symbol symbol = .ok name) :
    ∃ directory, create requested = .ok directory := by
  unfold create
  generalize SymbolDirectory.mk _ _ _ = start
  induction requested generalizing start with
  | nil => exact ⟨start, rfl⟩
  | cons symbol rest ih =>
    obtain ⟨name, hname⟩ := haccepted symbol List.mem_cons_self
    obtain ⟨directory, hrest⟩ := ih
      (fun other hother => haccepted other (List.mem_cons_of_mem _ hother))
      { start with requested_symbols := start.requested_symbols.insertIfNew name none }
    refine ⟨directory, ?_⟩
    rw [List.foldlM_cons, (request_ok_iff start _ symbol).mpr ⟨name, hname, rfl⟩]
    exact hrest

theorem Created.requests_iff {requested : List Symbol} (h : Created requested directory)
    (name : Symbol) : directory.Requests name ↔ name ∈ normalized requested := by
  rw [SymbolDirectory.requests_iff]
  simp only [h.requested, exists_eq_left]

end Create

section Accurate

-- The number of the requested symbols that have a locate.
def discovered_count (directory : SymbolDirectory) : Nat :=
  directory.requested_symbols.toList.countP fun entry => entry.2.isSome

def discovery (discovered : Option StockLocate) : Nat :=
  if discovered.isSome then 1 else 0

-- The invariant with the counter and the symbols.
structure Accurate (directory : SymbolDirectory) : Prop where
  mapping : directory.Invariant
  count : directory.discovered_requested_symbol_count.toNat = directory.discovered_count
  known : ∀ (stock_locate : StockLocate) (symbol : Symbol),
    directory.symbols_by_locate[stock_locate]? = some symbol → Stored symbol
  requested : ∀ symbol, directory.Requests symbol → Stored symbol

theorem discovered_count_eq (directory : SymbolDirectory) :
    directory.discovered_count = FiniteMap.total discovery directory.requested_symbols :=
  (FiniteMap.total_indicator Option.isSome directory.requested_symbols).symm

-- The locates of the discovered symbols.
def discovered_locates (directory : SymbolDirectory) : List StockLocate :=
  directory.requested_symbols.toList.filterMap Prod.snd

theorem length_discovered_locates (directory : SymbolDirectory) :
    directory.discovered_locates.length = directory.discovered_count :=
  List.length_filterMap_eq_countP

theorem mem_discovered_locates {stock_locate : StockLocate} :
    stock_locate ∈ directory.discovered_locates ↔
      ∃ symbol : Symbol, directory.requested_symbols[symbol]? = some (some stock_locate) := by
  unfold discovered_locates
  simp only [List.mem_filterMap, Prod.exists, exists_eq_right,
    ExtTreeMap.mem_toList_iff_getElem?_eq_some]

-- Discovered symbols have locates of their own, and there are no more than 2^16 of these.
theorem Invariant.discovered_locates_nodup (h : directory.Invariant) :
    directory.discovered_locates.Nodup := by
  refine List.pairwise_filterMap.mpr ((FiniteMap.toList_nodup _).imp_of_mem ?_)
  rintro ⟨first, found⟩ ⟨second, found'⟩ hfirst hsecond hne locate hlocate _ hlocate' rfl
  rw [ExtTreeMap.mem_toList_iff_getElem?_eq_some] at hfirst hsecond
  have hmapped := (h first found hfirst locate).mpr hlocate
  have hmapped' := (h second found' hsecond locate).mpr hlocate'
  have hsymbol : first = second := Option.some.inj (hmapped.symm.trans hmapped')
  have hfound : found = found' := hlocate.trans hlocate'.symm
  exact hne (by rw [hsymbol, hfound])

theorem Invariant.discovered_count_le (h : directory.Invariant) :
    directory.discovered_count ≤ 2 ^ 16 := by
  rw [← length_discovered_locates]
  exact Words.length_le_of_nodup (fun _ _ => UInt16.toNat_inj.mp) h.discovered_locates_nodup
    fun locate _ => locate.toNat_lt

theorem Created.accurate {requested : List Symbol} (h : Created requested directory) :
    directory.Accurate := by
  refine ⟨?_, ?_, ?_, ?_⟩
  · intro name discovered hfound stock_locate
    rw [h.symbols, ((h.requested name discovered).mp hfound).1]
    simp
  · have hnone : ¬0 < FiniteMap.total discovery directory.requested_symbols := by
      rw [FiniteMap.total_pos_iff]
      rintro ⟨name, discovered, hfound, hpositive⟩
      rw [((h.requested name discovered).mp hfound).1] at hpositive
      cases hpositive
    rw [discovered_count_eq, h.count]
    exact (Nat.eq_zero_of_not_pos hnone).symm
  · intro stock_locate symbol hfound
    rw [h.symbols] at hfound
    simp at hfound
  · intro name hrequested
    obtain ⟨symbol, -, hname⟩ := (h.requests_iff name).mp hrequested
    obtain ⟨hwidth, hnames, rfl⟩ := (normalize_requested_symbol_ok_iff symbol name).mp hname
    exact (hnames.stored hwidth).map_uppercase

theorem observe_requests (directory : SymbolDirectory) (message : StockDirectory)
    (symbol : Symbol) : (directory.observe message).2.Requests symbol ↔
      directory.Requests symbol := by
  unfold Requests
  rw [(observe_spec directory message).requested_contains]

theorem observe_error_unchanged (hfails : (directory.observe message).1 ≠ .ok ()) :
    (directory.observe message).2 = directory := by
  cases hresult : (directory.observe message).1 with
  | error error => exact (observe_spec directory message).error_unchanged hresult
  | ok _ => exact absurd hresult hfails

theorem Accurate.observe (h : directory.Accurate) (message : StockDirectory) :
    (directory.observe message).2.Accurate := by
  refine ⟨(observe_spec directory message).invariant h.mapping, ?_, ?_, ?_⟩
  · have hle := h.mapping.discovered_count_le
    have hcount := h.count
    have hobserved := observe_spec directory message
    rw [discovered_count_eq] at *
    generalize directory.observe message = outcome at hobserved
    cases hobserved with
    | rejected _ => exact hcount
    | repeated _ _ => exact hcount
    | mapped _ _ _ => exact hcount
    | discovered symbol _ requested =>
      have htotal := FiniteMap.total_replace discovery _ _ _
        (some message.header.stock_locate) requested
      simp only [discovery, Option.isSome_none, Option.isSome_some, if_true,
        Bool.false_eq_true, if_false, Nat.add_zero] at htotal
      show (directory.discovered_requested_symbol_count + 1).toNat = _
      rw [Words.toNat_add64 (by rw [UInt64.toNat_one]; omega), UInt64.toNat_one, hcount]
      exact htotal.symm
  · by_cases hok : (directory.observe message).1 = .ok ()
    · intro stock_locate symbol hfound
      have hmem := mem_registry.mpr hfound
      rw [observe_registry hok] at hmem
      rcases hmem with hnew | hold
      · obtain ⟨hnames, -⟩ := (observe_ok_iff h.mapping message).mp hok
        obtain ⟨-, rfl⟩ := Prod.mk.inj hnew
        exact hnames.stored (by rw [Vector.length_toList]; decide)
      · exact h.known stock_locate symbol hold
    · rw [observe_error_unchanged hok]
      exact h.known
  · intro symbol hrequested
    exact h.requested symbol ((observe_requests directory message symbol).mp hrequested)

end Accurate

section Runs

-- What no message takes back.
structure WriteOnce (before after : SymbolDirectory) : Prop where
  symbols : ∀ (stock_locate : StockLocate) (symbol : Symbol),
    before.symbols_by_locate[stock_locate]? = some symbol →
      after.symbols_by_locate[stock_locate]? = some symbol
  discovered : ∀ (symbol : Symbol) (stock_locate : StockLocate),
    before.requested_symbols[symbol]? = some (some stock_locate) →
      after.requested_symbols[symbol]? = some (some stock_locate)

theorem WriteOnce.refl (directory : SymbolDirectory) : WriteOnce directory directory :=
  ⟨fun _ _ => id, fun _ _ => id⟩

theorem WriteOnce.trans {first second third : SymbolDirectory} (h : WriteOnce first second)
    (h' : WriteOnce second third) : WriteOnce first third :=
  ⟨fun locate symbol hfound => h'.symbols locate symbol (h.symbols locate symbol hfound),
    fun symbol locate hfound => h'.discovered symbol locate (h.discovered symbol locate hfound)⟩

theorem observe_writeOnce (directory : SymbolDirectory) (message : StockDirectory) :
    WriteOnce directory (directory.observe message).2 := by
  have hobserved := observe_spec directory message
  refine ⟨fun _ _ => hobserved.symbol_for_mono, ?_⟩
  intro symbol stock_locate hfound
  generalize directory.observe message = outcome at hobserved
  cases hobserved with
  | rejected _ => exact hfound
  | repeated _ _ => exact hfound
  | mapped _ _ _ => exact hfound
  | discovered new _ requested =>
    have hne : new ≠ symbol := by
      rintro rfl
      rw [requested] at hfound
      cases hfound
    exact (FiniteMap.getElem?_insert _ _ _ _).trans ((if_neg hne).trans hfound)

theorem run_writeOnce (directory : SymbolDirectory) (messages : List StockDirectory) :
    WriteOnce directory (Machine.run observe directory messages) := by
  induction messages generalizing directory with
  | nil => exact .refl directory
  | cons message rest ih => exact (observe_writeOnce directory message).trans (ih _)

theorem Accurate.run (h : directory.Accurate) (messages : List StockDirectory) :
    (Machine.run SymbolDirectory.observe directory messages).Accurate :=
  Machine.run_invariant SymbolDirectory.observe Accurate
    (fun _ message haccurate => haccurate.observe message) directory h messages

theorem run_requests (directory : SymbolDirectory) (messages : List StockDirectory)
    (symbol : Symbol) : (Machine.run observe directory messages).Requests symbol ↔
      directory.Requests symbol := by
  induction messages generalizing directory with
  | nil => exact Iff.rfl
  | cons message rest ih => exact (ih _).trans (observe_requests directory message symbol)

-- What the two maps and the counter of a directory say of each other.
structure Coherent (directory : SymbolDirectory) : Prop where
  discovered_known : ∀ (symbol : Symbol) (stock_locate : StockLocate),
    directory.requested_symbols[symbol]? = some (some stock_locate) →
      directory.symbols_by_locate[stock_locate]? = some symbol
  known_discovered : ∀ (stock_locate : StockLocate) (symbol : Symbol),
    directory.symbols_by_locate[stock_locate]? = some symbol →
      directory.requested_symbols.contains symbol →
        directory.requested_symbols[symbol]? = some (some stock_locate)
  bijection : Set.BijOn (fun stock_locate => directory.symbols_by_locate[stock_locate]?)
    {stock_locate | directory.is_selected stock_locate}
    {found | ∃ symbol stock_locate, found = some symbol ∧
      directory.requested_symbols[symbol]? = some (some stock_locate)}
  count : directory.discovered_requested_symbol_count.toNat = directory.discovered_count
  all_discovered : directory.all_requested_symbols_discovered ↔
    ∀ (symbol : Symbol) (discovered : Option StockLocate),
      directory.requested_symbols[symbol]? = some discovered →
        ∃ stock_locate, discovered = some stock_locate
  known_stored : ∀ (stock_locate : StockLocate) (symbol : Symbol),
    directory.symbols_by_locate[stock_locate]? = some symbol → Stored symbol
  requested_stored : ∀ symbol, directory.requested_symbols.contains symbol → Stored symbol

theorem Invariant.known_discovered (h : directory.Invariant) {stock_locate : StockLocate}
    {symbol : Symbol} (hknown : directory.symbols_by_locate[stock_locate]? = some symbol)
    (hrequested : directory.Requests symbol) :
    directory.requested_symbols[symbol]? = some (some stock_locate) := by
  obtain ⟨discovered, hdiscovered⟩ := requests_iff.mp hrequested
  rw [hdiscovered, (h symbol discovered hdiscovered stock_locate).mp hknown]

theorem Invariant.mem_discovered_locates_iff (h : directory.Invariant)
    (stock_locate : StockLocate) :
    stock_locate ∈ directory.discovered_locates ↔ directory.is_selected stock_locate := by
  rw [mem_discovered_locates, is_selected_iff]
  constructor
  · rintro ⟨symbol, hdiscovered⟩
    have hknown := (h symbol _ hdiscovered stock_locate).mpr rfl
    exact ⟨symbol, hknown, requests_iff.mpr ⟨_, hdiscovered⟩⟩
  · rintro ⟨symbol, hknown, hrequested⟩
    exact ⟨symbol, h.known_discovered hknown hrequested⟩

theorem Invariant.bijection (h : directory.Invariant) :
    Set.BijOn (fun stock_locate => directory.symbols_by_locate[stock_locate]?)
      {stock_locate | directory.is_selected stock_locate}
      {found | ∃ symbol stock_locate, found = some symbol ∧
        directory.requested_symbols[symbol]? = some (some stock_locate)} := by
  refine ⟨?_, ?_, ?_⟩
  · intro stock_locate hselected
    obtain ⟨symbol, hknown, hrequested⟩ := (is_selected_iff directory stock_locate).mp hselected
    exact ⟨symbol, stock_locate, hknown, h.known_discovered hknown hrequested⟩
  · intro first hfirst second _ heq
    obtain ⟨symbol, hknown, hrequested⟩ := (is_selected_iff directory first).mp hfirst
    exact h.symbol_for_inj hknown (heq.symm.trans hknown) hrequested
  · rintro _ ⟨symbol, stock_locate, rfl, hdiscovered⟩
    have hknown := (h symbol _ hdiscovered stock_locate).mpr rfl
    refine ⟨stock_locate, (is_selected_iff directory stock_locate).mpr ⟨symbol, hknown, ?_⟩,
      hknown⟩
    exact requests_iff.mpr ⟨_, hdiscovered⟩

theorem Accurate.all_discovered_iff (h : directory.Accurate) :
    directory.all_requested_symbols_discovered ↔
      ∀ (symbol : Symbol) (discovered : Option StockLocate),
        directory.requested_symbols[symbol]? = some discovered →
          ∃ stock_locate, discovered = some stock_locate := by
  unfold all_requested_symbols_discovered
  rw [decide_eq_true_iff, h.count, ← ExtTreeMap.length_toList]
  unfold discovered_count
  rw [List.countP_eq_length]
  simp only [Prod.forall, ExtTreeMap.mem_toList_iff_getElem?_eq_some, Option.isSome_iff_exists]

theorem Accurate.coherence (h : directory.Accurate) : directory.Coherent :=
  { discovered_known := fun symbol _ hdiscovered => (h.mapping symbol _ hdiscovered _).mpr rfl,
    known_discovered := fun _ _ hknown hrequested => h.mapping.known_discovered hknown hrequested,
    bijection := h.mapping.bijection,
    count := h.count,
    all_discovered := h.all_discovered_iff,
    known_stored := h.known,
    requested_stored := h.requested }

-- After any messages a directory is coherent, and further messages only add to it.
theorem run_coherent {requested : List Symbol} (hcreate : create requested = .ok directory)
    (first second : List StockDirectory) :
    let before := Machine.run observe directory first
    (Machine.run observe before second).Coherent ∧
      WriteOnce before (Machine.run observe before second) :=
  ⟨((create_created hcreate).accurate.run first |>.run second).coherence, run_writeOnce _ second⟩

end Runs

-- A stock that was requested in lower case with a space, listed at one locate.
def sampleMessage (stock_locate : StockLocate) : StockDirectory :=
  { header := { type := 'R'.toUInt8, stock_locate, tracking_number := 0, timestamp_ns := 0 },
    stock := #v['Q'.toUInt8, 32, 32, 32, 32, 32, 32, 32],
    market_category := .NasdaqGlobalSelect,
    financial_status_indicator := .Normal,
    round_lot_size := 100,
    round_lots_only := .No,
    issue_classification := 'C'.toUInt8,
    issue_subtype := #v['Q'.toUInt8, ' '.toUInt8],
    authenticity := .Production,
    short_sale_threshold_indicator := .NotRestricted,
    ipo_flag := .NotIpo,
    luld_reference_price_tier := .TierOne,
    etp_flag := .NotEtp,
    etp_leverage_factor := 0,
    inverse_indicator := .NotInverse }

def sampleRequested : SymbolDirectory :=
  { symbols_by_locate := ∅,
    requested_symbols :=
      (∅ : ExtTreeMap Symbol (Option StockLocate) compare).insertIfNew ['Q'.toUInt8] none,
    discovered_requested_symbol_count := 0 }

theorem sampleRequested_created :
    create [['q'.toUInt8, ' '.toUInt8]] = .ok sampleRequested := by
  rfl

theorem sampleRequested_coherent :
    (Machine.run observe (Machine.run observe sampleRequested [sampleMessage 7])
      [sampleMessage 7, sampleMessage 8]).Coherent :=
  (run_coherent sampleRequested_created [sampleMessage 7] [sampleMessage 7, sampleMessage 8]).1

end SymbolDirectory

end AegisFeed
