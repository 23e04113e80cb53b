import AegisFeed.Book.SymbolDirectory.Discovery

namespace AegisFeed

open Std

namespace SymbolDirectory

variable {directory : SymbolDirectory}

section Order

def AllAccepted (directory : SymbolDirectory) (messages : List StockDirectory) : Prop :=
  ∀ entry ∈ Machine.transcript observe directory messages, entry.2 = .ok ()

-- The pairs of a locate and a name that messages carry.
def entries (messages : List StockDirectory) : Set (StockLocate × Symbol) :=
  {entry | ∃ message ∈ messages, message.entry = entry}

theorem allAccepted_cons {message : StockDirectory} {rest : List StockDirectory} :
    AllAccepted directory (message :: rest) ↔
      (directory.observe message).1 = .ok () ∧ AllAccepted (directory.observe message).2 rest :=
  List.forall_mem_cons

-- The checks of the directory are those of its registry. The registry grows by what each
-- message carries, and the requests stay.
theorem allAccepted_iff (h : directory.Invariant) (messages : List StockDirectory) :
    AllAccepted directory messages ↔
      (∀ message ∈ messages, NamesStock message.stock.toList) ∧
      Registry.AcceptsAll directory.Requests directory.registry
        (messages.map StockDirectory.entry) := by
  induction messages generalizing directory with
  | nil => exact iff_of_true (List.forall_mem_nil _) ⟨List.forall_mem_nil _, trivial⟩
  | cons message rest ih =>
    have hrequests : (directory.observe message).2.Requests = directory.Requests :=
      funext fun symbol => propext (observe_requests directory message symbol)
    have hrest := ih ((observe_spec directory message).invariant h)
    rw [hrequests] at hrest
    rw [allAccepted_cons, hrest, observe_ok_iff h, List.forall_mem_cons, List.map_cons,
      Registry.AcceptsAll]
    constructor
    · rintro ⟨⟨hnames, haccepts⟩, hnamesRest, hacceptsRest⟩
      rw [observe_registry ((observe_ok_iff h message).mpr ⟨hnames, haccepts⟩)] at hacceptsRest
      exact ⟨⟨hnames, hnamesRest⟩, haccepts, hacceptsRest⟩
    · rintro ⟨⟨hnames, hnamesRest⟩, haccepts, hacceptsRest⟩
      rw [observe_registry ((observe_ok_iff h message).mpr ⟨hnames, haccepts⟩)]
      exact ⟨⟨hnames, haccepts⟩, hnamesRest, hacceptsRest⟩

theorem run_registry {messages : List StockDirectory}
    (haccepted : AllAccepted directory messages) :
    (Machine.run observe directory messages).registry =
      directory.registry ∪ entries messages := by
  induction messages generalizing directory with
  | nil => simp [entries]
  | cons message rest ih =>
    obtain ⟨hok, hrest⟩ := allAccepted_cons.mp haccepted
    rw [Machine.run_cons, ih hrest, observe_registry hok]
    ext entry
    simp [entries, or_assoc, or_left_comm, eq_comm]

-- A directory is what its registry and its requests make it.
theorem Accurate.ext {other : SymbolDirectory} (h : directory.Accurate) (h' : other.Accurate)
    (hregistry : directory.registry = other.registry)
    (hrequests : ∀ symbol, directory.Requests symbol ↔ other.Requests symbol) :
    directory = other := by
  have hsymbols := symbols_eq_of_registry hregistry
  have hrequested : directory.requested_symbols = other.requested_symbols := by
    apply ExtTreeMap.ext_getElem?
    intro symbol
    have hkeys := hrequests symbol
    rw [requests_iff, requests_iff] at hkeys
    cases hfound : directory.requested_symbols[symbol]? with
    | none =>
      rw [hfound] at hkeys
      exact (Option.eq_none_iff_forall_ne_some.mpr fun discovered hother =>
        nomatch hkeys.mpr ⟨discovered, hother⟩).symm
    | some discovered =>
      obtain ⟨discovered', hother⟩ := hkeys.mp ⟨discovered, hfound⟩
      rw [hother]
      congr 1
      apply Option.ext
      intro stock_locate
      rw [← h.mapping symbol discovered hfound, ← h'.mapping symbol discovered' hother, hsymbols]
  have hcount : directory.discovered_requested_symbol_count =
      other.discovered_requested_symbol_count := by
    rw [← UInt64.toNat_inj, h.count, h'.count]
    unfold discovered_count
    rw [hrequested]
  rcases directory with ⟨symbols, requested, count⟩
  rcases other with ⟨symbols', requested', count'⟩
  simp only at hsymbols hrequested hcount
  rw [hsymbols, hrequested, hcount]

theorem Created.unique {requested requested' : List Symbol} {other : SymbolDirectory}
    (h : Created requested directory) (h' : Created requested' other)
    (hsame : normalized requested = normalized requested') : directory = other := by
  refine h.accurate.ext h'.accurate ?_ ?_
  · unfold registry
    rw [h.symbols, h'.symbols]
  · intro name
    rw [h.requests_iff, h'.requests_iff, hsame]

-- Messages accepted from the start leave a directory that depends on what they carry and
-- on the requested names only.
theorem Created.run_eq {requested requested' : List Symbol} {other : SymbolDirectory}
    (h : Created requested directory) (h' : Created requested' other)
    (hsame : normalized requested = normalized requested')
    {messages messages' : List StockDirectory} (haccepted : AllAccepted directory messages)
    (haccepted' : AllAccepted other messages') (hentries : entries messages = entries messages') :
    Machine.run observe directory messages = Machine.run observe other messages' := by
  obtain rfl := h.unique h' hsame
  refine (h.accurate.run messages).ext (h.accurate.run messages') ?_ ?_
  · rw [run_registry haccepted, run_registry haccepted', hentries]
  · intro symbol
    rw [run_requests, run_requests]

theorem Created.registry {requested : List Symbol} (h : Created requested directory) :
    directory.registry = ∅ := by
  ext ⟨stock_locate, symbol⟩
  rw [mem_registry, h.symbols]
  simp

-- Spelled out, without the directory.
theorem Created.allAccepted_iff {requested : List Symbol} (h : Created requested directory)
    (messages : List StockDirectory) :
    AllAccepted directory messages ↔
      (∀ message ∈ messages, NamesStock message.stock.toList) ∧
      (∀ first ∈ messages, ∀ second ∈ messages,
        first.header.stock_locate = second.header.stock_locate →
          right_trimmed first.stock.toList = right_trimmed second.stock.toList) ∧
      (∀ first ∈ messages, ∀ second ∈ messages,
        right_trimmed first.stock.toList = right_trimmed second.stock.toList →
          right_trimmed first.stock.toList ∈ normalized requested →
            first.header.stock_locate = second.header.stock_locate) := by
  rw [SymbolDirectory.allAccepted_iff h.accurate.mapping, h.registry,
    Registry.acceptsAll_iff (by rintro _ ⟨⟩), Set.empty_union]
  refine and_congr_right fun _ => ?_
  unfold Registry.Consistent Registry.Compatible
  simp only [Set.mem_ofPred_eq, List.mem_map, forall_exists_index, and_imp,
    forall_apply_eq_imp_iff₂, h.requests_iff]
  constructor
  · intro hall
    exact ⟨fun first hfirst second hsecond => (hall first hfirst second hsecond).1,
      fun first hfirst second hsecond => (hall first hfirst second hsecond).2⟩
  · rintro ⟨hkeys, hvalues⟩ first hfirst second hsecond
    exact ⟨hkeys first hfirst second hsecond, hvalues first hfirst second hsecond⟩

end Order

section Respelling

-- The same name with the case of letters changed, and with other spaces on the right.
def Respelled (first second : Symbol) : Prop :=
  ∃ base base' spaces spaces', first = base ++ List.replicate spaces ' '.toUInt8 ∧
    second = base' ++ List.replicate spaces' ' '.toUInt8 ∧
    base.map ascii_uppercase = base'.map ascii_uppercase

-- Lists that request the same names, in any order and as often as they like.
structure Respells (requested requested' : List Symbol) : Prop where
  width : ∀ symbol ∈ requested', symbol.length ≤ kStockSymbolWidth
  forth : ∀ symbol ∈ requested, ∃ other ∈ requested', Respelled symbol other
  back : ∀ other ∈ requested', ∃ symbol ∈ requested, Respelled symbol other

theorem Respelled.symm {first second : Symbol} (h : Respelled first second) :
    Respelled second first := by
  obtain ⟨base, base', spaces, spaces', hfirst, hsecond, hcase⟩ := h
  exact ⟨base', base, spaces', spaces, hsecond, hfirst, hcase.symm⟩

theorem right_trimmed_pad (symbol : Symbol) (spaces : Nat) :
    right_trimmed (symbol ++ List.replicate spaces ' '.toUInt8) = right_trimmed symbol :=
  Padding.trimmed_pad _ symbol spaces

theorem namesStock_pad (symbol : Symbol) (spaces : Nat) :
    NamesStock (symbol ++ List.replicate spaces ' '.toUInt8) ↔ NamesStock symbol := by
  have hspace : (0 : UInt8) ∉ List.replicate spaces ' '.toUInt8 := by
    intro hmem
    exact absurd (List.eq_of_mem_replicate hmem) (by decide)
  unfold NamesStock
  rw [← not_not (a := ∃ character ∈ symbol ++ _, character ≠ ' '.toUInt8),
    ← right_trimmed_eq_nil_iff, right_trimmed_pad, right_trimmed_eq_nil_iff, not_not,
    List.mem_append, or_iff_left hspace]

theorem namesStock_uppercase (symbol : Symbol) :
    NamesStock (symbol.map ascii_uppercase) ↔ NamesStock symbol := by
  unfold NamesStock
  simp only [List.mem_map, exists_exists_and_eq_and, ne_eq, not_exists, not_and]
  simp only [ascii_uppercase_eq_iff _ (show (0 : UInt8).toNat < 65 by decide),
    ascii_uppercase_eq_iff _ (show ' '.toUInt8.toNat < 65 by decide)]
  refine and_congr_left fun _ => ⟨fun h hmem => h 0 hmem rfl, ?_⟩
  rintro h _ hmem rfl
  exact h hmem

theorem Respelled.normalize {first second name : Symbol} (h : Respelled first second)
    (hwidth : second.length ≤ kStockSymbolWidth)
    (hname : normalize_requested_symbol first = .ok name) :
    normalize_requested_symbol second = .ok name := by
  obtain ⟨base, base', spaces, spaces', rfl, rfl, hcase⟩ := h
  rw [normalize_requested_symbol_ok_iff] at hname ⊢
  obtain ⟨-, hnames, rfl⟩ := hname
  refine ⟨hwidth, ?_, ?_⟩
  · rw [namesStock_pad, ← namesStock_uppercase, ← hcase, namesStock_uppercase, ← namesStock_pad]
    exact hnames
  · rw [right_trimmed_pad, right_trimmed_pad, ← right_trimmed_map_uppercase,
      ← right_trimmed_map_uppercase, hcase]

theorem Respells.create {requested requested' : List Symbol} (h : Respells requested requested')
    (hcreate : create requested = .ok directory) : create requested' = .ok directory := by
  have hcreated := create_created hcreate
  have haccepted : ∀ other ∈ requested', ∃ name, normalize_requested_symbol other = .ok name := by
    intro other hmem
    obtain ⟨symbol, hsymbol, hspelled⟩ := h.back other hmem
    obtain ⟨name, hname⟩ := hcreated.accepted symbol hsymbol
    exact ⟨name, hspelled.normalize (h.width other hmem) hname⟩
  obtain ⟨other, hother⟩ := create_of_accepted haccepted
  have hcreated' := create_created hother
  have hsame : normalized requested = normalized requested' := by
    ext name
    constructor
    · rintro ⟨symbol, hsymbol, hname⟩
      obtain ⟨other, hmem, hspelled⟩ := h.forth symbol hsymbol
      exact ⟨other, hmem, hspelled.normalize (h.width other hmem) hname⟩
    · rintro ⟨other, hmem, hname⟩
      obtain ⟨symbol, hsymbol, hspelled⟩ := h.back other hmem
      obtain ⟨found, hfound⟩ := hcreated.accepted symbol hsymbol
      have hwidth := ((normalize_requested_symbol_ok_iff symbol found).mp hfound).1
      exact ⟨symbol, hsymbol, hspelled.symm.normalize hwidth hname⟩
  rw [hother, hcreated.unique hcreated' hsame]

end Respelling

-- Whether all messages are accepted, and what they leave, does not depend on their order
-- or repetition, nor on how the requested names are spelled and listed.
theorem discovery_order_free {requested : List Symbol}
    (hcreate : create requested = .ok directory) :
    (∀ messages, AllAccepted directory messages ↔
      (∀ message ∈ messages, NamesStock message.stock.toList) ∧
      (∀ first ∈ messages, ∀ second ∈ messages,
        first.header.stock_locate = second.header.stock_locate →
          right_trimmed first.stock.toList = right_trimmed second.stock.toList) ∧
      (∀ first ∈ messages, ∀ second ∈ messages,
        right_trimmed first.stock.toList = right_trimmed second.stock.toList →
          right_trimmed first.stock.toList ∈ normalized requested →
            first.header.stock_locate = second.header.stock_locate)) ∧
    (∀ requested' other messages messages', create requested' = .ok other →
      normalized requested = normalized requested' → AllAccepted directory messages →
        AllAccepted other messages' → entries messages = entries messages' →
          Machine.run observe directory messages = Machine.run observe other messages') ∧
    (∀ messages messages', (∀ message, message ∈ messages ↔ message ∈ messages') →
      AllAccepted directory messages → AllAccepted directory messages' ∧
        Machine.run observe directory messages' = Machine.run observe directory messages) ∧
    ∀ requested', Respells requested requested' → create requested' = .ok directory := by
  have hcreated := create_created hcreate
  refine ⟨hcreated.allAccepted_iff, ?_, ?_, fun requested' h => h.create hcreate⟩
  · intro requested' other messages messages' hcreate' hsame haccepted haccepted' hentries
    exact hcreated.run_eq (create_created hcreate') hsame haccepted haccepted' hentries
  · intro messages messages' hmem haccepted
    have hentries : entries messages' = entries messages := by
      ext entry
      simp only [entries, hmem]
    have haccepted' : AllAccepted directory messages' := by
      rw [hcreated.allAccepted_iff] at haccepted ⊢
      simpa only [hmem] using haccepted
    exact ⟨haccepted', hcreated.run_eq hcreated rfl haccepted' haccepted hentries⟩

-- The stock is requested twice, in another spelling.
theorem sampleRequested_respelled :
    create [['Q'.toUInt8], ['q'.toUInt8, ' '.toUInt8, ' '.toUInt8]] = .ok sampleRequested := by
  have hupper : Respelled ['q'.toUInt8, ' '.toUInt8] ['Q'.toUInt8] :=
    ⟨['q'.toUInt8], ['Q'.toUInt8], 1, 0, rfl, rfl, by decide⟩
  have hpadded : Respelled ['q'.toUInt8, ' '.toUInt8] ['q'.toUInt8, ' '.toUInt8, ' '.toUInt8] :=
    ⟨['q'.toUInt8], ['q'.toUInt8], 1, 2, rfl, rfl, rfl⟩
  refine (discovery_order_free sampleRequested_created).2.2.2 _ ⟨by decide, ?_, ?_⟩
  · intro symbol hsymbol
    obtain rfl := List.mem_singleton.mp hsymbol
    exact ⟨_, List.mem_cons_self, hupper⟩
  · intro other hother
    refine ⟨_, List.mem_singleton_self _, ?_⟩
    rcases List.mem_cons.mp hother with rfl | hother
    · exact hupper
    · obtain rfl := List.mem_singleton.mp hother
      exact hpadded

end SymbolDirectory

end AegisFeed
