import AegisFeed.Book.BookStore.Recovery
import AegisFeed.Book.SymbolDirectory.OrderFree

namespace AegisFeed

open Std

namespace OrderBook

-- The orders at the level of a side and price.
def depth (book : OrderBook) (side : Side) (price : Price4) : Nat :=
  (book.level side price).elim 0 fun level => level.order_count.toNat

variable {book : OrderBook}

-- Every place of the ledger has room for some more orders.
def Spare (count : Nat) (book : OrderBook) : Prop :=
  ∀ place, Ledger.countAt book.view place + count ≤ levelCapacity

theorem Invariant.countAt_le_depth (h : book.Invariant) (side : Side) (price : Price4) :
    Ledger.countAt book.view (side, price) ≤ book.depth side price := by
  rw [countAt_view]
  unfold depth
  by_cases hside : side = Side.Buy ∨ side = Side.Sell
  · have hrepresents := h.level_represents hside price
    cases hlevel : book.level side price with
    | none =>
      rw [hlevel] at hrepresents
      exact Nat.le_of_eq hrepresents
    | some level =>
      rw [hlevel] at hrepresents
      exact Nat.le_of_eq hrepresents.2.2.symm
  · have hzero : ¬0 < restingCount book.active_orders side price := by
      rw [restingCount_pos_iff]
      rintro ⟨id, order, hfound, rfl, -⟩
      exact hside (h.orders id order hfound).side
    omega

theorem Spare.next {count : Nat} (hspare : book.Spare (count + 1)) (h : book.Invariant)
    (event : OrderEvent) : (book.apply event).2.Spare count := by
  intro place
  have hplace := hspare place
  cases hresult : (book.apply event).1 with
  | error error =>
    rw [apply_error_unchanged h event hresult]
    omega
  | ok =>
    have hready := ((apply_ok_iff_step h event).mp hresult).2.1
    rw [apply_view h hresult]
    by_cases henters : event.step.Enters book.view place
    · rw [Ledger.Step.countAt_effect_of_enters hready henters]
      omega
    · have hle := Ledger.Step.countAt_effect_le hready henters
      omega

-- Two events on different order references, one after the other.
theorem Invariant.exchange (h : book.Invariant) (hspare : book.Spare 1)
    {first second : OrderEvent} (hdisjoint : first.references.Disjoint second.references)
    (hfirst : book.Succeeds first) (hsecond : (book.apply first).2.Succeeds second) :
    Machine.Exchange apply Succeeds book first second := by
  rw [← first.references_step, ← second.references_step] at hdisjoint
  have hbook := apply_invariant h first
  have hlocate := apply_stock_locate h first
  obtain ⟨hadmissible, haccepts⟩ := (apply_ok_iff_step h first).mp hfirst
  obtain ⟨hadmissible', haccepts'⟩ := (apply_ok_iff_step hbook second).mp hsecond
  rw [hlocate] at hadmissible'
  rw [apply_view h hfirst] at haccepts'
  obtain ⟨hswapped, hswapped'⟩ := Ledger.Step.accepts_swap hdisjoint hspare haccepts haccepts'
  have hok : book.Succeeds second := (apply_ok_iff_step h second).mpr ⟨hadmissible', hswapped⟩
  have hbook' := apply_invariant h second
  have hlocate' := apply_stock_locate h second
  have hok' : (book.apply second).2.Succeeds first := by
    unfold Succeeds
    rw [apply_ok_iff_step hbook' first, hlocate', apply_view h hok]
    exact ⟨hadmissible, hswapped'⟩
  refine ⟨hok, hok', ?_, hok.trans hsecond.symm, hok'.trans hfirst.symm⟩
  refine (apply_invariant hbook' first).eq_of_view (apply_invariant hbook second) ?_ ?_
  · rw [apply_stock_locate hbook' first, hlocate', apply_stock_locate hbook second, hlocate]
  · rw [apply_view hbook' hok', apply_view h hok, apply_view hbook hsecond, apply_view h hfirst]
    exact (Ledger.Step.effect_comm hdisjoint haccepts.1 hswapped.1).symm

end OrderBook

namespace SymbolDirectory

variable {directory : SymbolDirectory}

-- The order of messages that are all accepted does not matter.
theorem Accurate.run_perm (h : directory.Accurate) {messages messages' : List StockDirectory}
    (hperm : messages.Perm messages') (haccepted : AllAccepted directory messages) :
    AllAccepted directory messages' ∧
      Machine.run SymbolDirectory.observe directory messages' =
        Machine.run SymbolDirectory.observe directory messages := by
  have haccepted' : AllAccepted directory messages' := by
    rw [allAccepted_iff h.mapping,
      Registry.acceptsAll_iff h.mapping.registry_consistent] at haccepted ⊢
    simpa only [List.mem_map, hperm.mem_iff] using haccepted
  refine ⟨haccepted', (h.run messages').ext (h.run messages) ?_ ?_⟩
  · rw [run_registry haccepted', run_registry haccepted]
    simp only [entries, hperm.mem_iff]
  · intro symbol
    rw [run_requests, run_requests]

theorem Accurate.exchange (h : directory.Accurate) {first second : StockDirectory}
    (hfirst : (directory.observe first).1 = .ok ())
    (hsecond : ((directory.observe first).2.observe second).1 = .ok ()) :
    (directory.observe second).1 = .ok () ∧
      ((directory.observe second).2.observe first).1 = .ok () ∧
      ((directory.observe second).2.observe first).2 =
        ((directory.observe first).2.observe second).2 := by
  have haccepted : AllAccepted directory [first, second] :=
    allAccepted_cons.mpr ⟨hfirst, allAccepted_cons.mpr ⟨hsecond, List.forall_mem_nil _⟩⟩
  obtain ⟨haccepted', hrun⟩ := h.run_perm (.swap second first []) haccepted
  obtain ⟨hok, hrest⟩ := allAccepted_cons.mp haccepted'
  exact ⟨hok, (allAccepted_cons.mp hrest).1, hrun⟩

end SymbolDirectory

-- What a message is tied to: an event to the order references it names at its locate, a
-- directory message to all of them.
def StoreMessage.touches (message : StoreMessage) (channel : StockLocate × OrderId) : Bool :=
  match message with
  | .directory message => message.header.stock_locate = channel.1
  | .order event => event.stock_locate = channel.1 ∧ channel.2 ∈ event.references

theorem StoreMessage.exists_touches (message : StoreMessage) :
    ∃ channel, message.touches channel := by
  cases message with
  | directory message => exact ⟨(message.header.stock_locate, 0), decide_eq_true rfl⟩
  | order event =>
    have hreference : ∃ order_reference, order_reference ∈ event.references := by
      cases event <;> exact ⟨_, List.mem_cons_self⟩
    obtain ⟨order_reference, hmem⟩ := hreference
    exact ⟨(event.stock_locate, order_reference), decide_eq_true ⟨rfl, hmem⟩⟩

-- A message that ends without an error. The event of a locate that is not selected does.
def StoreResponse.Succeeded : StoreResponse → Prop
  | .observed (.ok _) => True
  | .routed (.ok _) => True
  | _ => False

instance : (response : StoreResponse) → Decidable response.Succeeded
  | .observed (.ok _) => .isTrue trivial
  | .observed (.error _) => .isFalse id
  | .routed (.ok _) => .isTrue trivial
  | .routed (.error _) => .isFalse id

namespace BookStore

def Completes (store : BookStore) (message : StoreMessage) : Prop :=
  (store.apply message).1.Succeeded

instance (store : BookStore) (message : StoreMessage) : Decidable (store.Completes message) :=
  inferInstanceAs (Decidable (store.apply message).1.Succeeded)

variable {store : BookStore}

section Independent

variable {first second : StoreMessage} (h : Machine.Independent StoreMessage.touches first second)

include h

theorem disjoint_of_independent {event other : OrderEvent} (hfirst : first = .order event)
    (hsecond : second = .order other) (hlocate : event.stock_locate = other.stock_locate) :
    event.references.Disjoint other.references := by
  subst hfirst hsecond
  intro order_reference hmem hmem'
  exact h (event.stock_locate, order_reference)
    ⟨decide_eq_true ⟨rfl, hmem⟩, decide_eq_true ⟨hlocate.symm, hmem'⟩⟩

theorem locate_ne_of_directory {message : StockDirectory} (hfirst : first = .directory message) :
    message.header.stock_locate ≠ second.stock_locate := by
  subst hfirst
  obtain ⟨⟨stock_locate, order_reference⟩, htouches⟩ := second.exists_touches
  rintro heq
  have hlocate : second.stock_locate = stock_locate := by
    cases second with
    | directory other => exact of_decide_eq_true htouches
    | order event => exact (of_decide_eq_true htouches).1
  exact h (stock_locate, order_reference) ⟨decide_eq_true (heq.trans hlocate), htouches⟩

end Independent

section Events

variable (h : store.Invariant) {event : OrderEvent}

include h

theorem Invariant.completes_owned {book : OrderBook}
    (howned : store.books_by_locate[event.stock_locate]? = some book) :
    store.Completes (.order event) ↔ book.Succeeds event := by
  unfold Completes OrderBook.Succeeds
  simp only [BookStore.apply]
  cases hresult : (book.apply event).1 with
  | error error =>
    rw [h.apply_event_error howned hresult]
    refine iff_of_false id fun hok => ?_
    cases hok
  | ok =>
    rw [h.apply_event_ok howned hresult]
    exact iff_of_true trivial rfl

-- The event of a locate without a book changes nothing.
theorem Invariant.apply_unowned (hnone : store.books_by_locate[event.stock_locate]? = none) :
    (store.apply (.order event)).2 = store := by
  refine h.unapplied_unchanged event fun happlied => ?_
  obtain ⟨book, howned, -⟩ := (h.applied_iff event).mp happlied
  cases hnone.symm.trans howned

theorem Invariant.apply_owned {book : OrderBook}
    (howned : store.books_by_locate[event.stock_locate]? = some book)
    (hok : book.Succeeds event) :
    store.apply (.order event) = (.routed (.ok .Applied), { store with
      books_by_locate :=
        store.books_by_locate.insert event.stock_locate (book.apply event).2 }) := by
  simp only [BookStore.apply, h.apply_event_ok howned hok]

theorem Invariant.apply_owned_next {book : OrderBook} {other : OrderEvent}
    (howned : store.books_by_locate[event.stock_locate]? = some book)
    (hlocate : event.stock_locate = other.stock_locate) (hok : book.Succeeds event)
    (hok' : (book.apply event).2.Succeeds other) :
    (store.apply (.order event)).2.apply (.order other) = (.routed (.ok .Applied), { store with
      books_by_locate := store.books_by_locate.insert event.stock_locate
        ((book.apply event).2.apply other).2 }) := by
  have hinvariant := h.apply (.order event)
  rw [h.apply_owned howned hok] at hinvariant ⊢
  dsimp only at hinvariant ⊢
  rw [hinvariant.apply_owned (by rw [hlocate, ExtTreeMap.getElem?_insert_self]) hok']
  simp only [hlocate, FiniteMap.insert_insert]

-- The book of the locate exchanges the two, and the store does.
theorem Invariant.exchange_events {other : OrderEvent}
    (hlocate : event.stock_locate = other.stock_locate)
    (hdisjoint : event.references.Disjoint other.references)
    (hspare : ∀ (stock_locate : StockLocate) (book : OrderBook),
      store.books_by_locate[stock_locate]? = some book → book.Spare 1)
    (hfirst : store.Completes (.order event))
    (hsecond : (store.apply (.order event)).2.Completes (.order other)) :
    Machine.Exchange BookStore.apply Completes store (.order event) (.order other) := by
  cases howned : store.books_by_locate[event.stock_locate]? with
  | none =>
    have hsame := h.apply_unowned howned
    have hsame' : (store.apply (.order other)).2 = store := h.apply_unowned (hlocate ▸ howned)
    rw [hsame] at hsecond
    refine ⟨hsecond, ?_, ?_, ?_, ?_⟩
    · rwa [hsame']
    · rw [hsame', hsame, hsame']
    · rw [hsame]
    · rw [hsame']
  | some book =>
    have howned' : store.books_by_locate[other.stock_locate]? = some book := hlocate ▸ howned
    have hbook := (h.books _ book howned).1
    have hok := (h.completes_owned howned).mp hfirst
    have hok' : (book.apply event).2.Succeeds other := by
      have hinvariant := h.apply (.order event)
      rw [h.apply_owned howned hok] at hsecond hinvariant
      refine (hinvariant.completes_owned ?_).mp hsecond
      rw [hlocate, ExtTreeMap.getElem?_insert_self]
    obtain ⟨hother, hevent, hsame, -, -⟩ :=
      hbook.exchange (hspare _ book howned) hdisjoint hok hok'
    have hboth := h.apply_owned_next howned hlocate hok hok'
    have hboth' := h.apply_owned_next howned' hlocate.symm hother hevent
    refine ⟨(h.completes_owned howned').mpr hother, ?_, ?_, ?_, ?_⟩
    · rw [Completes, hboth']
      exact trivial
    · rw [hboth, hboth', hsame, hlocate]
    · rw [hboth, h.apply_owned howned' hother]
    · rw [hboth', h.apply_owned howned hok]

end Events

section Directory

variable {message : StockDirectory}

-- An accepted directory message does the same to the books of two stores that select its
-- locate alike afterwards.
theorem observe_book_congr {other : BookStore}
    (hok : (store.symbol_directory.observe message).1 = .ok ())
    (hok' : (other.symbol_directory.observe message).1 = .ok ())
    (hselected : (store.symbol_directory.observe message).2.is_selected
        message.header.stock_locate =
      (other.symbol_directory.observe message).2.is_selected message.header.stock_locate)
    (hcapacity : store.expected_active_order_capacity_per_book =
      other.expected_active_order_capacity_per_book)
    (hbook : store.books_by_locate[message.header.stock_locate]? =
      other.books_by_locate[message.header.stock_locate]?) :
    (store.observe message).2.books_by_locate[message.header.stock_locate]? =
      (other.observe message).2.books_by_locate[message.header.stock_locate]? := by
  unfold observe
  generalize store.symbol_directory.observe message = outcome at hok hselected
  generalize other.symbol_directory.observe message = outcome' at hok' hselected
  rcases outcome with ⟨result, directory⟩
  rcases outcome' with ⟨result', directory'⟩
  cases hok
  cases hok'
  dsimp only at hselected ⊢
  rw [hselected]
  by_cases hs : directory'.is_selected message.header.stock_locate
  · rw [if_pos hs, if_pos hs, FiniteMap.getElem?_insertIfNew, FiniteMap.getElem?_insertIfNew,
      hbook, hcapacity]
  · rw [if_neg hs, if_neg hs, hbook]

theorem completes_directory_iff :
    store.Completes (.directory message) ↔
      (store.symbol_directory.observe message).1 = .ok () := by
  unfold Completes
  simp only [BookStore.apply, ← observe_result]
  cases (store.observe message).1 with
  | error error =>
    refine iff_of_false id fun hok => ?_
    cases hok
  | ok => exact iff_of_true trivial rfl

theorem apply_directory_response (h : store.Completes (.directory message)) :
    (store.apply (.directory message)).1 = .observed (.ok ()) := by
  simp only [BookStore.apply, observe_result, completes_directory_iff.mp h]

-- The book of a locate depends on the message of that locate only.
theorem exchange_listing_book {other : StockDirectory}
    (hne : message.header.stock_locate ≠ other.header.stock_locate)
    (hok : (store.symbol_directory.observe message).1 = .ok ())
    (hok' : ((store.symbol_directory.observe other).2.observe message).1 = .ok ())
    (hsame : ((store.symbol_directory.observe other).2.observe message).2 =
      ((store.symbol_directory.observe message).2.observe other).2) :
    ((store.observe other).2.observe message).2.books_by_locate[message.header.stock_locate]? =
      ((store.observe message).2.observe other).2.books_by_locate[message.header.stock_locate]? := by
  rw [observe_book_of_ne _ other hne]
  apply observe_book_congr
  · rwa [observe_directory]
  · exact hok
  · rw [observe_directory, hsame]
    exact ((store.symbol_directory.observe message).2.observe_spec other).is_selected_of_ne hne
  · exact store.observe_capacity other
  · exact store.observe_book_of_ne other hne

theorem Reachable.exchange_listings (h : store.Reachable) {other : StockDirectory}
    (hne : message.header.stock_locate ≠ other.header.stock_locate)
    (hfirst : store.Completes (.directory message))
    (hsecond : (store.apply (.directory message)).2.Completes (.directory other)) :
    Machine.Exchange BookStore.apply Completes store (.directory message) (.directory other) := by
  have hok := completes_directory_iff.mp hfirst
  have hok' : ((store.symbol_directory.observe message).2.observe other).1 = .ok () := by
    rw [← observe_directory]
    exact completes_directory_iff.mp hsecond
  obtain ⟨hother, hmessage, hsame⟩ := h.accurate.exchange hok hok'
  have hcompletes := completes_directory_iff.mpr hother
  have hcompletes' : (store.apply (.directory other)).2.Completes (.directory message) := by
    refine completes_directory_iff.mpr ?_
    show ((store.observe other).2.symbol_directory.observe message).1 = .ok ()
    rwa [observe_directory]
  refine ⟨hcompletes, hcompletes', ?_, ?_, ?_⟩
  · show ((store.observe other).2.observe message).2 = ((store.observe message).2.observe other).2
    apply ext_books
    · simp only [observe_directory, hsame]
    · simp only [observe_capacity]
    · intro stock_locate
      by_cases hm : stock_locate = message.header.stock_locate
      · subst hm
        exact exchange_listing_book hne hok hmessage hsame
      · by_cases ho : stock_locate = other.header.stock_locate
        · subst ho
          exact (exchange_listing_book hm hother hok' hsame.symm).symm
        · simp only [observe_book_of_ne _ _ hm, observe_book_of_ne _ _ ho]
  · rw [apply_directory_response hcompletes, apply_directory_response hsecond]
  · rw [apply_directory_response hcompletes', apply_directory_response hfirst]

end Directory

section Mixed

variable {first second : StoreMessage}

theorem independent_uses (hne : first.stock_locate ≠ second.stock_locate)
    (hone : ¬(first.is_directory ∧ second.is_directory)) :
    Machine.Independent StoreMessage.uses first second := by
  intro channel
  cases channel with
  | none => exact hone
  | some stock_locate =>
    rintro ⟨hfirst, hsecond⟩
    exact hne ((of_decide_eq_true hfirst).trans (of_decide_eq_true hsecond).symm)

theorem exchange_of_uses (hindependent : Machine.Independent StoreMessage.uses first second)
    (hfirst : store.Completes first) (hsecond : (store.apply first).2.Completes second) :
    Machine.Exchange BookStore.apply Completes store first second := by
  obtain ⟨hsame, hresponse⟩ := apply_stepsCommute store first second hindependent
  obtain ⟨-, hresponse'⟩ := apply_stepsCommute store second first hindependent.symm
  unfold Completes at hfirst hsecond
  refine ⟨?_, ?_, hsame.symm, hresponse.symm, hresponse'⟩
  · rwa [hresponse] at hsecond
  · rwa [Completes, hresponse']

end Mixed

section Room

-- Every level has room for some more orders, and so have those of the books to come.
structure Spare (count : Nat) (store : BookStore) : Prop where
  opened : count ≤ levelCapacity
  books : ∀ (stock_locate : StockLocate) (book : OrderBook),
    store.books_by_locate[stock_locate]? = some book → book.Spare count

theorem Spare.fewer {count : Nat} (hspare : store.Spare (count + 1)) : store.Spare count := by
  refine ⟨by have := hspare.opened; omega, fun stock_locate book howned place => ?_⟩
  have hplace := hspare.books stock_locate book howned place
  omega

theorem Spare.next {count : Nat} (hspare : store.Spare (count + 1)) (h : store.Invariant)
    (message : StoreMessage) : (store.apply message).2.Spare count := by
  have hfewer := hspare.fewer
  refine ⟨hfewer.opened, ?_⟩
  intro stock_locate book hfound
  cases message with
  | directory message =>
    have hobserved := observe_spec store message
    change (store.observe message).2.books_by_locate[stock_locate]? = some book at hfound
    generalize store.observe message = outcome at hobserved hfound
    cases hobserved with
    | rejected error => exact hfewer.books stock_locate book hfound
    | unselected directory _ _ => exact hfewer.books stock_locate book hfound
    | selected directory _ _ =>
      rw [FiniteMap.getElem?_insertIfNew] at hfound
      split_ifs at hfound with hnew
      · cases hfound
        intro place
        rw [OrderBook.view_new, Ledger.countAt, FiniteMap.total_empty, Nat.zero_add]
        exact hfewer.opened
      · exact hfewer.books stock_locate book hfound
  | order event =>
    have hrouted := h.routed event
    change (store.apply_event event).2.books_by_locate[stock_locate]? = some book at hfound
    generalize store.apply_event event = outcome at hrouted hfound
    cases hrouted with
    | unknown _ => exact hfewer.books stock_locate book hfound
    | unselected _ => exact hfewer.books stock_locate book hfound
    | rejected _ _ _ _ => exact hfewer.books stock_locate book hfound
    | applied held owned result =>
      rw [FiniteMap.getElem?_insert] at hfound
      split_ifs at hfound with hlocate
      · cases hfound
        exact (hspare.books _ held owned).next (h.books _ held owned).1 event
      · exact hfewer.books stock_locate book hfound

theorem exchanges : Machine.Exchanges StoreMessage.touches BookStore.apply Completes
    fun count store => store.Reachable ∧ store.Spare count := by
  refine ⟨fun h => ⟨h.1, h.2.fewer⟩, fun h _ => ⟨h.1.applied _, h.2.next h.1.invariant _⟩, ?_⟩
  rintro count store first second ⟨h, hspare⟩ hindependent hfirst hsecond
  cases first with
  | directory message =>
    have hne := locate_ne_of_directory hindependent rfl
    cases second with
    | directory other => exact h.exchange_listings hne hfirst hsecond
    | order event =>
      exact exchange_of_uses (independent_uses hne fun hboth => nomatch hboth.2) hfirst hsecond
  | order event =>
    cases second with
    | directory message =>
      have hne := locate_ne_of_directory hindependent.symm rfl
      exact exchange_of_uses (independent_uses hne.symm fun hboth => nomatch hboth.1) hfirst
        hsecond
    | order other =>
      by_cases hlocate : event.stock_locate = other.stock_locate
      · have hdisjoint := disjoint_of_independent hindependent rfl rfl hlocate
        refine h.invariant.exchange_events hlocate hdisjoint ?_ hfirst hsecond
        intro stock_locate book howned place
        have hplace := hspare.books stock_locate book howned place
        omega
      · exact exchange_of_uses (independent_uses hlocate fun hboth => nomatch hboth.1) hfirst
          hsecond

end Room

-- Messages that all end without an error may come in any order that keeps the messages of
-- each order reference as they are, and each directory message where it is among the
-- messages of its locate: none of them fails, each gets the same response, and the store
-- in the end is the same. No level may come near the largest order count.
theorem Reachable.run_reordered (h : store.Reachable) {first second : List StoreMessage}
    (hlength : first.length ≤ uint32_max.toNat)
    (hroom : ∀ (stock_locate : StockLocate) (book : OrderBook) (side : Side) (price : Price4),
      store.books_by_locate[stock_locate]? = some book →
        book.depth side price + first.length ≤ uint32_max.toNat)
    (hsame : Machine.SameOnChannels StoreMessage.touches first second)
    (hcompletes : Machine.Admits BookStore.apply Completes store first) :
    first.Perm second ∧ Machine.Admits BookStore.apply Completes store second ∧
      Machine.run BookStore.apply store second = Machine.run BookStore.apply store first ∧
      (Machine.transcript BookStore.apply store second).Perm
        (Machine.transcript BookStore.apply store first) := by
  have hspare : store.Spare first.length := by
    refine ⟨hlength, ?_⟩
    rintro stock_locate book howned ⟨side, price⟩
    have hdepth := (h.invariant.books _ book howned).1.countAt_le_depth side price
    have hplace : book.depth side price + first.length ≤ levelCapacity :=
      hroom stock_locate book side price howned
    omega
  exact ⟨hsame.perm StoreMessage.exists_touches,
    exchanges.run_eq StoreMessage.exists_touches ⟨h, hspare⟩ hsame hcompletes⟩

-- The second bid may come before the first, at the same level.
theorem sampleStart_reordered :
    let bid : StoreMessage := .order (.add { sampleAdd 7 10 with order_reference := 2 })
    let other : StoreMessage := .order (.add (sampleAdd 7 60))
    let rest : List StoreMessage := [.order (.cancel (sampleCancel 20))]
    Machine.Admits BookStore.apply Completes sampleStart
        (.directory sampleListing :: bid :: other :: rest) ∧
      Machine.run BookStore.apply sampleStart (.directory sampleListing :: bid :: other :: rest) =
        Machine.run BookStore.apply sampleStart
          (.directory sampleListing :: other :: bid :: rest) := by
  intro bid other rest
  have hindependent : Machine.Independent StoreMessage.touches other bid := by
    rintro channel ⟨hother, hbid⟩
    have hone := (of_decide_eq_true hother).2
    have htwo := (of_decide_eq_true hbid).2
    simp_all [OrderEvent.references, sampleAdd]
  have hsame := Machine.SameOnChannels.swap hindependent [.directory sampleListing] rest
  obtain ⟨-, hadmits, hrun, -⟩ := (Reachable.created sampleStart_created).run_reordered
    (by decide) (by rintro _ _ _ _ ⟨⟩) hsame (by decide)
  exact ⟨hadmits, hrun⟩

end BookStore

end AegisFeed
