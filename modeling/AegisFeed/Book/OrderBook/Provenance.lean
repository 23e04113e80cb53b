import AegisFeed.Book.OrderBook.Recovery
import AegisFeed.Book.OrderBook.Reductions

namespace AegisFeed

open Std

-- The shares of an order that an event executes or cancels.
def OrderEvent.taken (event : OrderEvent) (id : OrderId) : Shares :=
  match event.reduction with
  | some (_, reference, shares, _) => if reference = id then shares else 0
  | none => 0

-- The order that an event takes out, whatever is left of it.
def OrderEvent.ended : OrderEvent → Option OrderId
  | .delete_order message => some message.order_reference
  | .replace message => some message.original_order_reference
  | _ => none

-- What an event leaves of an order.
def OrderRecord.after (order : OrderRecord) (event : OrderEvent) : Option OrderRecord :=
  if event.ended = some order.id then none
  else if event.taken order.id < order.remaining then
    some { order with remaining := order.remaining - event.taken order.id }
  else none

-- What events leave of an order: none of them takes it out, and they execute and cancel
-- less than it was for.
structure OrderRecord.Remains (born : OrderRecord) (events : List OrderEvent)
    (order : OrderRecord) : Prop where
  kept : ∀ event ∈ events, event.ended ≠ some born.id
  shares : order.remaining.toNat + (events.map fun event => (event.taken born.id).toNat).sum =
    born.remaining.toNat
  positive : 0 < order.remaining.toNat
  order_eq : order = { born with remaining := order.remaining }

namespace OrderRecord

variable {born order : OrderRecord} {event : OrderEvent}

theorem after_eq_some_iff : born.after event = some order ↔
    event.ended ≠ some born.id ∧ (event.taken born.id).toNat < born.remaining.toNat ∧
      order = { born with remaining := born.remaining - event.taken born.id } := by
  unfold after
  split_ifs with hended hless
  · simp [hended]
  · rw [Option.some_inj, eq_comm]
    simp [hended, UInt32.lt_iff_toNat_lt.mp hless]
  · rw [UInt32.lt_iff_toNat_lt] at hless
    simp [hless]

-- An event about other orders leaves all of it.
theorem after_of_other (hpositive : 0 < born.remaining.toNat)
    (hended : event.ended ≠ some born.id) (htaken : event.taken born.id = 0) :
    born.after event = some born := by
  rw [after_eq_some_iff, htaken]
  exact ⟨hended, hpositive, by rw [UInt32.sub_zero]⟩

theorem remains_cons_iff {rest : List OrderEvent} :
    born.Remains (event :: rest) order ↔
      ∃ next, born.after event = some next ∧ next.Remains rest order := by
  constructor
  · rintro ⟨hkept, hshares, hpositive, horder⟩
    rw [List.forall_mem_cons] at hkept
    rw [List.map_cons, List.sum_cons] at hshares
    have hless : (event.taken born.id).toNat < born.remaining.toNat := by omega
    have hnext := Words.toNat_sub32 hless.le
    have hrest : order.remaining.toNat +
        (rest.map fun event => (event.taken born.id).toNat).sum =
          (born.remaining - event.taken born.id).toNat := by omega
    exact ⟨_, after_eq_some_iff.mpr ⟨hkept.1, hless, rfl⟩, hkept.2, hrest, hpositive, horder⟩
  · rintro ⟨next, hafter, hkept, hshares, hpositive, horder⟩
    obtain ⟨hended, hless, rfl⟩ := after_eq_some_iff.mp hafter
    have hrest : order.remaining.toNat +
        (rest.map fun event => (event.taken born.id).toNat).sum =
          (born.remaining - event.taken born.id).toNat := hshares
    rw [Words.toNat_sub32 hless.le] at hrest
    refine ⟨List.forall_mem_cons.mpr ⟨hended, hkept⟩, ?_, hpositive, horder⟩
    rw [List.map_cons, List.sum_cons]
    omega

theorem remains_iff {events : List OrderEvent} :
    born.Remains events order ↔
      events.foldlM after born = some order ∧ 0 < order.remaining.toNat := by
  induction events generalizing born with
  | nil =>
    constructor
    · rintro ⟨-, hshares, hpositive, horder⟩
      have hsame : order.remaining = born.remaining := UInt32.toNat_inj.mp hshares
      rw [hsame] at horder
      exact ⟨congrArg some horder.symm, hpositive⟩
    · rintro ⟨hsame, hpositive⟩
      obtain rfl := Option.some.inj hsame
      exact ⟨List.forall_mem_nil _, rfl, hpositive, rfl⟩
  | cons event rest ih =>
    rw [remains_cons_iff, List.foldlM_cons, Option.bind_eq_bind, Option.bind_eq_some_iff]
    simp only [ih, ← exists_and_right, and_assoc]

end OrderRecord

namespace OrderBook

-- The record that an event makes.
def made (book : OrderBook) : OrderEvent → Option OrderRecord
  | .add message => some (add_record message)
  | .replace message =>
    book.active_orders[message.original_order_reference]?.map (replacement message)
  | _ => none

section Step

variable {book : OrderBook} (h : book.Invariant) {id : OrderId} {order : OrderRecord}
  {event : OrderEvent}

include h

theorem Invariant.after_of_other (hended : event.ended ≠ some id) (htaken : event.taken id = 0) :
    (∃ held, book.active_orders[id]? = some held ∧ held.after event = some order) ↔
      book.active_orders[id]? = some order := by
  have hkept : ∀ held, book.active_orders[id]? = some held → held.after event = some held := by
    intro held hheld
    have hid := (h.orders id held hheld).id_eq
    exact OrderRecord.after_of_other (h.orders id held hheld).remaining (by rwa [hid])
      (by rwa [hid])
  constructor
  · rintro ⟨held, hheld, hafter⟩
    rwa [← (hkept held hheld).symm.trans hafter]
  · intro hheld
    exact ⟨order, hheld, hkept order hheld⟩

theorem Invariant.after_of_ended (hended : event.ended = some id) :
    ¬∃ held, book.active_orders[id]? = some held ∧ held.after event = some order := by
  rintro ⟨held, hheld, hafter⟩
  rw [← (h.orders id held hheld).id_eq] at hended
  exact (OrderRecord.after_eq_some_iff.mp hafter).1 hended

omit h in
theorem not_after_of_fresh (hfresh : book.active_orders[id]? = none)
    {after : OrderRecord → Option OrderRecord} :
    ¬∃ held, book.active_orders[id]? = some held ∧ after held = some order := by
  rw [hfresh]
  rintro ⟨_, hheld, -⟩
  cases hheld

theorem Invariant.apply_order_reduction {locate : StockLocate} {reference : OrderId}
    {shares : Shares} {kind : ReductionKind}
    (hreduction : event.reduction = some (locate, reference, shares, kind))
    {active : OrderRecord} (hfound : book.active_orders[reference]? = some active)
    (hle : shares.toNat ≤ active.remaining.toNat) :
    (reducedOrders book.active_orders reference active shares)[id]? = some order ↔
      ∃ held, book.active_orders[id]? = some held ∧ held.after event = some order := by
  have hended : event.ended = none := by
    cases event with
    | add => cases hreduction
    | delete_order => cases hreduction
    | replace => cases hreduction
    | _ => rfl
  have htaken : event.taken id = if reference = id then shares else 0 := by
    rw [OrderEvent.taken, hreduction]
  by_cases href : reference = id
  · subst href
    rw [if_pos rfl, ← (h.orders reference active hfound).id_eq] at htaken
    have hafter : (∃ held, book.active_orders[reference]? = some held ∧
        held.after event = some order) ↔ active.after event = some order := by
      simp [hfound]
    rw [hafter, OrderRecord.after_eq_some_iff, hended, htaken]
    unfold reducedOrders
    by_cases hall : shares = active.remaining
    · subst hall
      rw [if_pos rfl, ExtTreeMap.getElem?_erase_self]
      simp
    · have hless : shares.toNat < active.remaining.toNat :=
        Nat.lt_of_le_of_ne hle fun heq => hall (UInt32.toNat_inj.mp heq)
      rw [if_neg hall, ExtTreeMap.getElem?_insert_self]
      simp [hless, eq_comm]
  · rw [if_neg href] at htaken
    rw [h.after_of_other (by rw [hended]; exact (Option.some_ne_none id).symm) htaken]
    unfold reducedOrders
    split_ifs
    · rw [FiniteMap.getElem?_erase, if_neg href]
    · rw [FiniteMap.getElem?_insert, if_neg href]

omit h in
theorem getElem?_insert_record (orders : ActiveOrders) (record : OrderRecord) :
    (orders.insert record.id record)[id]? = some order ↔
      (some record = some order ∧ order.id = id) ∨
        (record.id ≠ id ∧ orders[id]? = some order) := by
  rw [FiniteMap.getElem?_insert]
  constructor
  · split_ifs with hid
    · rintro ⟨⟩
      exact .inl ⟨rfl, hid⟩
    · exact fun hfound => .inr ⟨hid, hfound⟩
  · rintro (⟨⟨⟩, hid⟩ | ⟨hid, hfound⟩)
    · exact if_pos hid
    · rwa [if_neg hid]

theorem Invariant.apply_order_add (message : AddOrder)
    (haccept : OrderLedger.Accepts book.stock_locate book.view (.add message)) :
    (book.add message).2.active_orders[id]? = some order ↔
      (some (add_record message) = some order ∧ order.id = id) ∨
        ∃ held, book.active_orders[id]? = some held ∧ held.after (.add message) = some order := by
  obtain ⟨hpasses, -⟩ := (accepts_add_iff message).mp haccept
  rw [(add_advances h message haccept).active_orders]
  refine (getElem?_insert_record book.active_orders (add_record message)).trans ?_
  apply or_congr_right
  by_cases hnew : message.order_reference = id
  · subst hnew
    exact iff_of_false (fun hother => hother.1 rfl) (not_after_of_fresh hpasses.fresh)
  · have hended : (OrderEvent.add message).ended ≠ some id := (Option.some_ne_none id).symm
    rw [h.after_of_other hended rfl]
    exact and_iff_right hnew

theorem Invariant.apply_order_delete (message : OrderDelete)
    (haccept : OrderLedger.Accepts book.stock_locate book.view (.delete_order message)) :
    (book.delete_order message).2.active_orders[id]? = some order ↔
      ∃ held, book.active_orders[id]? = some held ∧
        held.after (.delete_order message) = some order := by
  obtain ⟨hlocate, entry, hentry⟩ := haccept
  obtain ⟨active, hfound, -⟩ := view_eq_some hentry
  rw [(delete_advances h message hlocate hfound).active_orders, FiniteMap.getElem?_erase]
  by_cases hold : message.order_reference = id
  · rw [if_pos hold]
    exact iff_of_false (Option.some_ne_none order).symm (h.after_of_ended (congrArg some hold))
  · have hended : (OrderEvent.delete_order message).ended ≠ some id :=
      fun heq => hold (Option.some.inj heq)
    rw [if_neg hold, h.after_of_other hended rfl]

theorem Invariant.apply_order_replace (message : OrderReplace)
    (haccept : OrderLedger.Accepts book.stock_locate book.view (.replace message)) :
    (book.replace message).2.active_orders[id]? = some order ↔
      (book.made (.replace message) = some order ∧ order.id = id) ∨
        ∃ held, book.active_orders[id]? = some held ∧
          held.after (.replace message) = some order := by
  obtain ⟨original, hpasses, hroom⟩ := (accepts_replace_iff message).mp haccept
  rw [(replace_advances h message hpasses hroom).active_orders, made, hpasses.found,
    Option.map_some]
  refine (getElem?_insert_record _ (replacement message original)).trans ?_
  apply or_congr_right
  rw [FiniteMap.getElem?_erase]
  by_cases hnew : message.new_order_reference = id
  · subst hnew
    exact iff_of_false (fun hother => hother.1 rfl) (not_after_of_fresh hpasses.fresh)
  · rw [and_iff_right (show (replacement message original).id ≠ id from hnew)]
    by_cases hold : message.original_order_reference = id
    · rw [if_pos hold]
      exact iff_of_false (Option.some_ne_none order).symm (h.after_of_ended (congrArg some hold))
    · have hended : (OrderEvent.replace message).ended ≠ some id :=
        fun heq => hold (Option.some.inj heq)
      rw [if_neg hold, h.after_of_other hended rfl]

-- An order that an event leaves is one that it makes, or what it leaves of one that was
-- there.
theorem Invariant.apply_order (hok : book.Succeeds event) :
    (book.apply event).2.active_orders[id]? = some order ↔
      (book.made event = some order ∧ order.id = id) ∨
        ∃ held, book.active_orders[id]? = some held ∧ held.after event = some order := by
  have haccept := (apply_ok_iff h event).mp hok
  have hnothing : ¬((none : Option OrderRecord) = some order ∧ order.id = id) :=
    fun hmade => Option.some_ne_none order hmade.1.symm
  have hreduce : ∀ (locate : StockLocate) (reference : OrderId) (shares : Shares)
      (kind : ReductionKind), event.reduction = some (locate, reference, shares, kind) →
      locate = book.stock_locate ∧ Ledger.CanTake book.view reference shares.toNat →
      ((book.reduce locate reference shares kind).2.active_orders[id]? = some order ↔
        ∃ held, book.active_orders[id]? = some held ∧ held.after event = some order) := by
    intro locate reference shares kind hreduction htake
    obtain ⟨active, hpasses⟩ := (canTake_iff locate reference shares).mp htake
    rw [(reduce_advances h locate reference shares kind hpasses).active_orders]
    exact h.apply_order_reduction hreduction hpasses.found hpasses.enough
  cases event with
  | add message => exact h.apply_order_add message haccept
  | execute message =>
    exact (hreduce _ _ _ .Execution rfl haccept).trans (or_iff_right hnothing).symm
  | execute_with_price message =>
    exact (hreduce _ _ _ .Execution rfl haccept).trans (or_iff_right hnothing).symm
  | cancel message =>
    exact (hreduce _ _ _ .Cancel rfl haccept).trans (or_iff_right hnothing).symm
  | delete_order message =>
    exact (h.apply_order_delete message haccept).trans (or_iff_right hnothing).symm
  | replace message => exact h.apply_order_replace message haccept

end Step

-- The events that a book accepted, in their order.
def accepted (locate : StockLocate) (capacity : UInt64) (events : List OrderEvent) :
    List OrderEvent :=
  Machine.answered apply (· = .ok ()) (new locate capacity) events

section Run

variable (locate : StockLocate) (capacity : UInt64)

theorem run_accepted (events : List OrderEvent) :
    Machine.Admits apply Succeeds (new locate capacity) (accepted locate capacity events) ∧
      run locate capacity (accepted locate capacity events) = run locate capacity events := by
  refine @Machine.run_answered _ _ _ apply (· = .ok ()) _ OrderBook.Invariant ?_ ?_ _
    (new_invariant locate capacity) events
  · exact fun _ event h => apply_invariant h event
  · intro book event h hfailed
    cases hresult : (book.apply event).1 with
    | error error => exact apply_error_unchanged h event hresult
    | ok => exact absurd hresult hfailed

variable {locate capacity} {events : List OrderEvent}
  (hadmits : Machine.Admits apply Succeeds (new locate capacity) events)

include hadmits

theorem active_order_foldlM (id : OrderId) (order : OrderRecord) :
    (run locate capacity events).active_orders[id]? = some order ↔
      ∃ earlier birth later born, events = earlier ++ birth :: later ∧
        ((run locate capacity earlier).made birth = some born ∧ born.id = id) ∧
        later.foldlM OrderRecord.after born = some order := by
  have hstep : ∀ book event, OrderBook.Invariant book → Succeeds book event → ∀ order,
      (book.apply event).2.active_orders[id]? = some order ↔
        (book.made event).filter (fun born => born.id = id) = some order ∨
          ∃ held, book.active_orders[id]? = some held ∧ held.after event = some order := by
    intro book event h hok order
    rw [h.apply_order hok, Option.filter_eq_some_iff, decide_eq_true_iff]
  have hnone : ¬∃ held, (new locate capacity).active_orders[id]? = some held ∧
      events.foldlM OrderRecord.after held = some order :=
    not_after_of_fresh ExtTreeMap.getElem?_empty
  have hiff := @Machine.Admits.run_provenance _ _ _ _ apply Succeeds OrderBook.Invariant
    (fun book => book.active_orders[id]?) _ _ (fun _ event h _ => apply_invariant h event) hstep
    _ _ hadmits (new_invariant locate capacity) order
  rw [or_iff_right hnone] at hiff
  simp only [Option.filter_eq_some_iff, decide_eq_true_iff] at hiff
  exact hiff

-- Where every event is accepted, the orders are what the later events left of those made.
theorem active_order_iff (id : OrderId) (order : OrderRecord) :
    (run locate capacity events).active_orders[id]? = some order ↔
      ∃ earlier birth later born, events = earlier ++ birth :: later ∧
        (run locate capacity earlier).made birth = some born ∧ born.id = id ∧
        born.Remains later order := by
  have hiff := active_order_foldlM hadmits id order
  constructor
  · intro hfound
    obtain ⟨h, -⟩ := run_spec locate capacity events
    have hpositive := (h.orders id order hfound).remaining
    obtain ⟨earlier, birth, later, born, hevents, ⟨hmade, hid⟩, hlater⟩ := hiff.mp hfound
    exact ⟨earlier, birth, later, born, hevents, hmade, hid,
      OrderRecord.remains_iff.mpr ⟨hlater, hpositive⟩⟩
  · rintro ⟨earlier, birth, later, born, hevents, hmade, hid, hremains⟩
    exact hiff.mpr ⟨earlier, birth, later, born, hevents, ⟨hmade, hid⟩,
      (OrderRecord.remains_iff.mp hremains).1⟩

end Run

-- The accepted events alone lead to a book, and they say where its orders come from: an
-- order is there exactly when one of them made it, and the later ones left that much of it.
theorem run_traced (locate : StockLocate) (capacity : UInt64) (events : List OrderEvent) :
    let book := run locate capacity events
    let history := accepted locate capacity events
    Machine.Admits apply Succeeds (new locate capacity) history ∧
      run locate capacity history = book ∧
      ∀ (id : OrderId) (order : OrderRecord), book.order id = some order ↔
        ∃ earlier birth later born, history = earlier ++ birth :: later ∧
          (run locate capacity earlier).made birth = some born ∧ born.id = id ∧
          born.Remains later order := by
  intro book history
  obtain ⟨hadmits, hrun⟩ := run_accepted locate capacity events
  refine ⟨hadmits, hrun, ?_⟩
  intro id order
  have hiff := active_order_iff hadmits id order
  rwa [hrun] at hiff

end OrderBook

section Descent

-- Replacements that follow an order from one reference to another.
def Renames : OrderId → List OrderReplace → OrderId → Prop
  | first, [], last => first = last
  | first, message :: rest, last =>
    message.original_order_reference = first ∧ Renames message.new_order_reference rest last

instance Renames.decidable : (first : OrderId) → (messages : List OrderReplace) →
    (last : OrderId) → Decidable (Renames first messages last)
  | first, [], last => inferInstanceAs (Decidable (first = last))
  | first, message :: rest, last =>
    have := Renames.decidable message.new_order_reference rest last
    inferInstanceAs (Decidable (message.original_order_reference = first ∧ _))

theorem Renames.concat {first : OrderId} {messages : List OrderReplace} {message : OrderReplace}
    (h : Renames first messages message.original_order_reference) :
    Renames first (messages ++ [message]) message.new_order_reference := by
  induction messages generalizing first with
  | nil => exact ⟨h.symm, rfl⟩
  | cons other rest ih => exact ⟨h.1, ih h.2⟩

-- The price and the shares of the last message about an order.
def terms (origin : AddOrder) (replacements : List OrderReplace) : Price4 × Shares :=
  match replacements.getLast? with
  | none => (origin.price_1e4, origin.shares)
  | some message => (message.price_1e4, message.shares)

-- An order goes back to one that was added, through replacements sent in that order. They
-- change its reference, price and shares, and nothing else of it.
structure OrderRecord.Descends (order : OrderRecord) (events : List OrderEvent)
    (origin : AddOrder) (replacements : List OrderReplace) : Prop where
  sent : (OrderEvent.add origin :: replacements.map OrderEvent.replace).Sublist events
  renames : Renames origin.order_reference replacements order.id
  side : order.side = origin.side
  attribution : order.attribution = origin.attribution.getD Attribution.zero
  has_attribution : order.has_attribution = origin.attribution.isSome
  price : order.price = (terms origin replacements).1
  shares : order.remaining ≤ (terms origin replacements).2

namespace OrderBook

theorem descends {locate : StockLocate} {capacity : UInt64} {events : List OrderEvent}
    (hadmits : Machine.Admits apply Succeeds (new locate capacity) events) {id : OrderId}
    {order : OrderRecord} (hfound : (run locate capacity events).active_orders[id]? = some order) :
    ∃ origin replacements, order.Descends events origin replacements := by
  induction hlength : events.length using Nat.strong_induction_on
    generalizing events id order with
  | h length ih =>
    obtain ⟨earlier, birth, later, born, rfl, hmade, -, hremains⟩ :=
      (active_order_iff hadmits id order).mp hfound
    have hle : order.remaining ≤ born.remaining := by
      have hshares := hremains.shares
      rw [UInt32.le_iff_toNat_le]
      omega
    have horder := hremains.order_eq
    generalize order.remaining = remaining at hle horder
    subst horder
    cases birth with
    | add message =>
      cases hmade
      have hmem : OrderEvent.add message ∈ earlier ++ .add message :: later := by simp
      exact ⟨message, [], List.singleton_sublist.mpr hmem, rfl, rfl, rfl, rfl, rfl, hle⟩
    | replace message =>
      obtain ⟨original, horiginal, rfl⟩ := Option.map_eq_some_iff.mp hmade
      have hshorter : earlier.length < length := by
        rw [List.length_append, List.length_cons] at hlength
        omega
      obtain ⟨origin, replacements, hdescends⟩ :=
        ih earlier.length hshorter (Machine.admits_append.mp hadmits).1 horiginal rfl
      have hid : original.id = message.original_order_reference :=
        ((run_spec locate capacity earlier).1.orders _ original horiginal).id_eq
      have hsent : (OrderEvent.add origin :: (replacements ++ [message]).map .replace).Sublist
          (earlier ++ .replace message :: later) := by
        rw [List.map_append, ← List.cons_append]
        exact hdescends.sent.append (List.singleton_sublist.mpr List.mem_cons_self)
      have hterms : terms origin (replacements ++ [message]) =
          (message.price_1e4, message.shares) := by
        rw [terms, List.getLast?_concat]
      have hrenames := hdescends.renames
      rw [hid] at hrenames
      refine ⟨origin, replacements ++ [message], hsent, hrenames.concat, hdescends.side,
        hdescends.attribution, hdescends.has_attribution, ?_, ?_⟩
      · rw [hterms]
        rfl
      · rw [hterms]
        exact hle
    | execute => cases hmade
    | execute_with_price => cases hmade
    | cancel => cases hmade
    | delete_order => cases hmade

-- Every order of a book was added once and replaced since. What the replacements leave
-- alone is as it was added.
theorem run_descends (locate : StockLocate) (capacity : UInt64) (events : List OrderEvent)
    (id : OrderId) (order : OrderRecord)
    (hfound : (run locate capacity events).order id = some order) :
    ∃ origin replacements,
      order.Descends (accepted locate capacity events) origin replacements := by
  obtain ⟨hadmits, hrun⟩ := run_accepted locate capacity events
  rw [← hrun] at hfound
  exact descends hadmits hfound

def sampleReplacement (original_order_reference new_order_reference : OrderId)
    (shares : Shares) : OrderReplace :=
  { header := { type := 'U'.toUInt8, stock_locate := 7, tracking_number := 0, timestamp_ns := 0 },
    original_order_reference, new_order_reference, shares, price_1e4 := 2000000 }

-- The second replacement is refused.
def sampleRenamed : List OrderEvent :=
  [.add (sampleBid 1 60), .replace (sampleReplacement 1 2 40), .replace (sampleReplacement 1 3 20),
    .execute (sampleExecution 2 10)]

theorem sampleRenamed_descends : ∃ origin replacements,
    ({ replacement (sampleReplacement 1 2 40) (add_record (sampleBid 1 60)) with
      remaining := 30 } : OrderRecord).Descends (accepted 7 0 sampleRenamed) origin
        replacements :=
  run_descends 7 0 sampleRenamed 2 _ (by decide)

example : Renames 1 [sampleReplacement 1 2 40, sampleReplacement 2 5 10] 5 := by decide

end OrderBook

end Descent

end AegisFeed
