import AegisFeed.Book.OrderBook.View

namespace AegisFeed

open Std

theorem shares_pos_iff (shares : Shares) : 0 < shares.toNat ↔ shares ≠ 0 := by
  rw [ne_eq, Words.eq_zero32_iff]
  omega

namespace OrderBook

variable {book : OrderBook}

theorem add_record_resting (message : AddOrder) :
    (add_record message).resting = message.resting := by
  unfold add_record OrderRecord.resting AddOrder.resting
  cases message.attribution <;> rfl

-- An error that stands neither for a broken invariant nor for an arithmetic limit.
def Routine (error : Error) : Prop :=
  error.code ≠ .BookInvariantViolation ∧ error.code ≠ .BookArithmeticOverflow

theorem Routine.rejects {error : Error} (h : Routine error) (full : Prop) :
    Rejects book full (.error error, book) :=
  ⟨⟨error, rfl, h.1, fun hcode => absurd hcode h.2⟩, rfl⟩

section WellFormedOrders

variable {orders : ActiveOrders} {locate : StockLocate}
  (h : ∀ (id : OrderId) (order : OrderRecord),
    orders[id]? = some order → order.WellFormed locate id)

include h

theorem wellFormed_insert {id : OrderId} {record : OrderRecord}
    (hrecord : record.WellFormed locate id) :
    ∀ (k : OrderId) (order : OrderRecord),
      (orders.insert id record)[k]? = some order → order.WellFormed locate k := by
  intro k order hfound
  rw [FiniteMap.getElem?_insert] at hfound
  split_ifs at hfound with hk
  · cases hfound
    exact hk ▸ hrecord
  · exact h k order hfound

theorem wellFormed_erase (id : OrderId) :
    ∀ (k : OrderId) (order : OrderRecord),
      (orders.erase id)[k]? = some order → order.WellFormed locate k := by
  intro k order hfound
  rw [FiniteMap.getElem?_erase] at hfound
  split_ifs at hfound
  exact h k order hfound

end WellFormedOrders

section Add

variable (h : book.Invariant) (message : AddOrder)

-- What `add` checks, level by level apart.
structure AddPasses (book : OrderBook) (message : AddOrder) : Prop where
  locate : message.header.stock_locate = book.stock_locate
  side : message.side = Side.Buy ∨ message.side = Side.Sell
  price : message.price_1e4 ≤ kMaxPrice4
  shares : 0 < message.shares.toNat
  fresh : book.active_orders[message.order_reference]? = none

theorem AddPasses.check {message : AddOrder} (h : AddPasses book message) :
    book.check_add message = .ok () := by
  have hside : ¬(message.side ≠ Side.Buy ∧ message.side ≠ Side.Sell) := by
    rintro ⟨hbuy, hsell⟩
    exact h.side.elim hbuy hsell
  unfold check_add
  rw [if_neg (not_not.mpr h.locate), if_neg hside, if_neg ((shares_pos_iff _).mp h.shares),
    if_neg (not_lt.mpr h.price), if_neg ((FiniteMap.not_contains_iff _ _).mpr h.fresh)]

theorem check_add_error (hfails : ¬AddPasses book message) :
    ∃ error, book.check_add message = .error error ∧ Routine error := by
  unfold check_add
  split_ifs with hlocate hside hshares hprice hcontains
  · exact ⟨_, rfl, nofun, nofun⟩
  · exact ⟨_, rfl, nofun, nofun⟩
  · exact ⟨_, rfl, nofun, nofun⟩
  · exact ⟨_, rfl, nofun, nofun⟩
  · exact ⟨_, rfl, nofun, nofun⟩
  · refine absurd ⟨not_not.mp hlocate, ?_, not_lt.mp hprice, (shares_pos_iff _).mpr hshares,
      (FiniteMap.not_contains_iff _ _).mp hcontains⟩ hfails
    by_contra! hneither
    exact hside hneither

-- The ledger accepts the order when the checks pass and its level has room.
theorem accepts_add_iff :
    OrderLedger.Accepts book.stock_locate book.view (.add message) ↔
      AddPasses book message ∧
      restingCount book.active_orders message.side message.price_1e4 < levelCapacity := by
  rw [← countAt_view]
  constructor
  · rintro ⟨hlocate, hside, hprice, hshares, hfresh, hroom⟩
    exact ⟨⟨hlocate, hside, hprice, hshares, (view_getElem?_eq_none_iff _ _).mp hfresh⟩, hroom⟩
  · rintro ⟨hpasses, hroom⟩
    exact ⟨hpasses.locate, hpasses.side, hpasses.price, hpasses.shares,
      (view_getElem?_eq_none_iff _ _).mpr hpasses.fresh, hroom⟩

include h

theorem add_advances
    (haccept : OrderLedger.Accepts book.stock_locate book.view (.add message)) :
    Advances book (book.active_orders.insert message.order_reference (add_record message))
      (book.add message) := by
  obtain ⟨hpasses, hroom⟩ := (accepts_add_iff message).mp haccept
  have hrecord : (add_record message).WellFormed book.stock_locate message.order_reference := by
    refine ⟨rfl, hpasses.locate, hpasses.side, hpasses.shares, hpasses.price, ?_⟩
    intro hnone
    have hn : message.attribution = none := by simpa [add_record] using hnone
    simp [add_record, hn]
  unfold add
  rw [hpasses.check]
  exact h.advances hpasses.side (wellFormed_insert h.orders hrecord)
    (fun other hother => SameResting.insert hpasses.fresh (Ne.symm hother))
    (fun _ _ => add_to_side message (add_record message))
    (fun _ _ _ _ hmatch => add_to_side_spec hmatch hpasses.fresh rfl rfl rfl hroom)

theorem add_rejects
    (hreject : ¬OrderLedger.Accepts book.stock_locate book.view (.add message)) :
    Rejects book
      (restingCount book.active_orders message.side message.price_1e4 = levelCapacity)
      (book.add message) := by
  unfold add
  by_cases hpasses : AddPasses book message
  · -- the level must be full
    have hfull : restingCount book.active_orders message.side message.price_1e4 =
        levelCapacity := by
      have hle := h.restingCount_le hpasses.side message.price_1e4
      by_contra hne
      exact hreject ((accepts_add_iff message).mpr ⟨hpasses, Nat.lt_of_le_of_ne hle hne⟩)
    rw [hpasses.check]
    exact h.overflows hpasses.side hfull (fun _ _ => add_to_side message (add_record message)) _
      rfl (fun _ _ _ _ hmatch => add_to_side_full hmatch message (add_record message) hfull)
  · obtain ⟨error, hcheck, hroutine⟩ := check_add_error message hpasses
    rw [hcheck]
    exact hroutine.rejects _

end Add

-- An order that left, or that keeps what the reduction left of it.
def reducedOrders (orders : ActiveOrders) (id : OrderId) (active : OrderRecord)
    (shares : Shares) : ActiveOrders :=
  if shares = active.remaining then orders.erase id
  else orders.insert id { active with remaining := active.remaining - shares }

section Resting

variable (h : book.Invariant) {id : OrderId} {active : OrderRecord}
  (hfound : book.active_orders[id]? = some active)

-- The last branch of the choice of a side is for a side that no record has.
theorem choose_side {α : Type} {side : Side} (hside : side = Side.Buy ∨ side = Side.Sell)
    (bids asks neither : α) :
    (if side = Side.Buy then bids else if side = Side.Sell then asks else neither) =
      if side = Side.Buy then bids else asks := by
  rcases hside with rfl | rfl
  · rw [if_pos rfl, if_pos rfl]
  · rw [if_neg (by decide), if_pos rfl, if_neg (by decide)]

include h hfound

theorem reduce_step {shares : Shares} (hshares : 0 < shares.toNat)
    (hle : shares.toNat ≤ active.remaining.toNat) :
    Advances book (reducedOrders book.active_orders id active shares)
      (if active.side = Side.Buy then book.onBids (reduce_from_side id active shares)
        else book.onAsks (reduce_from_side id active shares)) := by
  have hactive := h.orders id active hfound
  unfold reducedOrders
  by_cases hall : shares = active.remaining
  · subst hall
    rw [if_pos rfl]
    exact h.advances hactive.side (wellFormed_erase h.orders id)
      (fun other hother => SameResting.erase hfound (Ne.symm hother))
      (fun _ _ => reduce_from_side id active active.remaining)
      (fun _ _ _ _ hmatch => reduce_from_side_full hmatch h.allPositive hfound rfl)
  · have hless : shares.toNat < active.remaining.toNat :=
      Nat.lt_of_le_of_ne hle fun he => hall (UInt32.toNat_inj.mp he)
    have hrest : OrderRecord.WellFormed book.stock_locate id
        { active with remaining := active.remaining - shares } := by
      refine { hactive with remaining := ?_ }
      show 0 < (active.remaining - shares).toNat
      rw [Words.toNat_sub32 hle]
      omega
    rw [if_neg hall]
    exact h.advances hactive.side (wellFormed_insert h.orders hrest)
      (fun other hother => SameResting.replace hfound (Ne.symm hother) (Ne.symm hother))
      (fun _ _ => reduce_from_side id active shares)
      (fun _ _ _ _ hmatch => reduce_from_side_partial hmatch hfound rfl hless)

theorem delete_step :
    Advances book (book.active_orders.erase id)
      (if active.side = Side.Buy then book.onBids (delete_from_side id active)
        else book.onAsks (delete_from_side id active)) :=
  h.advances (h.orders id active hfound).side (wellFormed_erase h.orders id)
    (fun _ hother => SameResting.erase hfound (Ne.symm hother))
    (fun _ _ => delete_from_side id active)
    (fun _ _ _ _ hmatch => delete_from_side_spec hmatch h.allPositive hfound rfl)

end Resting

section Reduce

variable (h : book.Invariant) (stock_locate : StockLocate) (id : OrderId) (shares : Shares)
  (kind : ReductionKind)

structure ReducePasses (book : OrderBook) (stock_locate : StockLocate) (id : OrderId)
    (shares : Shares) (active : OrderRecord) : Prop where
  locate : stock_locate = book.stock_locate
  positive : 0 < shares.toNat
  found : book.active_orders[id]? = some active
  enough : shares.toNat ≤ active.remaining.toNat

theorem canTake_iff :
    (stock_locate = book.stock_locate ∧ Ledger.CanTake book.view id shares.toNat) ↔
      ∃ active, ReducePasses book stock_locate id shares active := by
  constructor
  · rintro ⟨hlocate, hpositive, entry, hentry, hle⟩
    obtain ⟨active, hfound, rfl⟩ := view_eq_some hentry
    exact ⟨active, hlocate, hpositive, hfound, hle⟩
  · rintro ⟨active, hlocate, hpositive, hfound, hle⟩
    exact ⟨hlocate, hpositive, active.resting, view_of_getElem? hfound, hle⟩

include h

theorem ReducePasses.check {stock_locate : StockLocate} {id : OrderId} {shares : Shares}
    {active : OrderRecord} (hpasses : ReducePasses book stock_locate id shares active) :
    book.check_reduce stock_locate id shares kind = .ok active := by
  have hactive := h.orders id active hpasses.found
  have hremaining : active.remaining ≠ 0 := (shares_pos_iff _).mp hactive.remaining
  have hover : ¬shares > active.remaining := by
    rw [gt_iff_lt, UInt32.lt_iff_toNat_lt, Nat.not_lt]
    exact hpasses.enough
  unfold check_reduce
  simp only [if_neg (not_not.mpr hpasses.locate), if_neg ((shares_pos_iff _).mp hpasses.positive),
    hpasses.found, if_neg (not_not.mpr hactive.id_eq), if_neg (not_not.mpr hactive.locate_eq),
    if_neg hremaining, if_neg hover]

theorem check_reduce_error
    (hfails : ∀ active, ¬ReducePasses book stock_locate id shares active) :
    ∃ error, book.check_reduce stock_locate id shares kind = .error error ∧ Routine error := by
  unfold check_reduce
  by_cases hlocate : stock_locate = book.stock_locate
  swap
  · exact ⟨_, if_pos hlocate, nofun, nofun⟩
  by_cases hshares : shares = 0
  · rw [if_neg (not_not.mpr hlocate), if_pos hshares]
    exact ⟨_, rfl, nofun, nofun⟩
  rw [if_neg (not_not.mpr hlocate), if_neg hshares]
  cases hfound : book.active_orders[id]? with
  | none => exact ⟨_, rfl, nofun, nofun⟩
  | some active =>
    have hactive := h.orders id active hfound
    have hremaining : active.remaining ≠ 0 := (shares_pos_iff _).mp hactive.remaining
    have hover : shares > active.remaining := by
      by_contra hle
      rw [gt_iff_lt, UInt32.lt_iff_toNat_lt, Nat.not_lt] at hle
      exact hfails active ⟨hlocate, (shares_pos_iff _).mpr hshares, hfound, hle⟩
    simp only [if_neg (not_not.mpr hactive.id_eq), if_neg (not_not.mpr hactive.locate_eq),
      if_neg hremaining, if_pos hover]
    cases kind with
    | Execution => exact ⟨_, rfl, nofun, nofun⟩
    | Cancel => exact ⟨_, rfl, nofun, nofun⟩

theorem reduce_advances {active : OrderRecord}
    (hpasses : ReducePasses book stock_locate id shares active) :
    Advances book (reducedOrders book.active_orders id active shares)
      (book.reduce stock_locate id shares kind) := by
  have hactive := h.orders id active hpasses.found
  unfold reduce
  simp only [hpasses.check h kind, choose_side hactive.side]
  exact reduce_step h hpasses.found hpasses.positive hpasses.enough

theorem reduce_rejects
    (hreject : ¬(stock_locate = book.stock_locate ∧
      Ledger.CanTake book.view id shares.toNat)) :
    Rejects book False (book.reduce stock_locate id shares kind) := by
  rw [canTake_iff, not_exists] at hreject
  obtain ⟨error, hcheck, hroutine⟩ := check_reduce_error h stock_locate id shares kind hreject
  unfold reduce
  rw [hcheck]
  exact hroutine.rejects _

end Reduce

section Delete

variable (h : book.Invariant) (message : OrderDelete)

include h

theorem delete_advances (hlocate : message.header.stock_locate = book.stock_locate)
    {active : OrderRecord} (hfound : book.active_orders[message.order_reference]? = some active) :
    Advances book (book.active_orders.erase message.order_reference)
      (book.delete_order message) := by
  have hactive := h.orders _ active hfound
  have hremaining : active.remaining ≠ 0 := (shares_pos_iff _).mp hactive.remaining
  have hcheck : book.check_delete message = .ok active := by
    unfold check_delete
    simp only [if_neg (not_not.mpr hlocate), hfound, if_neg (not_not.mpr hactive.id_eq),
      if_neg (not_not.mpr hactive.locate_eq), if_neg hremaining]
  unfold delete_order
  simp only [hcheck, choose_side hactive.side]
  exact delete_step h hfound

omit h in
theorem delete_rejects
    (hreject : ¬(message.header.stock_locate = book.stock_locate ∧
      Ledger.CanRemove book.view message.order_reference)) :
    Rejects book False (book.delete_order message) := by
  have hcheck : ∃ error, book.check_delete message = .error error ∧ Routine error := by
    unfold check_delete
    by_cases hlocate : message.header.stock_locate = book.stock_locate
    swap
    · exact ⟨_, if_pos hlocate, nofun, nofun⟩
    rw [if_neg (not_not.mpr hlocate)]
    cases hfound : book.active_orders[message.order_reference]? with
    | none => exact ⟨_, rfl, nofun, nofun⟩
    | some active =>
      exact absurd ⟨hlocate, active.resting, view_of_getElem? hfound⟩ hreject
  obtain ⟨error, hcheck, hroutine⟩ := hcheck
  unfold delete_order
  rw [hcheck]
  exact hroutine.rejects _

end Delete

section Replace

variable (h : book.Invariant) (message : OrderReplace)

-- The orders after a replacement.
def replacedOrders (orders : ActiveOrders) (original : OrderRecord) : ActiveOrders :=
  (orders.erase message.original_order_reference).insert message.new_order_reference
    (replacement message original)

structure ReplacePasses (book : OrderBook) (message : OrderReplace) (original : OrderRecord) :
    Prop where
  locate : message.header.stock_locate = book.stock_locate
  shares : 0 < message.shares.toNat
  price : message.price_1e4 ≤ kMaxPrice4
  found : book.active_orders[message.original_order_reference]? = some original
  fresh : book.active_orders[message.new_order_reference]? = none

-- The ledger accepts the replacement when the checks pass and its level has room,
-- or is the level of the original.
theorem accepts_replace_iff :
    OrderLedger.Accepts book.stock_locate book.view (.replace message) ↔
      ∃ original, ReplacePasses book message original ∧
        (message.price_1e4 = original.price ∨
          restingCount book.active_orders original.side message.price_1e4 < levelCapacity) := by
  have hplace : ∀ original : OrderRecord,
      (message.place original.resting = original.resting.place ∨
        Ledger.countAt book.view (message.place original.resting) < levelCapacity) ↔
      (message.price_1e4 = original.price ∨
        restingCount book.active_orders original.side message.price_1e4 < levelCapacity) := by
    intro original
    rw [← countAt_view]
    simp [OrderReplace.place, OrderRecord.resting]
  constructor
  · rintro ⟨hlocate, hprice, hshares, entry, hentry, hfresh, hroom⟩
    obtain ⟨original, hfound, rfl⟩ := view_eq_some hentry
    exact ⟨original, ⟨hlocate, hshares, hprice, hfound,
      (view_getElem?_eq_none_iff _ _).mp hfresh⟩, (hplace original).mp hroom⟩
  · rintro ⟨original, hpasses, hroom⟩
    exact ⟨hpasses.locate, hpasses.price, hpasses.shares, original.resting,
      view_of_getElem? hpasses.found, (view_getElem?_eq_none_iff _ _).mpr hpasses.fresh,
      (hplace original).mpr hroom⟩

include h

theorem ReplacePasses.check {message : OrderReplace} {original : OrderRecord}
    (hpasses : ReplacePasses book message original) :
    book.check_replace message = .ok original := by
  have horiginal := h.orders _ original hpasses.found
  have hremaining : original.remaining ≠ 0 := (shares_pos_iff _).mp horiginal.remaining
  unfold check_replace
  simp only [if_neg (not_not.mpr hpasses.locate), if_neg ((shares_pos_iff _).mp hpasses.shares),
    if_neg (not_lt.mpr hpasses.price), hpasses.found, if_neg (not_not.mpr horiginal.id_eq),
    if_neg (not_not.mpr horiginal.locate_eq), if_neg hremaining,
    if_neg ((FiniteMap.not_contains_iff _ _).mpr hpasses.fresh)]

theorem check_replace_error (hfails : ∀ original, ¬ReplacePasses book message original) :
    ∃ error, book.check_replace message = .error error ∧ Routine error := by
  unfold check_replace
  by_cases hlocate : message.header.stock_locate = book.stock_locate
  swap
  · exact ⟨_, if_pos hlocate, nofun, nofun⟩
  by_cases hshares : message.shares = 0
  · rw [if_neg (not_not.mpr hlocate), if_pos hshares]
    exact ⟨_, rfl, nofun, nofun⟩
  by_cases hprice : message.price_1e4 > kMaxPrice4
  · rw [if_neg (not_not.mpr hlocate), if_neg hshares, if_pos hprice]
    exact ⟨_, rfl, nofun, nofun⟩
  rw [if_neg (not_not.mpr hlocate), if_neg hshares, if_neg hprice]
  cases hfound : book.active_orders[message.original_order_reference]? with
  | none => exact ⟨_, rfl, nofun, nofun⟩
  | some original =>
    have horiginal := h.orders _ original hfound
    have hremaining : original.remaining ≠ 0 := (shares_pos_iff _).mp horiginal.remaining
    have hcontains : book.active_orders.contains message.new_order_reference := by
      by_contra hfresh
      exact hfails original ⟨hlocate, (shares_pos_iff _).mpr hshares, not_lt.mp hprice, hfound,
        (FiniteMap.not_contains_iff _ _).mp hfresh⟩
    simp only [if_neg (not_not.mpr horiginal.id_eq), if_neg (not_not.mpr horiginal.locate_eq),
      if_neg hremaining, if_pos hcontains]
    exact ⟨_, rfl, nofun, nofun⟩

theorem replace_advances {original : OrderRecord}
    (hpasses : ReplacePasses book message original)
    (hroom : message.price_1e4 = original.price ∨
      restingCount book.active_orders original.side message.price_1e4 < levelCapacity) :
    Advances book (replacedOrders message book.active_orders original)
      (book.replace message) := by
  have horiginal := h.orders _ original hpasses.found
  have hreplacement : OrderRecord.WellFormed book.stock_locate message.new_order_reference
      (replacement message original) :=
    ⟨rfl, horiginal.locate_eq, horiginal.side, hpasses.shares, hpasses.price,
      horiginal.attribution⟩
  have hfresh :
      (book.active_orders.erase message.original_order_reference)[message.new_order_reference]? =
        none := by
    rw [FiniteMap.getElem?_erase, hpasses.fresh, ite_self]
  unfold replace
  simp only [hpasses.check h, choose_side horiginal.side]
  exact h.advances horiginal.side
    (wellFormed_insert (wellFormed_erase h.orders _) hreplacement)
    (fun _ hother => (SameResting.erase hpasses.found (Ne.symm hother)).trans
      (SameResting.insert hfresh (Ne.symm hother)))
    (fun _ _ => replace_on_side message original)
    (fun _ _ _ _ hmatch =>
      replace_on_side_spec hmatch h.allPositive hpasses.found rfl hfresh hroom)

theorem replace_rejects
    (hreject : ¬OrderLedger.Accepts book.stock_locate book.view (.replace message)) :
    Rejects book
      (∃ original, book.active_orders[message.original_order_reference]? = some original ∧
        message.price_1e4 ≠ original.price ∧
        restingCount book.active_orders original.side message.price_1e4 = levelCapacity)
      (book.replace message) := by
  unfold replace
  by_cases hpasses : ∃ original, ReplacePasses book message original
  · obtain ⟨original, hpasses⟩ := hpasses
    have horiginal := h.orders _ original hpasses.found
    obtain ⟨hmoves, hfull⟩ := not_or.mp fun hroom =>
      hreject ((accepts_replace_iff message).mpr ⟨original, hpasses, hroom⟩)
    have hfull : restingCount book.active_orders original.side message.price_1e4 =
        levelCapacity :=
      Nat.le_antisymm (h.restingCount_le horiginal.side _) (Nat.not_lt.mp hfull)
    simp only [hpasses.check h, choose_side horiginal.side]
    exact h.overflows horiginal.side ⟨original, hpasses.found, hmoves, hfull⟩
      (fun _ _ => replace_on_side message original) _ rfl
      (fun _ _ _ _ hmatch =>
        replace_on_side_full hmatch h.allPositive hpasses.found rfl hmoves hfull)
  · obtain ⟨error, hcheck, hroutine⟩ := check_replace_error h message (not_exists.mp hpasses)
    rw [hcheck]
    exact hroutine.rejects _

end Replace

end OrderBook

end AegisFeed
