import AegisFeed.Book.OrderBook.Levels

namespace AegisFeed

open Std

section

variable {order : Price4 → Price4 → Ordering} [TransCmp order] {levels : LevelMap order}
  {orders : ActiveOrders} {side : Side} {id : OrderId} {active : OrderRecord}

-- The level an order rests at, split into the order and the rest of the level.
theorem LevelsMatch.level_of_order (h : LevelsMatch levels orders side)
    (hfound : orders[id]? = some active) (hside : active.side = side) :
    ∃ level, levels[active.price]? = some level ∧
      level.aggregate_shares.toNat =
        restingShares (orders.erase id) side active.price + active.remaining.toNat ∧
      level.order_count.toNat = restingCount (orders.erase id) side active.price + 1 := by
  subst side
  have hshares := restingShares_erase active.side active.price hfound
  have hcount := restingCount_erase active.side active.price hfound
  rw [active.sharesAt_self] at hshares
  rw [active.countAt_self] at hcount
  obtain ⟨level, hlevel⟩ := (h.contains_iff active.price).mpr (by omega)
  obtain ⟨_, hs, hc⟩ := h.represents hlevel
  exact ⟨level, hlevel, by omega, by omega⟩

-- The checks before an order leaves its level all pass.
theorem removal_checks {level : PriceLevel} {remaining : Shares} {shares count : Nat}
    (hshares : level.aggregate_shares.toNat = shares + remaining.toNat)
    (hcount : level.order_count.toNat = count + 1) (hlow : count ≤ shares)
    (hhigh : shares ≤ count * (2 ^ 32 - 1)) :
    level.order_count ≠ 0 ∧ ¬level.aggregate_shares < remaining.toUInt64 ∧
    (level.order_count = 1 ↔ level.aggregate_shares - remaining.toUInt64 = 0) := by
  have hsub : (level.aggregate_shares - remaining.toUInt64).toNat = shares := by
    rw [Words.toNat_sub_widen (by omega)]
    omega
  refine ⟨?_, ?_, ?_⟩
  · rw [ne_eq, Words.eq_zero32_iff]
    omega
  · rw [Words.lt_widen_iff]
    omega
  · rw [Words.eq_one32_iff, Words.eq_zero64_iff, hsub, hcount]
    omega

theorem LevelsMatch.leaving (h : LevelsMatch levels orders side) (hpositive : AllPositive orders)
    (hfound : orders[id]? = some active) (hside : active.side = side) :
    ∃ level, levels[active.price]? = some level ∧
      level.aggregate_shares.toNat =
        restingShares (orders.erase id) side active.price + active.remaining.toNat ∧
      level.order_count.toNat = restingCount (orders.erase id) side active.price + 1 ∧
      level.order_count ≠ 0 ∧ ¬level.aggregate_shares < active.remaining.toUInt64 ∧
      (level.order_count = 1 ↔ level.aggregate_shares - active.remaining.toUInt64 = 0) := by
  obtain ⟨level, hlevel, hs, hc⟩ := h.level_of_order hfound hside
  have hlow := restingCount_le_restingShares side active.price (hpositive.erase id)
  have hhigh := restingShares_le_mul_restingCount (orders.erase id) side active.price
  exact ⟨level, hlevel, hs, hc, removal_checks hs hc hlow hhigh⟩

-- With at most 2^32 - 1 orders of at most 2^32 - 1 shares, a level has room for the
-- shares of any further order.
theorem LevelsMatch.aggregate_room (h : LevelsMatch levels orders side) {price : Price4}
    {level : PriceLevel} (hlevel : levels[price]? = some level) (shares : Shares) :
    level.aggregate_shares.toNat + shares.toNat < 2 ^ 64 := by
  obtain ⟨_, hs, hc⟩ := h.represents hlevel
  have hhigh := restingShares_le_mul_restingCount orders side price
  have hcount := level.order_count.toNat_lt
  have hshares := shares.toNat_lt
  have hmul : restingCount orders side price * (2 ^ 32 - 1) ≤ (2 ^ 32 - 1) * (2 ^ 32 - 1) :=
    Nat.mul_le_mul_right _ (by omega)
  omega

-- A stored level passes the checks for an empty one.
theorem LevelsMatch.occupied (h : LevelsMatch levels orders side) (hpositive : AllPositive orders)
    {price : Price4} {level : PriceLevel} (hlevel : levels[price]? = some level) :
    ¬level.order_count = 0 ∧ ¬level.aggregate_shares = 0 := by
  obtain ⟨hpos, hs, hc⟩ := h.represents hlevel
  have hlow := restingCount_le_restingShares side price hpositive
  rw [Words.eq_zero32_iff, Words.eq_zero64_iff]
  omega

theorem LevelsMatch.count_eq_max_iff (h : LevelsMatch levels orders side) {price : Price4}
    {level : PriceLevel} (hlevel : levels[price]? = some level) :
    level.order_count = uint32_max ↔ restingCount orders side price = 2 ^ 32 - 1 := by
  rw [← (h.represents hlevel).2.2]
  exact Words.eq_max32_iff level.order_count

variable [LawfulEqCmp order]

-- A whole order leaves its level; the level goes when it was the last one.
theorem LevelsMatch.remove (h : LevelsMatch levels orders side)
    (hfound : orders[id]? = some active) {level : PriceLevel}
    (hshares : level.aggregate_shares.toNat =
      restingShares (orders.erase id) side active.price + active.remaining.toNat)
    (hcount : level.order_count.toNat =
      restingCount (orders.erase id) side active.price + 1) :
    LevelsMatch
      (if level.order_count - 1 = 0 then levels.erase active.price
        else levels.insert active.price
          { aggregate_shares := level.aggregate_shares - active.remaining.toUInt64,
            order_count := level.order_count - 1 })
      (orders.erase id) side := by
  have hpred : (level.order_count - 1).toNat =
      restingCount (orders.erase id) side active.price := by
    rw [Words.toNat_pred32 (by omega)]
    omega
  have hsub : (level.aggregate_shares - active.remaining.toUInt64).toNat =
      restingShares (orders.erase id) side active.price := by
    rw [Words.toNat_sub_widen (by omega)]
    omega
  have hsame : ∀ p, p ≠ active.price → SameRestingAt orders (orders.erase id) side p :=
    fun _ hp => SameRestingAt.erase hfound fun hn => hp hn.2.symm
  split_ifs with hz
  · rw [Words.eq_zero32_iff, hpred] at hz
    exact h.erase active.price hsame hz
  · rw [Words.eq_zero32_iff, hpred] at hz
    exact h.insert active.price hsame (by omega) hsub hpred

-- A new order joins an existing level.
theorem LevelsMatch.join (h : LevelsMatch levels orders side) (hfresh : orders[id]? = none)
    (hside : active.side = side) {level : PriceLevel}
    (hlevel : levels[active.price]? = some level)
    (hroom : restingCount orders side active.price < 2 ^ 32 - 1) :
    LevelsMatch
      (levels.insert active.price
        { aggregate_shares := level.aggregate_shares + active.remaining.toUInt64,
          order_count := level.order_count + 1 })
      (orders.insert id active) side := by
  subst side
  obtain ⟨_, hs, hc⟩ := h.represents hlevel
  have hshares := restingShares_insert active.side active.price hfresh active
  have hcount := restingCount_insert active.side active.price hfresh active
  rw [active.sharesAt_self] at hshares
  rw [active.countAt_self] at hcount
  apply h.insert active.price
  · exact fun _ hp => SameRestingAt.insert hfresh fun hn => hp hn.2.symm
  · omega
  · rw [Words.toNat_add_widen (h.aggregate_room hlevel active.remaining), hs, hshares]
  · rw [Words.toNat_succ32 (by omega), hc, hcount]

-- A new order opens a level of its own.
theorem LevelsMatch.open (h : LevelsMatch levels orders side) (hfresh : orders[id]? = none)
    (hside : active.side = side) (hlevel : levels[active.price]? = none) :
    LevelsMatch
      (levels.insert active.price
        { aggregate_shares := active.remaining.toUInt64, order_count := 1 })
      (orders.insert id active) side := by
  subst side
  have hz := h.restingCount_eq_zero hlevel
  have hs := restingShares_le_mul_restingCount orders active.side active.price
  have hshares := restingShares_insert active.side active.price hfresh active
  have hcount := restingCount_insert active.side active.price hfresh active
  rw [active.sharesAt_self] at hshares
  rw [active.countAt_self] at hcount
  apply h.insert active.price
  · exact fun _ hp => SameRestingAt.insert hfresh fun hn => hp hn.2.symm
  · omega
  · rw [UInt32.toNat_toUInt64]
    omega
  · rw [hcount, hz]
    rfl

-- Part of an order leaves its level.
theorem LevelsMatch.shrink (h : LevelsMatch levels orders side)
    (hfound : orders[id]? = some active) (hside : active.side = side) {level : PriceLevel}
    (hshares : level.aggregate_shares.toNat =
      restingShares (orders.erase id) side active.price + active.remaining.toNat)
    (hcount : level.order_count.toNat =
      restingCount (orders.erase id) side active.price + 1)
    {shares : Shares} (hless : shares.toNat < active.remaining.toNat) :
    LevelsMatch
      (levels.insert active.price
        { level with aggregate_shares := level.aggregate_shares - shares.toUInt64 })
      (orders.insert id { active with remaining := active.remaining - shares }) side := by
  subst side
  have hnew : (active.remaining - shares).toNat = active.remaining.toNat - shares.toNat :=
    Words.toNat_sub32 (by omega)
  have hs := restingShares_erase active.side active.price hfound
  have hc := restingCount_erase active.side active.price hfound
  have hs' := restingShares_replace active.side active.price hfound
    { active with remaining := active.remaining - shares }
  have hc' := restingCount_replace active.side active.price hfound
    { active with remaining := active.remaining - shares }
  simp only [OrderRecord.sharesAt, OrderRecord.countAt, and_self, if_true, hnew] at hs hc hs' hc'
  apply h.insert active.price
  · exact fun _ hp =>
      SameRestingAt.replace hfound (fun hn => hp hn.2.symm) fun hn => hp hn.2.symm
  · omega
  · rw [Words.toNat_sub_widen (by omega)]
    omega
  · show level.order_count.toNat = _
    omega

-- An order and a new one at its price change places.
theorem LevelsMatch.exchange (h : LevelsMatch levels orders side)
    (hfound : orders[id]? = some active) {level : PriceLevel}
    (hlevel : levels[active.price]? = some level)
    (hshares : level.aggregate_shares.toNat =
      restingShares (orders.erase id) side active.price + active.remaining.toNat)
    (hcount : level.order_count.toNat =
      restingCount (orders.erase id) side active.price + 1)
    {fresh : OrderId} {new : OrderRecord} (hfresh : (orders.erase id)[fresh]? = none)
    (hside : new.side = side) (hprice : new.price = active.price) :
    LevelsMatch
      (levels.insert active.price { level with aggregate_shares :=
        level.aggregate_shares - active.remaining.toUInt64 + new.remaining.toUInt64 })
      ((orders.erase id).insert fresh new) side := by
  have hsub : (level.aggregate_shares - active.remaining.toUInt64).toNat =
      restingShares (orders.erase id) side active.price := by
    rw [Words.toNat_sub_widen (by omega)]
    omega
  have hroom := h.aggregate_room hlevel new.remaining
  have hs := restingShares_insert side active.price hfresh new
  have hc := restingCount_insert side active.price hfresh new
  simp only [OrderRecord.sharesAt, OrderRecord.countAt, hside, hprice, and_self, if_true] at hs hc
  apply h.insert active.price
  · exact fun _ hp => (SameRestingAt.erase hfound fun hn => hp hn.2.symm).trans
      (SameRestingAt.insert hfresh fun hn => hp (hn.2.symm.trans hprice))
  · omega
  · rw [Words.toNat_add_widen (by omega), hsub, hs]
  · show level.order_count.toNat = _
    omega

end

namespace OrderBook

section

variable {order : Price4 → Price4 → Ordering} [TransCmp order] {levels : LevelMap order}
  {orders : ActiveOrders} {side : Side}

theorem overflow_guard_iff (a b : UInt64) :
    b > uint64_max - a ↔ 2 ^ 64 ≤ a.toNat + b.toNat :=
  Words.gt_max_sub_iff a b

theorem add_guard_passes (h : LevelsMatch levels orders side) {price : Price4}
    {level : PriceLevel} (hlevel : levels[price]? = some level) (shares : Shares) :
    ¬shares.toUInt64 > uint64_max - level.aggregate_shares := by
  rw [overflow_guard_iff, UInt32.toNat_toUInt64]
  have := h.aggregate_room hlevel shares
  omega

theorem add_to_side_full (h : LevelsMatch levels orders side) (message : AddOrder)
    (record : OrderRecord)
    (hfull : restingCount orders side message.price_1e4 = 2 ^ 32 - 1) :
    add_to_side message record orders levels =
      (.error (Error.book_arithmetic_overflow
        "adding an order would overflow the price-level order count"
        uint32_max.toUInt64 uint32_max.toUInt64), orders, levels) := by
  obtain ⟨level, hlevel⟩ := (h.contains_iff message.price_1e4).mpr (by omega)
  have hcount := (h.count_eq_max_iff hlevel).mpr hfull
  simp only [add_to_side, hlevel, if_neg (add_guard_passes h hlevel message.shares), hcount,
    if_true]

variable [LawfulEqCmp order]

theorem add_to_side_spec (h : LevelsMatch levels orders side) {message : AddOrder}
    {record : OrderRecord} (hfresh : orders[message.order_reference]? = none)
    (hside : record.side = side) (hprice : record.price = message.price_1e4)
    (hshares : record.remaining = message.shares)
    (hroom : restingCount orders side message.price_1e4 < 2 ^ 32 - 1) :
    ∃ levels', add_to_side message record orders levels =
        (.ok (), orders.insert message.order_reference record, levels') ∧
      LevelsMatch levels' (orders.insert message.order_reference record) side := by
  have hinsert := FiniteMap.insertIfNew_of_none orders _ record hfresh
  cases hlevel : levels[message.price_1e4]? with
  | none =>
    refine ⟨levels.insert message.price_1e4
      { aggregate_shares := message.shares.toUInt64, order_count := 1 }, ?_, ?_⟩
    · simp only [add_to_side, hlevel, hinsert,
        FiniteMap.insertIfNew_of_none levels _ _ hlevel]
    · rw [← hprice, ← hshares]
      exact h.open hfresh hside (hprice ▸ hlevel)
  | some level =>
    have hcount : level.order_count ≠ uint32_max := by
      rw [ne_eq, h.count_eq_max_iff hlevel]
      omega
    refine ⟨levels.insert message.price_1e4
      { aggregate_shares := level.aggregate_shares + message.shares.toUInt64,
        order_count := level.order_count + 1 }, ?_, ?_⟩
    · simp only [add_to_side, hlevel, hinsert,
        if_neg (add_guard_passes h hlevel message.shares), if_neg hcount]
    · rw [← hprice, ← hshares]
      exact h.join hfresh hside (hprice ▸ hlevel) (hprice ▸ hroom)

section Resting

variable {id : OrderId} {active : OrderRecord} (h : LevelsMatch levels orders side)
  (hpositive : AllPositive orders) (hfound : orders[id]? = some active)
  (hside : active.side = side)

include h hpositive hfound hside

theorem delete_from_side_spec :
    ∃ levels', delete_from_side id active orders levels =
        (.ok (), orders.erase id, levels') ∧
      LevelsMatch levels' (orders.erase id) side := by
  obtain ⟨level, hlevel, hs, hc, hcount, hless, hempty⟩ := h.leaving hpositive hfound hside
  refine ⟨_, ?_, h.remove hfound hs hc⟩
  simp only [delete_from_side, hlevel, if_neg hcount, if_neg hless, if_neg (not_not.mpr hempty)]

-- A reduction by all remaining shares is a deletion.
theorem reduce_from_side_full :
    ∃ levels', reduce_from_side id active active.remaining orders levels =
        (.ok (), orders.erase id, levels') ∧
      LevelsMatch levels' (orders.erase id) side := by
  obtain ⟨level, hlevel, hs, hc, hcount, hless, hempty⟩ := h.leaving hpositive hfound hside
  refine ⟨_, ?_, h.remove hfound hs hc⟩
  simp only [reduce_from_side, hlevel, if_neg hcount, if_neg hless,
    if_neg (not_not.mpr hempty), if_true]

omit hpositive in
theorem reduce_from_side_partial {shares : Shares}
    (hshares : shares.toNat < active.remaining.toNat) :
    ∃ levels', reduce_from_side id active shares orders levels =
        (.ok (), orders.insert id { active with remaining := active.remaining - shares },
          levels') ∧
      LevelsMatch levels'
        (orders.insert id { active with remaining := active.remaining - shares }) side := by
  obtain ⟨level, hlevel, hs, hc⟩ := h.level_of_order hfound hside
  have hcount : level.order_count ≠ 0 := by
    rw [ne_eq, Words.eq_zero32_iff]
    omega
  have hless : ¬level.aggregate_shares < shares.toUInt64 := by
    rw [Words.lt_widen_iff]
    omega
  have hne : ¬shares = active.remaining := by
    rintro rfl
    omega
  have hrest : ¬level.aggregate_shares - shares.toUInt64 = 0 := by
    rw [Words.eq_zero64_iff, Words.toNat_sub_widen (by omega)]
    omega
  refine ⟨_, ?_, h.shrink hfound hside hs hc hshares⟩
  simp only [reduce_from_side, hlevel, if_neg hcount, if_neg hless, if_neg hne, if_neg hrest]

end Resting

section Replace

-- Taking an order out of its level leaves the other prices alone.
theorem reduced_getElem? (levels : LevelMap order) (level : PriceLevel)
    {source price : Price4} (hprice : price ≠ source) (rest : PriceLevel) :
    (if level.order_count - 1 = 0 then levels.erase source
      else levels.insert source rest)[price]? = levels[price]? := by
  split_ifs
  · rw [FiniteMap.getElem?_erase, if_neg (Ne.symm hprice)]
  · rw [FiniteMap.getElem?_insert, if_neg (Ne.symm hprice)]

variable {message : OrderReplace} {original : OrderRecord}
  (h : LevelsMatch levels orders side) (hpositive : AllPositive orders)
  (hfound : orders[message.original_order_reference]? = some original)
  (hside : original.side = side)

include h hpositive hfound hside

omit [LawfulEqCmp order] in
theorem replace_on_side_full (hprice : message.price_1e4 ≠ original.price)
    (hfull : restingCount orders side message.price_1e4 = 2 ^ 32 - 1) :
    replace_on_side message original orders levels =
      (.error (Error.book_arithmetic_overflow
        "replacement would overflow the destination-level order count"
        uint32_max.toUInt64 uint32_max.toUInt64), orders, levels) := by
  obtain ⟨level, hlevel, hs, hc, hcount, hless, hempty⟩ := h.leaving hpositive hfound hside
  obtain ⟨target, htarget⟩ := (h.contains_iff message.price_1e4).mpr (by omega)
  obtain ⟨htcount, htshares⟩ := h.occupied hpositive htarget
  have hmax := (h.count_eq_max_iff htarget).mpr hfull
  simp only [replace_on_side, hlevel, if_neg hcount, if_neg hless, if_neg (not_not.mpr hempty),
    if_neg hprice, htarget, if_neg htshares, if_neg (add_guard_passes h htarget message.shares),
    hmax, if_true]
  exact if_neg (by decide)

variable (hfresh : (orders.erase message.original_order_reference)[message.new_order_reference]? =
    none)

include hfresh

-- The replacement stays at the price of the original: one level exchanges the two.
theorem replace_on_side_exchange (hprice : message.price_1e4 = original.price) :
    ∃ levels', replace_on_side message original orders levels =
        (.ok (), (orders.erase message.original_order_reference).insert
          message.new_order_reference (replacement message original), levels') ∧
      LevelsMatch levels' ((orders.erase message.original_order_reference).insert
        message.new_order_reference (replacement message original)) side := by
  obtain ⟨level, hlevel, hs, hc, hcount, hless, hempty⟩ := h.leaving hpositive hfound hside
  have hroom := h.aggregate_room hlevel message.shares
  have hguard : ¬message.shares.toUInt64 >
      uint64_max - (level.aggregate_shares - original.remaining.toUInt64) := by
    rw [overflow_guard_iff, UInt32.toNat_toUInt64, Words.toNat_sub_widen (by omega)]
    omega
  have hinsert := FiniteMap.insertIfNew_of_none _ _ (replacement message original) hfresh
  refine ⟨_, ?_, h.exchange hfound hlevel hs hc hfresh hside hprice⟩
  simp only [replace_on_side, hlevel, if_neg hcount, if_neg hless, if_neg (not_not.mpr hempty),
    if_pos hprice, if_neg hguard, hinsert]
  rfl

-- The original leaves its level, and the replacement opens one.
theorem replace_on_side_open (hprice : message.price_1e4 ≠ original.price)
    (htarget : levels[message.price_1e4]? = none) :
    ∃ levels', replace_on_side message original orders levels =
        (.ok (), (orders.erase message.original_order_reference).insert
          message.new_order_reference (replacement message original), levels') ∧
      LevelsMatch levels' ((orders.erase message.original_order_reference).insert
        message.new_order_reference (replacement message original)) side := by
  obtain ⟨level, hlevel, hs, hc, hcount, hless, hempty⟩ := h.leaving hpositive hfound hside
  have hinsert := FiniteMap.insertIfNew_of_none _ _ (replacement message original) hfresh
  have hlookup := (reduced_getElem? levels level hprice
    { aggregate_shares := level.aggregate_shares - original.remaining.toUInt64,
      order_count := level.order_count - 1 }).trans htarget
  have hrecord : (replacement message original).side = side := hside
  refine ⟨_, ?_, (h.remove hfound hs hc).open hfresh hrecord hlookup⟩
  simp only [replace_on_side, hlevel, if_neg hcount, if_neg hless, if_neg (not_not.mpr hempty),
    if_neg hprice, htarget, FiniteMap.insertIfNew_of_none _ _ _ hlookup, hinsert]
  rfl

-- The original leaves its level, and the replacement joins another one.
theorem replace_on_side_join (hprice : message.price_1e4 ≠ original.price)
    {target : PriceLevel} (htarget : levels[message.price_1e4]? = some target)
    (hroom : restingCount orders side message.price_1e4 < 2 ^ 32 - 1) :
    ∃ levels', replace_on_side message original orders levels =
        (.ok (), (orders.erase message.original_order_reference).insert
          message.new_order_reference (replacement message original), levels') ∧
      LevelsMatch levels' ((orders.erase message.original_order_reference).insert
        message.new_order_reference (replacement message original)) side := by
  obtain ⟨level, hlevel, hs, hc, hcount, hless, hempty⟩ := h.leaving hpositive hfound hside
  obtain ⟨htcount, htshares⟩ := h.occupied hpositive htarget
  have htmax : ¬target.order_count = uint32_max := by
    rw [h.count_eq_max_iff htarget]
    omega
  have hinsert := FiniteMap.insertIfNew_of_none _ _ (replacement message original) hfresh
  have hlookup := (reduced_getElem? levels level hprice
    { aggregate_shares := level.aggregate_shares - original.remaining.toUInt64,
      order_count := level.order_count - 1 }).trans htarget
  -- the original rested elsewhere, so the destination counts the same orders without it
  have hsame : SameRestingAt orders (orders.erase message.original_order_reference) side
      message.price_1e4 := SameRestingAt.erase hfound fun hn => hprice hn.2.symm
  have hrecord : (replacement message original).side = side := hside
  rw [← hsame.2] at hroom
  refine ⟨_, ?_, (h.remove hfound hs hc).join hfresh hrecord hlookup hroom⟩
  simp only [replace_on_side, hlevel, if_neg hcount, if_neg hless, if_neg (not_not.mpr hempty),
    if_neg hprice, htarget, if_neg htcount, if_neg htshares,
    if_neg (add_guard_passes h htarget message.shares), if_neg htmax, hinsert]
  rfl

theorem replace_on_side_spec
    (hroom : message.price_1e4 = original.price ∨
      restingCount orders side message.price_1e4 < 2 ^ 32 - 1) :
    ∃ levels', replace_on_side message original orders levels =
        (.ok (), (orders.erase message.original_order_reference).insert
          message.new_order_reference (replacement message original), levels') ∧
      LevelsMatch levels' ((orders.erase message.original_order_reference).insert
        message.new_order_reference (replacement message original)) side := by
  by_cases hprice : message.price_1e4 = original.price
  · exact replace_on_side_exchange h hpositive hfound hside hfresh hprice
  cases htarget : levels[message.price_1e4]? with
  | none => exact replace_on_side_open h hpositive hfound hside hfresh hprice htarget
  | some target =>
    exact replace_on_side_join h hpositive hfound hside hfresh hprice htarget
      (hroom.resolve_left hprice)

end Replace

end

end OrderBook

end AegisFeed
