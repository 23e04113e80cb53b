import AegisFeed.Book.OrderBook
import AegisFeed.Library.Words

namespace AegisFeed

open Std
open FiniteMap (total)

-- What an order contributes to the level of a side and price.
def OrderRecord.sharesAt (side : Side) (price : Price4) (order : OrderRecord) : Nat :=
  if order.side = side ∧ order.price = price then order.remaining.toNat else 0

def OrderRecord.countAt (side : Side) (price : Price4) (order : OrderRecord) : Nat :=
  if order.side = side ∧ order.price = price then 1 else 0

theorem OrderRecord.sharesAt_self (order : OrderRecord) :
    order.sharesAt order.side order.price = order.remaining.toNat := by
  simp [sharesAt]

theorem OrderRecord.countAt_self (order : OrderRecord) :
    order.countAt order.side order.price = 1 := by
  simp [countAt]

theorem OrderRecord.sharesAt_of_ne {order : OrderRecord} {side : Side} {price : Price4}
    (h : ¬(order.side = side ∧ order.price = price)) : order.sharesAt side price = 0 := by
  simp [sharesAt, h]

theorem OrderRecord.countAt_of_ne {order : OrderRecord} {side : Side} {price : Price4}
    (h : ¬(order.side = side ∧ order.price = price)) : order.countAt side price = 0 := by
  simp [countAt, h]

-- The exact sum of the shares and the exact number of the orders resting there.
def restingShares (orders : ActiveOrders) (side : Side) (price : Price4) : Nat :=
  total (OrderRecord.sharesAt side price) orders

def restingCount (orders : ActiveOrders) (side : Side) (price : Price4) : Nat :=
  total (OrderRecord.countAt side price) orders

def Represents (entry : Option PriceLevel) (shares count : Nat) : Prop :=
  match entry with
  | none => count = 0
  | some level =>
    0 < count ∧ level.aggregate_shares.toNat = shares ∧ level.order_count.toNat = count

-- A level map holds, at every price, what the orders of its side say.
def LevelsMatch {order : Price4 → Price4 → Ordering} [TransCmp order] (levels : LevelMap order)
    (orders : ActiveOrders) (side : Side) : Prop :=
  ∀ price, Represents levels[price]? (restingShares orders side price)
    (restingCount orders side price)

def AllPositive (orders : ActiveOrders) : Prop :=
  ∀ (id : OrderId) (order : OrderRecord), orders[id]? = some order → 0 < order.remaining.toNat

theorem Represents.unique {first second : Option PriceLevel} {shares count : Nat}
    (hfirst : Represents first shares count) (hsecond : Represents second shares count) :
    first = second := by
  cases first with
  | none =>
    cases second with
    | none => rfl
    | some level =>
      have hz : count = 0 := hfirst
      have hp : 0 < count := hsecond.1
      omega
  | some level =>
    cases second with
    | none =>
      have hz : count = 0 := hsecond
      have hp : 0 < count := hfirst.1
      omega
    | some other =>
      obtain ⟨_, hshares, hcount⟩ := hfirst
      obtain ⟨_, hshares', hcount'⟩ := hsecond
      rcases level with ⟨aggregate, number⟩
      rcases other with ⟨aggregate', number'⟩
      have ha : aggregate = aggregate' := UInt64.toNat_inj.mp (hshares.trans hshares'.symm)
      have hn : number = number' := UInt32.toNat_inj.mp (hcount.trans hcount'.symm)
      rw [ha, hn]

section Resting

variable (orders : ActiveOrders) (side : Side) (price : Price4)

theorem restingCount_pos_iff :
    0 < restingCount orders side price ↔
      ∃ (id : OrderId) (order : OrderRecord),
        orders[id]? = some order ∧ order.side = side ∧ order.price = price := by
  unfold restingCount
  rw [FiniteMap.total_pos_iff]
  simp only [OrderRecord.countAt]
  constructor
  · rintro ⟨id, order, hfound, hpos⟩
    by_cases hat : order.side = side ∧ order.price = price
    · exact ⟨id, order, hfound, hat⟩
    · simp [hat] at hpos
  · rintro ⟨id, order, hfound, hat⟩
    exact ⟨id, order, hfound, by simp [hat]⟩

variable {orders}

theorem restingCount_le_restingShares (hpos : AllPositive orders) :
    restingCount orders side price ≤ restingShares orders side price := by
  apply FiniteMap.total_le
  intro id order hfound
  have h := hpos id order hfound
  unfold OrderRecord.countAt OrderRecord.sharesAt
  split_ifs <;> omega

variable (orders)

-- Every order holds at most 2^32 - 1 shares.
theorem restingShares_le_mul_restingCount :
    restingShares orders side price ≤ restingCount orders side price * (2 ^ 32 - 1) := by
  unfold restingShares restingCount
  rw [← FiniteMap.total_mul]
  apply FiniteMap.total_le
  intro id order hfound
  have h := order.remaining.toNat_lt
  unfold OrderRecord.countAt OrderRecord.sharesAt
  split_ifs <;> omega

variable {orders}

theorem restingShares_insert {id : OrderId} (hfresh : orders[id]? = none)
    (order : OrderRecord) :
    restingShares (orders.insert id order) side price =
      restingShares orders side price + order.sharesAt side price :=
  FiniteMap.total_insert _ orders id order hfresh

theorem restingCount_insert {id : OrderId} (hfresh : orders[id]? = none) (order : OrderRecord) :
    restingCount (orders.insert id order) side price =
      restingCount orders side price + order.countAt side price :=
  FiniteMap.total_insert _ orders id order hfresh

theorem restingShares_erase {id : OrderId} {order : OrderRecord}
    (hfound : orders[id]? = some order) :
    restingShares (orders.erase id) side price + order.sharesAt side price =
      restingShares orders side price :=
  FiniteMap.total_erase _ orders id order hfound

theorem restingCount_erase {id : OrderId} {order : OrderRecord}
    (hfound : orders[id]? = some order) :
    restingCount (orders.erase id) side price + order.countAt side price =
      restingCount orders side price :=
  FiniteMap.total_erase _ orders id order hfound

theorem restingShares_replace {id : OrderId} {old : OrderRecord}
    (hfound : orders[id]? = some old) (new : OrderRecord) :
    restingShares (orders.insert id new) side price + old.sharesAt side price =
      restingShares orders side price + new.sharesAt side price :=
  FiniteMap.total_replace _ orders id old new hfound

theorem restingCount_replace {id : OrderId} {old : OrderRecord}
    (hfound : orders[id]? = some old) (new : OrderRecord) :
    restingCount (orders.insert id new) side price + old.countAt side price =
      restingCount orders side price + new.countAt side price :=
  FiniteMap.total_replace _ orders id old new hfound

end Resting

section SameResting

variable {orders orders' orders'' : ActiveOrders} {id : OrderId} {side : Side} {price : Price4}

-- The changes to the orders under which the level of a side and price may stay as it is.
def SameRestingAt (orders orders' : ActiveOrders) (side : Side) (price : Price4) : Prop :=
  restingShares orders' side price = restingShares orders side price ∧
    restingCount orders' side price = restingCount orders side price

theorem SameRestingAt.insert (hfresh : orders[id]? = none) {order : OrderRecord}
    (hn : ¬(order.side = side ∧ order.price = price)) :
    SameRestingAt orders (orders.insert id order) side price := by
  have hs := restingShares_insert side price hfresh order
  have hc := restingCount_insert side price hfresh order
  rw [OrderRecord.sharesAt_of_ne hn] at hs
  rw [OrderRecord.countAt_of_ne hn] at hc
  exact ⟨hs, hc⟩

theorem SameRestingAt.erase {order : OrderRecord} (hfound : orders[id]? = some order)
    (hn : ¬(order.side = side ∧ order.price = price)) :
    SameRestingAt orders (orders.erase id) side price := by
  have hs := restingShares_erase side price hfound
  have hc := restingCount_erase side price hfound
  rw [OrderRecord.sharesAt_of_ne hn] at hs
  rw [OrderRecord.countAt_of_ne hn] at hc
  exact ⟨hs, hc⟩

theorem SameRestingAt.replace {old new : OrderRecord} (hfound : orders[id]? = some old)
    (hold : ¬(old.side = side ∧ old.price = price))
    (hnew : ¬(new.side = side ∧ new.price = price)) :
    SameRestingAt orders (orders.insert id new) side price := by
  have hs := restingShares_replace side price hfound new
  have hc := restingCount_replace side price hfound new
  rw [OrderRecord.sharesAt_of_ne hold, OrderRecord.sharesAt_of_ne hnew] at hs
  rw [OrderRecord.countAt_of_ne hold, OrderRecord.countAt_of_ne hnew] at hc
  exact ⟨hs, hc⟩

theorem SameRestingAt.trans (h : SameRestingAt orders orders' side price)
    (h' : SameRestingAt orders' orders'' side price) :
    SameRestingAt orders orders'' side price :=
  ⟨h'.1.trans h.1, h'.2.trans h.2⟩

-- The changes to the orders under which the levels of `side` may stay as they are.
def SameResting (orders orders' : ActiveOrders) (side : Side) : Prop :=
  ∀ price, restingShares orders' side price = restingShares orders side price ∧
    restingCount orders' side price = restingCount orders side price

theorem SameResting.insert (hfresh : orders[id]? = none) {order : OrderRecord}
    (hside : order.side ≠ side) : SameResting orders (orders.insert id order) side :=
  fun _ => SameRestingAt.insert hfresh fun h => hside h.1

theorem SameResting.erase {order : OrderRecord} (hfound : orders[id]? = some order)
    (hside : order.side ≠ side) : SameResting orders (orders.erase id) side :=
  fun _ => SameRestingAt.erase hfound fun h => hside h.1

theorem SameResting.replace {old new : OrderRecord} (hfound : orders[id]? = some old)
    (hold : old.side ≠ side) (hnew : new.side ≠ side) :
    SameResting orders (orders.insert id new) side :=
  fun _ => SameRestingAt.replace hfound (fun h => hold h.1) fun h => hnew h.1

theorem SameResting.trans (h : SameResting orders orders' side)
    (h' : SameResting orders' orders'' side) : SameResting orders orders'' side :=
  fun price => SameRestingAt.trans (h price) (h' price)

end SameResting

theorem AllPositive.erase {orders : ActiveOrders} (h : AllPositive orders) (id : OrderId) :
    AllPositive (orders.erase id) := by
  intro k order hfound
  rw [FiniteMap.getElem?_erase] at hfound
  split at hfound
  · cases hfound
  · exact h k order hfound

section LevelMap

variable {order : Price4 → Price4 → Ordering} [TransCmp order] {levels levels' : LevelMap order}
  {orders orders' : ActiveOrders} {side : Side}

theorem LevelsMatch.unique [LawfulEqCmp order] (h : LevelsMatch levels orders side)
    (h' : LevelsMatch levels' orders side) : levels = levels' := by
  apply ExtTreeMap.ext_getElem?
  intro price
  exact (h price).unique (h' price)

-- What a stored level, and the absence of one, say about the resting orders.
theorem LevelsMatch.represents (h : LevelsMatch levels orders side) {price : Price4}
    {level : PriceLevel} (hlevel : levels[price]? = some level) :
    0 < restingCount orders side price ∧
      level.aggregate_shares.toNat = restingShares orders side price ∧
      level.order_count.toNat = restingCount orders side price := by
  have hp := h price
  rwa [hlevel] at hp

theorem LevelsMatch.restingCount_eq_zero (h : LevelsMatch levels orders side) {price : Price4}
    (hlevel : levels[price]? = none) : restingCount orders side price = 0 := by
  have hp := h price
  rwa [hlevel] at hp

theorem LevelsMatch.contains_iff (h : LevelsMatch levels orders side) (price : Price4) :
    (∃ level, levels[price]? = some level) ↔ 0 < restingCount orders side price := by
  cases hlevel : levels[price]? with
  | none => simp [h.restingCount_eq_zero hlevel]
  | some level => simp [(h.represents hlevel).1]

theorem LevelsMatch.restingCount_le (h : LevelsMatch levels orders side) (price : Price4) :
    restingCount orders side price ≤ 2 ^ 32 - 1 := by
  cases hlevel : levels[price]? with
  | none =>
    rw [h.restingCount_eq_zero hlevel]
    omega
  | some level =>
    have hcount := level.order_count.toNat_lt
    have := (h.represents hlevel).2.2
    omega

-- A side of the book sees nothing of changes to orders of the other side.
theorem LevelsMatch.of_sameResting (h : LevelsMatch levels orders side)
    (hsame : SameResting orders orders' side) : LevelsMatch levels orders' side := by
  intro price
  rw [(hsame price).1, (hsame price).2]
  exact h price

-- One price changes on the side: its entry must fit, the others are as before.
theorem LevelsMatch.update (h : LevelsMatch levels orders side) (price : Price4)
    (hframe : ∀ p, p ≠ price → levels'[p]? = levels[p]?)
    (hsame : ∀ p, p ≠ price → SameRestingAt orders orders' side p)
    (hat : Represents levels'[price]? (restingShares orders' side price)
      (restingCount orders' side price)) :
    LevelsMatch levels' orders' side := by
  intro p
  by_cases hp : p = price
  · rw [hp]
    exact hat
  · rw [hframe p hp, (hsame p hp).1, (hsame p hp).2]
    exact h p

variable [LawfulEqCmp order]

theorem LevelsMatch.insert (h : LevelsMatch levels orders side) (price : Price4)
    {level : PriceLevel} (hsame : ∀ p, p ≠ price → SameRestingAt orders orders' side p)
    (hpos : 0 < restingCount orders' side price)
    (hshares : level.aggregate_shares.toNat = restingShares orders' side price)
    (hcount : level.order_count.toNat = restingCount orders' side price) :
    LevelsMatch (levels.insert price level) orders' side := by
  apply h.update price _ hsame
  · rw [FiniteMap.getElem?_insert, if_pos rfl]
    exact ⟨hpos, hshares, hcount⟩
  · intro p hp
    rw [FiniteMap.getElem?_insert, if_neg (Ne.symm hp)]

theorem LevelsMatch.erase (h : LevelsMatch levels orders side) (price : Price4)
    (hsame : ∀ p, p ≠ price → SameRestingAt orders orders' side p)
    (hcount : restingCount orders' side price = 0) :
    LevelsMatch (levels.erase price) orders' side := by
  apply h.update price _ hsame
  · rw [FiniteMap.getElem?_erase, if_pos rfl]
    exact hcount
  · intro p hp
    rw [FiniteMap.getElem?_erase, if_neg (Ne.symm hp)]

end LevelMap

end AegisFeed
