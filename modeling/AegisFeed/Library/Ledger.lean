import AegisFeed.Library.FiniteMap

namespace Ledger

open Std
open FiniteMap (total)

-- A ledger of quantities held at places under references. It says nothing about
-- how the holdings of one place are summed up or stored.
structure Entry (π α : Type*) where
  place : π
  quantity : Nat
  tag : α
deriving DecidableEq

abbrev State (ι π α : Type*) [Ord ι] [TransOrd ι] := ExtTreeMap ι (Entry π α) compare

variable {ι π α : Type*} [Ord ι] [TransOrd ι]

def enter (state : State ι π α) (reference : ι) (entry : Entry π α) : State ι π α :=
  state.insert reference entry

def CanTake (state : State ι π α) (reference : ι) (amount : Nat) : Prop :=
  0 < amount ∧ ∃ entry, state[reference]? = some entry ∧ amount ≤ entry.quantity

-- The entry goes when nothing is left of it.
def take (state : State ι π α) (reference : ι) (amount : Nat) : State ι π α :=
  match state[reference]? with
  | none => state
  | some entry =>
    if entry.quantity = amount then state.erase reference
    else state.insert reference { entry with quantity := entry.quantity - amount }

def CanRemove (state : State ι π α) (reference : ι) : Prop :=
  ∃ entry, state[reference]? = some entry

def remove (state : State ι π α) (reference : ι) : State ι π α :=
  state.erase reference

-- The tag moves along; the place and the quantity are new.
def move (state : State ι π α) (old new : ι) (place : Entry π α → π) (quantity : Nat) :
    State ι π α :=
  match state[old]? with
  | none => state
  | some entry =>
    (state.erase old).insert new { place := place entry, quantity, tag := entry.tag }

section Lookup

variable {state : State ι π α} {reference : ι} {entry : Entry π α}
  (hentry : state[reference]? = some entry)

include hentry

theorem take_all {amount : Nat} (hall : entry.quantity = amount) :
    take state reference amount = state.erase reference := by
  simp only [take, hentry, if_pos hall]

theorem take_part {amount : Nat} (hpart : entry.quantity ≠ amount) :
    take state reference amount =
      state.insert reference { entry with quantity := entry.quantity - amount } := by
  simp only [take, hentry, if_neg hpart]

theorem move_of_getElem? (new : ι) (place : Entry π α → π) (quantity : Nat) :
    move state reference new place quantity =
      (state.erase reference).insert new { place := place entry, quantity, tag := entry.tag } := by
  simp only [move, hentry]

end Lookup

section Frame

-- A sum over the ledger sees an operation only through the entries it changes.
variable [LawfulEqOrd ι] (weight : Entry π α → Nat) {state : State ι π α} {reference : ι}

theorem total_enter {entry : Entry π α} (hfresh : state[reference]? = none)
    (hentry : weight entry = 0) : total weight (enter state reference entry) =
      total weight state := by
  unfold enter
  rw [FiniteMap.total_insert _ _ _ _ hfresh, hentry, Nat.add_zero]

variable {entry : Entry π α} (hfound : state[reference]? = some entry)

include hfound

theorem total_remove (hentry : weight entry = 0) :
    total weight (remove state reference) = total weight state := by
  have h := FiniteMap.total_erase weight state reference entry hfound
  rwa [hentry] at h

theorem total_take (amount : Nat)
    (hentry : ∀ quantity, weight { entry with quantity } = 0) :
    total weight (take state reference amount) = total weight state := by
  by_cases hall : entry.quantity = amount
  · rw [take_all hfound hall]
    exact total_remove weight hfound (hentry entry.quantity)
  · rw [take_part hfound hall]
    have h := FiniteMap.total_replace weight state reference entry
      { entry with quantity := entry.quantity - amount } hfound
    rwa [hentry entry.quantity, hentry (entry.quantity - amount)] at h

theorem total_move [DecidableEq ι] {new : ι} (hfresh : state[new]? = none)
    (place : Entry π α → π) (quantity : Nat) (hentry : weight entry = 0)
    (hnew : weight { place := place entry, quantity, tag := entry.tag } = 0) :
    total weight (move state reference new place quantity) = total weight state := by
  have hgone : (state.erase reference)[new]? = none := by
    rw [FiniteMap.getElem?_erase, hfresh, ite_self]
  rw [move_of_getElem? hfound, FiniteMap.total_insert _ _ _ _ hgone, hnew, Nat.add_zero]
  exact total_remove weight hfound hentry

end Frame

section Capacity

variable [DecidableEq π]

-- The number of entries held at a place. A place has a capacity for entries.
def countAt (state : State ι π α) (place : π) : Nat :=
  total (fun entry => if entry.place = place then 1 else 0) state

-- The sum of the quantities held at a place.
def quantityAt (state : State ι π α) (place : π) : Nat :=
  total (fun entry => if entry.place = place then entry.quantity else 0) state

def CanEnter (capacity : Nat) (state : State ι π α) (reference : ι) (entry : Entry π α) :
    Prop :=
  0 < entry.quantity ∧ state[reference]? = none ∧ countAt state entry.place < capacity

def CanMove (capacity : Nat) (state : State ι π α) (old new : ι) (place : Entry π α → π)
    (quantity : Nat) : Prop :=
  0 < quantity ∧ ∃ entry, state[old]? = some entry ∧ state[new]? = none ∧
    (place entry = entry.place ∨ countAt state (place entry) < capacity)

end Capacity

section Composition

-- Operations that come to the same as others.
variable [LawfulEqOrd ι] {state : State ι π α} {reference : ι} {entry : Entry π α}
  (hentry : state[reference]? = some entry)

include hentry

theorem take_zero (hpositive : 0 < entry.quantity) : take state reference 0 = state := by
  rw [take_part hentry hpositive.ne', Nat.sub_zero]
  exact FiniteMap.insert_of_getElem? state reference entry hentry

omit [LawfulEqOrd ι] in
theorem take_quantity : take state reference entry.quantity = remove state reference :=
  take_all hentry rfl

omit [LawfulEqOrd ι] in
theorem take_part_getElem? {amount : Nat} (hpart : amount < entry.quantity) :
    (take state reference amount)[reference]? =
      some { entry with quantity := entry.quantity - amount } := by
  rw [take_part hentry hpart.ne', ExtTreeMap.getElem?_insert_self]

omit [LawfulEqOrd ι] in
theorem take_quantity_getElem? : (take state reference entry.quantity)[reference]? = none := by
  rw [take_quantity hentry]
  exact ExtTreeMap.getElem?_erase_self

-- What is taken in two parts may be taken at once.
theorem take_take {first second : Nat} (hpositive : 0 < second)
    (henough : first + second ≤ entry.quantity) :
    take (take state reference first) reference second =
      take state reference (first + second) := by
  have hpart : first < entry.quantity := by omega
  have hrest := take_part_getElem? hentry hpart
  apply ExtTreeMap.ext_getElem?
  intro other
  by_cases hall : entry.quantity = first + second
  · rw [take_all hrest (Nat.sub_eq_of_eq_add' hall), take_all hentry hall,
      take_part hentry hpart.ne', ExtTreeMap.getElem?_erase, ExtTreeMap.getElem?_erase,
      ExtTreeMap.getElem?_insert]
    split_ifs <;> rfl
  · have hpart' : entry.quantity - first ≠ second := by omega
    rw [take_part hrest hpart', take_part hentry hall, take_part hentry hpart.ne',
      ExtTreeMap.getElem?_insert, ExtTreeMap.getElem?_insert, ExtTreeMap.getElem?_insert,
      Nat.sub_sub]
    split_ifs <;> rfl

variable {new : ι} (place : Entry π α → π) (quantity : Nat)

-- An entry that moves leaves and enters again.
omit [LawfulEqOrd ι] in
theorem move_eq_enter : move state reference new place quantity =
    enter (remove state reference) new { place := place entry, quantity, tag := entry.tag } :=
  move_of_getElem? hentry new place quantity

theorem canMove_iff [DecidableEq ι] [DecidableEq π] {capacity : Nat} (hne : reference ≠ new)
    (hcapacity : countAt state entry.place ≤ capacity) :
    CanMove capacity state reference new place quantity ↔
      CanEnter capacity (remove state reference) new
        { place := place entry, quantity, tag := entry.tag } := by
  have hleft := FiniteMap.total_erase
    (fun other => if other.place = place entry then 1 else 0) state reference entry hentry
  have hroom : (place entry = entry.place ∨ countAt state (place entry) < capacity) ↔
      countAt (remove state reference) (place entry) < capacity := by
    unfold countAt remove at *
    by_cases hstays : place entry = entry.place
    · rw [hstays] at hleft ⊢
      rw [if_pos rfl] at hleft
      simp only [true_or, true_iff]
      omega
    · rw [if_neg (Ne.symm hstays)] at hleft
      simp only [hstays, false_or]
      omega
  unfold CanMove CanEnter
  rw [← hroom, remove, FiniteMap.getElem?_erase, if_neg hne]
  constructor
  · rintro ⟨hpositive, other, hother, hfresh, hplace⟩
    cases hentry.symm.trans hother
    exact ⟨hpositive, hfresh, hplace⟩
  · rintro ⟨hpositive, hfresh, hplace⟩
    exact ⟨hpositive, entry, hentry, hfresh, hplace⟩

end Composition

end Ledger
