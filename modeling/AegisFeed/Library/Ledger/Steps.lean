import AegisFeed.Library.Ledger

namespace Ledger

open Std
open FiniteMap (total total_insert total_erase total_replace)

-- An operation on a ledger as a value.
inductive Step (ι π α : Type*) where
  | enter (reference : ι) (entry : Entry π α)
  | take (reference : ι) (amount : Nat)
  | remove (reference : ι)
  | move (old new : ι) (place : Entry π α → π) (quantity : Nat)

namespace Step

variable {ι π α : Type*} [Ord ι] [TransOrd ι]

-- All that a step reads or writes is stored under its references.
def references : Step ι π α → List ι
  | .enter reference _ => [reference]
  | .take reference _ => [reference]
  | .remove reference => [reference]
  | .move old new _ _ => [old, new]

-- The reference the entry has after the step, if there is one.
def target : Step ι π α → ι
  | .enter reference _ => reference
  | .take reference _ => reference
  | .remove reference => reference
  | .move _ new _ _ => new

def effect (state : State ι π α) : Step ι π α → State ι π α
  | .enter reference entry => Ledger.enter state reference entry
  | .take reference amount => Ledger.take state reference amount
  | .remove reference => Ledger.remove state reference
  | .move old new place quantity => Ledger.move state old new place quantity

-- The reference under which a step makes an entry.
def entered : Step ι π α → Option ι
  | .enter reference _ => some reference
  | .take _ _ => none
  | .remove _ => none
  | .move _ new _ _ => some new

-- The entry that a step starts from, and the one it leaves behind.
def outgoing (state : State ι π α) : Step ι π α → Option (Entry π α)
  | .enter _ _ => none
  | .take reference _ => state[reference]?
  | .remove reference => state[reference]?
  | .move old _ _ _ => state[old]?

def incoming (state : State ι π α) : Step ι π α → Option (Entry π α)
  | .enter _ entry => some entry
  | .take reference amount => state[reference]?.bind fun entry =>
    if entry.quantity = amount then none
    else some { entry with quantity := entry.quantity - amount }
  | .remove _ => none
  | .move old _ place quantity =>
    state[old]?.map fun entry => { place := place entry, quantity, tag := entry.tag }

-- What a step needs under its references.
def Ready (state : State ι π α) : Step ι π α → Prop
  | .enter reference entry => 0 < entry.quantity ∧ state[reference]? = none
  | .take reference amount => CanTake state reference amount
  | .remove reference => CanRemove state reference
  | .move old new _ quantity =>
    0 < quantity ∧ (∃ entry, state[old]? = some entry) ∧ state[new]? = none

-- The step raises the number of the entries at a place. An entry that stays at its
-- place needs no room there.
def Enters (state : State ι π α) (step : Step ι π α) (place : π) : Prop :=
  (step.incoming state).map Entry.place = some place ∧
    (step.outgoing state).map Entry.place ≠ some place

def HasRoom [DecidableEq π] (capacity : Nat) (state : State ι π α) (step : Step ι π α) : Prop :=
  ∀ place, step.Enters state place → countAt state place < capacity

def Accepts [DecidableEq π] (capacity : Nat) (state : State ι π α) (step : Step ι π α) : Prop :=
  step.Ready state ∧ step.HasRoom capacity state

omit [Ord ι] [TransOrd ι] in
theorem target_mem (step : Step ι π α) : step.target ∈ step.references := by
  cases step with
  | enter => exact List.mem_singleton_self _
  | take => exact List.mem_singleton_self _
  | remove => exact List.mem_singleton_self _
  | move => exact List.mem_cons_of_mem _ (List.mem_singleton_self _)

section Room

variable [DecidableEq π] {capacity : Nat} {state : State ι π α}

theorem accepts_enter_iff (reference : ι) (entry : Entry π α) :
    (enter reference entry).Accepts capacity state ↔
      CanEnter capacity state reference entry := by
  simp [Accepts, Ready, HasRoom, Enters, incoming, outgoing, CanEnter, and_assoc]

-- What is left of an entry stays at its place.
theorem accepts_take_iff (reference : ι) (amount : Nat) :
    (take reference amount).Accepts capacity state ↔ CanTake state reference amount := by
  refine ⟨And.left, fun htake => ⟨htake, ?_⟩⟩
  rintro place ⟨hin, hout⟩
  obtain ⟨rest, hrest, rfl⟩ := Option.map_eq_some_iff.mp hin
  obtain ⟨entry, hentry, hpart⟩ := Option.bind_eq_some_iff.mp hrest
  split_ifs at hpart
  cases hpart
  exact absurd (by rw [outgoing, hentry]; rfl) hout

theorem accepts_remove_iff (reference : ι) :
    (remove reference).Accepts capacity state ↔ CanRemove state reference :=
  ⟨And.left, fun hremove => ⟨hremove, fun _ henters => nomatch henters.1⟩⟩

theorem accepts_move_iff (old new : ι) (place : Entry π α → π) (quantity : Nat) :
    (move old new place quantity).Accepts capacity state ↔
      CanMove capacity state old new place quantity := by
  unfold Accepts HasRoom Enters CanMove
  simp only [Ready, incoming, outgoing]
  constructor
  · rintro ⟨⟨hpositive, ⟨entry, hentry⟩, hfresh⟩, hroom⟩
    refine ⟨hpositive, entry, hentry, hfresh, ?_⟩
    rw [hentry] at hroom
    by_cases hstays : place entry = entry.place
    · exact Or.inl hstays
    · exact Or.inr (hroom _ ⟨rfl, fun h => hstays (Option.some_inj.mp h).symm⟩)
  · rintro ⟨hpositive, entry, hentry, hfresh, hroom⟩
    refine ⟨⟨hpositive, ⟨entry, hentry⟩, hfresh⟩, ?_⟩
    rw [hentry]
    rintro _ ⟨⟨⟩, hout⟩
    exact hroom.resolve_left fun hstays => hout (congrArg some hstays.symm)

end Room

section Local

variable {state other : State ι π α} {step : Step ι π α}
  (hagree : ∀ reference ∈ step.references, other[reference]? = state[reference]?)

include hagree

theorem incoming_congr : step.incoming other = step.incoming state := by
  cases step with
  | enter => rfl
  | take reference => simp only [incoming, hagree reference (List.mem_singleton_self _)]
  | remove => rfl
  | move old => simp only [incoming, hagree old List.mem_cons_self]

theorem outgoing_congr : step.outgoing other = step.outgoing state := by
  cases step with
  | enter => rfl
  | take reference => exact hagree reference (List.mem_singleton_self _)
  | remove reference => exact hagree reference (List.mem_singleton_self _)
  | move old => exact hagree old List.mem_cons_self

theorem ready_congr : step.Ready other ↔ step.Ready state := by
  cases step with
  | enter reference => simp only [Ready, hagree reference (List.mem_singleton_self _)]
  | take reference =>
    simp only [Ready, CanTake, hagree reference (List.mem_singleton_self _)]
  | remove reference =>
    simp only [Ready, CanRemove, hagree reference (List.mem_singleton_self _)]
  | move old new =>
    simp only [Ready, hagree old List.mem_cons_self,
      hagree new (List.mem_cons_of_mem _ (List.mem_singleton_self _))]

end Local

variable [LawfulEqOrd ι] {state : State ι π α} {step : Step ι π α}

-- The whole effect of a step, seen from one reference.
theorem effect_getElem? [DecidableEq ι] (hready : step.Ready state) (reference : ι) :
    (step.effect state)[reference]? =
      if step.target = reference then step.incoming state
      else if reference ∈ step.references then none
      else state[reference]? := by
  cases step with
  | enter key entry =>
    simp only [effect, Ledger.enter, FiniteMap.getElem?_insert, target, incoming, references,
      List.mem_singleton]
    split_ifs with hk hr <;> simp_all
  | take key amount =>
    obtain ⟨_, entry, hentry, _⟩ := hready
    simp only [target, incoming, hentry, Option.bind_some, references, List.mem_singleton, effect]
    by_cases hall : entry.quantity = amount
    · rw [take_all hentry hall, FiniteMap.getElem?_erase, if_pos hall]
      split_ifs with hk hr <;> simp_all
    · rw [take_part hentry hall, FiniteMap.getElem?_insert, if_neg hall]
      split_ifs with hk hr <;> simp_all
  | remove key =>
    simp only [effect, Ledger.remove, FiniteMap.getElem?_erase, target, incoming, references,
      List.mem_singleton]
    split_ifs with hk hr <;> simp_all
  | move old new place quantity =>
    obtain ⟨_, ⟨entry, hentry⟩, _⟩ := hready
    simp only [effect, move_of_getElem? hentry, FiniteMap.getElem?_insert,
      FiniteMap.getElem?_erase, target, incoming, hentry, Option.map_some, references,
      List.mem_cons, List.not_mem_nil, or_false]
    by_cases hn : new = reference
    · rw [if_pos hn, if_pos hn]
    · by_cases ho : old = reference
      · rw [if_neg hn, if_neg hn, if_pos ho, if_pos (Or.inl ho.symm)]
      · rw [if_neg hn, if_neg hn, if_neg ho, if_neg]
        rintro (rfl | rfl)
        · exact ho rfl
        · exact hn rfl

theorem effect_of_not_mem [DecidableEq ι] (hready : step.Ready state) {reference : ι}
    (hother : reference ∉ step.references) :
    (step.effect state)[reference]? = state[reference]? := by
  have htarget : step.target ≠ reference := by
    rintro rfl
    exact hother step.target_mem
  rw [effect_getElem? hready, if_neg htarget, if_neg hother]

-- A step that is taken is seen under its target.
theorem effect_ne [DecidableEq ι] (hready : step.Ready state) : step.effect state ≠ state := by
  intro hsame
  have hat := effect_getElem? hready step.target
  rw [hsame, if_pos rfl] at hat
  cases step with
  | enter reference entry =>
    rw [target, hready.2] at hat
    cases hat
  | take reference amount =>
    obtain ⟨hpositive, entry, hentry, henough⟩ := hready
    simp only [target, incoming, hentry, Option.bind_some] at hat
    split_ifs at hat
    have hquantity := congrArg Entry.quantity (Option.some_inj.mp hat)
    dsimp only at hquantity
    omega
  | remove reference =>
    obtain ⟨entry, hentry⟩ := hready
    rw [target, hentry] at hat
    cases hat
  | move old new =>
    obtain ⟨_, ⟨entry, hentry⟩, hfresh⟩ := hready
    rw [target, incoming, hentry, hfresh] at hat
    cases hat

section Entered

variable {reference : ι} (hready : step.Ready state)

include hready

omit [LawfulEqOrd ι] in
theorem entered_not_mem (hentered : step.entered = some reference) : reference ∉ state := by
  rw [FiniteMap.mem_iff_getElem?]
  have hfresh : state[reference]? = none := by
    cases step with
    | enter => exact Option.some_inj.mp hentered ▸ hready.2
    | take => cases hentered
    | remove => cases hentered
    | move => exact Option.some_inj.mp hentered ▸ hready.2.2
  rw [hfresh]
  exact fun ⟨_, h⟩ => nomatch h

variable [DecidableEq ι]

theorem entered_mem (hentered : step.entered = some reference) :
    reference ∈ step.effect state := by
  rw [FiniteMap.mem_iff_getElem?, effect_getElem? hready]
  cases step with
  | enter key entry =>
    obtain rfl := Option.some_inj.mp hentered
    exact ⟨entry, if_pos rfl⟩
  | take => cases hentered
  | remove => cases hentered
  | move old new =>
    obtain rfl := Option.some_inj.mp hentered
    obtain ⟨_, ⟨entry, hentry⟩, _⟩ := hready
    exact ⟨_, by rw [target, if_pos rfl, incoming, hentry, Option.map_some]⟩

-- An entry is one of before, or the one that entered.
theorem mem_of_mem_effect (hmem : reference ∈ step.effect state) :
    reference ∈ state ∨ step.entered = some reference := by
  rw [FiniteMap.mem_iff_getElem?] at hmem ⊢
  obtain ⟨entry, hentry⟩ := hmem
  rw [effect_getElem? hready] at hentry
  split_ifs at hentry with htarget hgone
  · subst htarget
    cases step with
    | enter => exact Or.inr rfl
    | take =>
      obtain ⟨held, hheld, -⟩ := Option.bind_eq_some_iff.mp hentry
      exact Or.inl ⟨held, hheld⟩
    | remove => cases hentry
    | move => exact Or.inr rfl
  · exact Or.inl ⟨entry, hentry⟩

end Entered

section Balance

variable (weight : Entry π α → Nat)

def weigh (entry : Option (Entry π α)) : Nat :=
  entry.elim 0 weight

-- A step exchanges the weight of the entry it starts from for that of the one it leaves.
theorem total_effect [DecidableEq ι] (hready : step.Ready state) :
    total weight (step.effect state) + weigh weight (step.outgoing state) =
      total weight state + weigh weight (step.incoming state) := by
  cases step with
  | enter reference entry => exact total_insert weight state reference entry hready.2
  | take reference amount =>
    obtain ⟨_, entry, hentry, _⟩ := hready
    simp only [effect, outgoing, incoming, hentry, Option.bind_some]
    by_cases hall : entry.quantity = amount
    · rw [take_all hentry hall, if_pos hall]
      exact total_erase weight state reference entry hentry
    · rw [take_part hentry hall, if_neg hall]
      exact total_replace weight state reference entry _ hentry
  | remove reference =>
    obtain ⟨entry, hentry⟩ := hready
    simp only [outgoing, hentry]
    exact total_erase weight state reference entry hentry
  | move old new place quantity =>
    obtain ⟨_, ⟨entry, hentry⟩, hfresh⟩ := hready
    have hgone : (state.erase old)[new]? = none := by
      rw [FiniteMap.getElem?_erase, hfresh, ite_self]
    have herase := total_erase weight state old entry hentry
    simp only [effect, outgoing, incoming, move_of_getElem? hentry, hentry, Option.map_some,
      FiniteMap.total_insert _ _ _ _ hgone, weigh, Option.elim_some]
    omega

-- The quantity under a reference, and what a step brings in and takes out.
def held (state : State ι π α) (reference : ι) : Nat :=
  (state[reference]?.map Entry.quantity).getD 0

def gained : Step ι π α → Nat
  | .enter _ entry => entry.quantity
  | .take _ _ => 0
  | .remove _ => 0
  | .move _ _ _ quantity => quantity

def lost (state : State ι π α) : Step ι π α → Nat
  | .enter _ _ => 0
  | .take _ amount => amount
  | .remove reference => held state reference
  | .move old _ _ _ => held state old

-- The number of entries that a step makes, and of those it ends. A move does neither.
def opened : Step ι π α → Nat
  | .enter _ _ => 1
  | .take _ _ => 0
  | .remove _ => 0
  | .move _ _ _ _ => 0

def closed (state : State ι π α) : Step ι π α → Nat
  | .enter _ _ => 0
  | .take reference amount => if held state reference = amount then 1 else 0
  | .remove _ => 1
  | .move _ _ _ _ => 0

variable [DecidableEq ι] (hready : step.Ready state)

include hready

theorem quantity_effect :
    total Entry.quantity (step.effect state) + step.lost state =
      total Entry.quantity state + step.gained := by
  have hbalance := total_effect Entry.quantity hready
  cases step with
  | enter reference entry => exact hbalance
  | take reference amount =>
    obtain ⟨_, entry, hentry, henough⟩ := hready
    simp only [outgoing, incoming, hentry, Option.bind_some, weigh, Option.elim_some] at hbalance
    simp only [lost, gained]
    by_cases hall : entry.quantity = amount
    · rw [if_pos hall, Option.elim_none] at hbalance
      omega
    · rw [if_neg hall, Option.elim_some] at hbalance
      dsimp only at hbalance
      omega
  | remove reference =>
    obtain ⟨entry, hentry⟩ := hready
    simp only [outgoing, incoming, hentry, weigh, Option.elim_some, Option.elim_none] at hbalance
    simpa only [lost, gained, held, hentry, Option.map_some, Option.getD_some] using hbalance
  | move old new place quantity =>
    obtain ⟨_, ⟨entry, hentry⟩, _⟩ := hready
    simp only [outgoing, incoming, hentry, Option.map_some, weigh, Option.elim_some] at hbalance
    simpa only [lost, gained, held, hentry, Option.map_some, Option.getD_some] using hbalance

theorem size_effect : (step.effect state).size + step.closed state = state.size + step.opened := by
  have hbalance := total_effect (fun _ => 1) hready
  rw [FiniteMap.total_one, FiniteMap.total_one] at hbalance
  cases step with
  | enter reference entry => exact hbalance
  | take reference amount =>
    obtain ⟨_, entry, hentry, _⟩ := hready
    simp only [outgoing, incoming, hentry, Option.bind_some, weigh, Option.elim_some] at hbalance
    simp only [closed, opened, held, hentry, Option.map_some, Option.getD_some]
    by_cases hall : entry.quantity = amount
    · rw [if_pos hall, Option.elim_none] at hbalance
      rw [if_pos hall]
      exact hbalance
    · rw [if_neg hall, Option.elim_some] at hbalance
      rw [if_neg hall]
      omega
  | remove reference =>
    obtain ⟨entry, hentry⟩ := hready
    simp only [outgoing, incoming, hentry, weigh, Option.elim_some, Option.elim_none] at hbalance
    exact hbalance
  | move old new place quantity =>
    obtain ⟨_, ⟨entry, hentry⟩, _⟩ := hready
    simp only [outgoing, incoming, hentry, Option.map_some, weigh, Option.elim_some] at hbalance
    simp only [closed, opened]
    omega

end Balance

section Count

variable [DecidableEq ι] [DecidableEq π] (place : π)

omit [Ord ι] [TransOrd ι] [LawfulEqOrd ι] [DecidableEq ι] in
theorem weigh_count (entry : Option (Entry π α)) :
    weigh (fun entry => if entry.place = place then 1 else 0) entry =
      if entry.map Entry.place = some place then 1 else 0 := by
  cases entry with
  | none => rfl
  | some entry => simp [weigh]

variable {place}

theorem countAt_effect_of_enters (hready : step.Ready state) (henters : step.Enters state place) :
    countAt (step.effect state) place = countAt state place + 1 := by
  have h := total_effect (fun entry => if entry.place = place then 1 else 0) hready
  rwa [weigh_count, weigh_count, if_pos henters.1, if_neg henters.2, Nat.add_zero] at h

theorem countAt_effect_le (hready : step.Ready state) (henters : ¬step.Enters state place) :
    countAt (step.effect state) place ≤ countAt state place := by
  have h := total_effect (fun entry => if entry.place = place then 1 else 0) hready
  rw [weigh_count, weigh_count] at h
  unfold countAt
  by_cases hin : (step.incoming state).map Entry.place = some place
  · have hout : (step.outgoing state).map Entry.place = some place :=
      not_not.mp fun hout => henters ⟨hin, hout⟩
    rw [if_pos hin, if_pos hout] at h
    omega
  · rw [if_neg hin] at h
    omega

end Count

section Commute

-- Steps on different references see and change nothing of each other but the number of
-- the entries at a place.
variable [DecidableEq ι] {first second : Step ι π α}
  (hdisjoint : first.references.Disjoint second.references)

include hdisjoint

theorem agree_after (hfirst : first.Ready state) :
    ∀ reference ∈ second.references, (first.effect state)[reference]? = state[reference]? :=
  fun _ hmem => effect_of_not_mem hfirst fun hother => hdisjoint hother hmem

theorem effect_comm (hfirst : first.Ready state) (hsecond : second.Ready state) :
    second.effect (first.effect state) = first.effect (second.effect state) := by
  have hagree := agree_after hdisjoint hfirst
  have hagree' := agree_after (List.disjoint_symm hdisjoint) hsecond
  apply ExtTreeMap.ext_getElem?
  intro reference
  rw [effect_getElem? ((ready_congr hagree).mpr hsecond),
    effect_getElem? ((ready_congr hagree').mpr hfirst), incoming_congr hagree,
    incoming_congr hagree', effect_getElem? hfirst, effect_getElem? hsecond]
  by_cases hmem : reference ∈ first.references
  · have hother := hdisjoint hmem
    have htarget : second.target ≠ reference := fun h => hother (h ▸ second.target_mem)
    rw [if_neg htarget, if_neg hother, if_pos hmem, if_pos hmem]
  · have htarget : first.target ≠ reference := fun h => hmem (h ▸ first.target_mem)
    rw [if_neg htarget, if_neg hmem, if_neg htarget, if_neg hmem]

variable [DecidableEq π] {capacity : Nat} (hspare : ∀ place, countAt state place < capacity)

include hspare

-- With room for one more entry everywhere, the order in which two such steps are taken
-- does not matter: where both enter one place, the second found room after the first.
theorem accepts_swap (hfirst : first.Accepts capacity state)
    (hsecond : second.Accepts capacity (first.effect state)) :
    second.Accepts capacity state ∧ first.Accepts capacity (second.effect state) := by
  have hagree := agree_after hdisjoint hfirst.1
  have hready := (ready_congr hagree).mp hsecond.1
  have hagree' := agree_after (List.disjoint_symm hdisjoint) hready
  refine ⟨⟨hready, fun place _ => hspare place⟩, (ready_congr hagree').mpr hfirst.1, ?_⟩
  intro place henters
  unfold Enters at henters
  rw [incoming_congr hagree', outgoing_congr hagree'] at henters
  by_cases hboth : second.Enters state place
  · have hcount := hsecond.2 place (by
      unfold Enters
      rwa [incoming_congr hagree, outgoing_congr hagree])
    rw [countAt_effect_of_enters hready hboth]
    rwa [countAt_effect_of_enters hfirst.1 henters] at hcount
  · exact (countAt_effect_le hready hboth).trans_lt (hspare place)

end Commute

end Step

end Ledger
