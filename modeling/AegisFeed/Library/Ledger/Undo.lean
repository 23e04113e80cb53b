import AegisFeed.Library.Ledger.Steps
import AegisFeed.Library.Machine

namespace Ledger

open Std
open FiniteMap (total total_insert total_erase)

namespace Step

variable {ι π α : Type*} [Ord ι] [TransOrd ι]

-- A step as that of a machine without responses.
def advance (state : State ι π α) (step : Step ι π α) : Unit × State ι π α :=
  ((), step.effect state)

variable [DecidableEq π] {capacity : Nat} {state target : State ι π α} {step : Step ι π α}

-- Steps that are accepted one after the other, and the state that they lead to.
def Leads (capacity : Nat) (state : State ι π α) (steps : List (Step ι π α))
    (target : State ι π α) : Prop :=
  Machine.Admits advance (fun state step => step.Accepts capacity state) state steps ∧
    Machine.run advance state steps = target

theorem Leads.cons {rest : List (Step ι π α)} (haccepts : step.Accepts capacity state)
    (hrest : Leads capacity (step.effect state) rest target) :
    Leads capacity state (step :: rest) target :=
  ⟨⟨haccepts, hrest.1⟩, hrest.2⟩

-- What holds of a ledger that accepted steps lead to from the empty one.
structure Sound (capacity : Nat) (state : State ι π α) : Prop where
  positive : ∀ (reference : ι) (entry : Entry π α), state[reference]? = some entry →
    0 < entry.quantity
  bounded : ∀ place, countAt state place ≤ capacity

variable [LawfulEqOrd ι] {reference : ι} {entry : Entry π α}

-- An entry that was entered may be removed.
theorem leads_remove (hfresh : state[reference]? = none) :
    Leads capacity (Ledger.enter state reference entry) [.remove reference] state := by
  have hentered : (Ledger.enter state reference entry)[reference]? = some entry :=
    ExtTreeMap.getElem?_insert_self
  refine .cons ((accepts_remove_iff reference).mpr ⟨entry, hentered⟩) ⟨trivial, ?_⟩
  show (state.insert reference entry).erase reference = state
  rw [FiniteMap.erase_insert_self, FiniteMap.erase_of_none state reference hfresh]

variable (hsound : Sound capacity state) (hentry : state[reference]? = some entry)

include hsound hentry

-- The room of an entry that was taken out is there still.
theorem canEnter_erase : CanEnter capacity (state.erase reference) reference entry := by
  refine ⟨hsound.positive reference entry hentry, ExtTreeMap.getElem?_erase_self, ?_⟩
  have hbounded := hsound.bounded entry.place
  have herase := total_erase (fun other => if other.place = entry.place then 1 else 0) state
    reference entry hentry
  simp only [if_true] at herase
  unfold countAt at *
  omega

theorem leads_enter : Leads capacity (state.erase reference) [.enter reference entry] state := by
  refine .cons ((accepts_enter_iff reference entry).mpr (canEnter_erase hsound hentry)) ?_
  exact ⟨trivial, FiniteMap.insert_erase state reference entry hentry⟩

-- What is left of an entry is removed before the whole is entered again.
theorem leads_remove_enter (rest : Entry π α) :
    Leads capacity (state.insert reference rest) [.remove reference, .enter reference entry]
      state := by
  refine .cons ((accepts_remove_iff reference).mpr ⟨rest, ExtTreeMap.getElem?_insert_self⟩) ?_
  rw [effect, Ledger.remove, FiniteMap.erase_insert_self]
  exact leads_enter hsound hentry

theorem countAt_move_le [DecidableEq ι] {new : ι} {place : Entry π α → π} {quantity : Nat}
    (hne : reference ≠ new) (hmove : CanMove capacity state reference new place quantity) :
    countAt (Ledger.move state reference new place quantity) (place entry) ≤ capacity := by
  obtain ⟨-, hfresh, hroom⟩ := (canMove_iff hentry place quantity hne (hsound.bounded _)).mp hmove
  have hinsert := total_insert (fun other => if other.place = place entry then 1 else 0)
    (Ledger.remove state reference) new { place := place entry, quantity, tag := entry.tag } hfresh
  simp only [if_true] at hinsert
  unfold countAt at hroom
  dsimp only at hroom
  rw [move_eq_enter hentry, Ledger.enter, countAt]
  omega

-- An entry that was moved may be moved back.
theorem leads_move [DecidableEq ι] {new : ι} {place back : Entry π α → π} {quantity : Nat}
    (hmove : CanMove capacity state reference new place quantity)
    (hback : back { place := place entry, quantity, tag := entry.tag } = entry.place) :
    Leads capacity (Ledger.move state reference new place quantity)
      [.move new reference back entry.quantity] state := by
  have hfresh : state[new]? = none := by
    obtain ⟨-, -, -, hfresh, -⟩ := hmove
    exact hfresh
  have hne : reference ≠ new := by
    rintro rfl
    cases hentry.symm.trans hfresh
  have hgone : (state.erase reference)[new]? = none := by
    rw [FiniteMap.getElem?_erase, hfresh, ite_self]
  have hmoved := move_of_getElem? hentry new place quantity
  have hat : (Ledger.move state reference new place quantity)[new]? =
      some { place := place entry, quantity, tag := entry.tag } := by
    rw [hmoved, ExtTreeMap.getElem?_insert_self]
  have hrest : Ledger.remove (Ledger.move state reference new place quantity) new =
      state.erase reference := by
    rw [hmoved, Ledger.remove, FiniteMap.erase_insert_self, FiniteMap.erase_of_none _ _ hgone]
  have hbounded := countAt_move_le hsound hentry hne hmove
  refine .cons ((accepts_move_iff _ _ _ _).mpr ?_) ⟨trivial, ?_⟩
  · rw [canMove_iff hat back entry.quantity hne.symm hbounded, hrest, hback]
    exact canEnter_erase hsound hentry
  · show Ledger.move (Ledger.move state reference new place quantity) new reference back
      entry.quantity = state
    rw [move_eq_enter hat, hrest, hback]
    exact FiniteMap.insert_erase state reference entry hentry

end Step

end Ledger
