import Mathlib.Data.List.Basic
import Mathlib.Logic.Function.Basic

namespace Folding

-- A fold whose steps can be undone: what two folds have in common does not merge them.
variable {σ β : Type*} {step : σ → β → σ} (hstate : ∀ element, (step · element).Injective)

include hstate

theorem foldl_injective (elements : List β) :
    (fun state => elements.foldl step state).Injective := by
  induction elements with
  | nil => exact fun _ _ heq => heq
  | cons element rest ih =>
    intro state other heq
    exact hstate element (ih heq)

theorem foldl_append_iff (first second suffix : List β) (start : σ) :
    (first ++ suffix).foldl step start = (second ++ suffix).foldl step start ↔
      first.foldl step start = second.foldl step start := by
  rw [List.foldl_append, List.foldl_append]
  exact (foldl_injective hstate suffix).eq_iff

-- Two lists that differ at one position, taken apart there.
omit hstate in
theorem exists_split {first second : List β} (hlength : first.length = second.length)
    (hone : ∃! index : Nat, first[index]? ≠ second[index]?) :
    ∃ before element other after, first = before ++ element :: after ∧
      second = before ++ other :: after ∧ element ≠ other := by
  obtain ⟨index, hdiffer, hunique⟩ := hone
  have hsame : ∀ position : Nat, position ≠ index → first[position]? = second[position]? := by
    intro position hne
    by_contra hdiffer'
    exact hne (hunique position hdiffer')
  have hlt : index < first.length := by
    by_contra hge
    rw [List.getElem?_eq_none (by omega), List.getElem?_eq_none (by omega)] at hdiffer
    exact hdiffer rfl
  have hlt' : index < second.length := hlength ▸ hlt
  have hbefore : first.take index = second.take index := by
    apply List.ext_getElem?
    intro position
    simp only [List.getElem?_take]
    by_cases hposition : position < index
    · rw [if_pos hposition, if_pos hposition, hsame position (by omega)]
    · rw [if_neg hposition, if_neg hposition]
  have hafter : first.drop (index + 1) = second.drop (index + 1) := by
    apply List.ext_getElem?
    intro position
    rw [List.getElem?_drop, List.getElem?_drop, hsame _ (by omega)]
  refine ⟨first.take index, first[index], second[index], first.drop (index + 1), ?_, ?_, ?_⟩
  · rw [← List.drop_eq_getElem_cons hlt, List.take_append_drop]
  · rw [hbefore, hafter, ← List.drop_eq_getElem_cons hlt', List.take_append_drop]
  · rw [List.getElem?_eq_getElem hlt, List.getElem?_eq_getElem hlt'] at hdiffer
    exact fun heq => hdiffer (congrArg some heq)

-- Where a step also tells its elements apart, one changed element changes the result.
theorem foldl_ne_of_one {first second : List β} (helement : ∀ state, (step state).Injective)
    (hlength : first.length = second.length)
    (hone : ∃! index : Nat, first[index]? ≠ second[index]?) (start : σ) :
    first.foldl step start ≠ second.foldl step start := by
  obtain ⟨before, element, other, after, rfl, rfl, hne⟩ := exists_split hlength hone
  rw [List.foldl_append, List.foldl_append, List.foldl_cons, List.foldl_cons]
  intro heq
  exact hne (helement _ (foldl_injective hstate after heq))

end Folding
