import Mathlib.Data.List.Sort

namespace Sorting

open Std

variable {α κ : Type*} (cmp : κ → κ → Ordering) (key : α → κ)

-- A list in ascending order of its keys.
def sortBy (list : List α) : List α :=
  list.insertionSort fun a b => (cmp (key a) (key b)).isLE

theorem sortBy_perm (list : List α) : (sortBy cmp key list).Perm list :=
  List.perm_insertionSort _ list

variable [TransCmp cmp]

theorem sortBy_pairwise (list : List α) :
    (sortBy cmp key list).Pairwise fun a b => (cmp (key a) (key b)).isLE := by
  have htotal : Std.Total fun a b : α => ((cmp (key a) (key b)).isLE : Prop) := by
    refine ⟨fun a b => ?_⟩
    cases hcmp : cmp (key a) (key b) with
    | lt => exact Or.inl rfl
    | eq => exact Or.inl rfl
    | gt =>
      right
      rw [OrientedCmp.lt_of_gt hcmp]
      rfl
  have htrans : IsTrans α fun a b => (cmp (key a) (key b)).isLE :=
    ⟨fun _ _ _ hab hbc => TransCmp.isLE_trans hab hbc⟩
  exact List.pairwise_insertionSort _ list

variable [LawfulEqCmp cmp] {list : List α} (hnodup : (list.map key).Nodup)

include hnodup

-- With distinct keys the order is strict.
theorem sortBy_strict : (sortBy cmp key list).Pairwise fun a b => cmp (key a) (key b) = .lt := by
  have hne : (sortBy cmp key list).Pairwise fun a b => key a ≠ key b := by
    rw [← List.pairwise_map]
    exact ((sortBy_perm cmp key list).map key).nodup_iff.mpr hnodup
  refine ((sortBy_pairwise cmp key list).and hne).imp ?_
  rintro a b ⟨hle, hne⟩
  cases hcmp : cmp (key a) (key b) with
  | lt => rfl
  | eq => exact absurd (LawfulEqCmp.compare_eq_iff_eq.mp hcmp) hne
  | gt =>
    rw [hcmp] at hle
    cases hle

-- With distinct keys the result does not depend on the order of the input.
theorem sortBy_eq_of_perm {other : List α} (hperm : list.Perm other) :
    sortBy cmp key list = sortBy cmp key other := by
  have hsorted : (sortBy cmp key list).Perm (sortBy cmp key other) :=
    (sortBy_perm cmp key list).trans (hperm.trans (sortBy_perm cmp key other).symm)
  have hstrict := sortBy_strict cmp key hnodup
  have hstrict' := sortBy_strict cmp key ((hperm.map key).nodup_iff.mp hnodup)
  refine hsorted.eq_of_pairwise ?_ hstrict hstrict'
  intro a b _ _ hab hba
  rw [OrientedCmp.gt_of_lt hab] at hba
  cases hba

-- Strictly ascending lists with the same elements are equal.
omit [LawfulEqCmp cmp] hnodup in
theorem eq_of_strict {other : List α}
    (hlist : list.Pairwise fun a b => cmp (key a) (key b) = .lt)
    (hother : other.Pairwise fun a b => cmp (key a) (key b) = .lt)
    (hmem : ∀ element, element ∈ list ↔ element ∈ other) : list = other := by
  have hne : ∀ a b : α, cmp (key a) (key b) = .lt → a ≠ b := by
    rintro a _ hlt rfl
    have hself : cmp (key a) (key a) = .eq := ReflCmp.compare_self
    rw [hself] at hlt
    cases hlt
  have hperm := (List.perm_ext_iff_of_nodup (hlist.imp (hne _ _)) (hother.imp (hne _ _))).mpr hmem
  refine hperm.eq_of_pairwise ?_ hlist hother
  intro a b _ _ hab hba
  rw [OrientedCmp.gt_of_lt hab] at hba
  cases hba

omit [TransCmp cmp] [LawfulEqCmp cmp] hnodup in
-- The head of a strictly ascending list is its least element.
theorem head?_eq_some_iff {ν : Type*} [Preorder ν] {rank : α → ν}
    (h : list.Pairwise fun a b => rank a < rank b) (element : α) :
    list.head? = some element ↔
      element ∈ list ∧ ∀ other ∈ list, ¬rank other < rank element := by
  cases list with
  | nil => simp
  | cons first rest =>
    obtain ⟨hfirst, -⟩ := List.pairwise_cons.mp h
    rw [List.head?_cons, Option.some_inj]
    constructor
    · rintro rfl
      refine ⟨List.mem_cons_self, fun other hother => ?_⟩
      rcases List.mem_cons.mp hother with rfl | hrest
      · exact lt_irrefl _
      · exact lt_asymm (hfirst other hrest)
    · rintro ⟨hmem, hleast⟩
      rcases List.mem_cons.mp hmem with rfl | hrest
      · rfl
      · exact absurd (hfirst element hrest) (hleast first List.mem_cons_self)

end Sorting
