import Mathlib.Algebra.BigOperators.Group.List.Basic
import Mathlib.Algebra.Order.BigOperators.Group.List
import Mathlib.Algebra.Order.Ring.Nat
import Mathlib.Data.List.Sort

namespace FiniteMap

open Std

variable {κ ν : Type*} {cmp : κ → κ → Ordering} [TransCmp cmp]

-- The orders in which the entries of a map may be visited. A hash map fixes one
-- of them, and nothing may depend on which.
def Visit (map : ExtTreeMap κ ν cmp) : Type _ :=
  {entries : List (κ × ν) // entries.Perm map.toList}

-- The visit in ascending key order.
def Visit.ascending (map : ExtTreeMap κ ν cmp) : Visit map :=
  ⟨map.toList, List.Perm.refl _⟩

section Lookup

variable [LawfulEqCmp cmp]

omit [LawfulEqCmp cmp] in
theorem toList_keys_nodup (map : ExtTreeMap κ ν cmp) : (map.toList.map Prod.fst).Nodup := by
  rw [List.Nodup, List.pairwise_map]
  apply map.ordered_keys_toList.imp
  intro a b hlt heq
  have he : cmp a.1 b.1 = .eq := heq ▸ ReflCmp.compare_self
  rw [he] at hlt
  cases hlt

omit [LawfulEqCmp cmp] in
theorem toList_nodup (map : ExtTreeMap κ ν cmp) : map.toList.Nodup :=
  List.Nodup.of_map _ (toList_keys_nodup map)

omit [LawfulEqCmp cmp] in
theorem head?_toList (map : ExtTreeMap κ ν cmp) :
    map.toList.head?.map Prod.fst = map.minKey? := by
  rw [← List.head?_map, ExtTreeMap.map_fst_toList_eq_keys, ExtTreeMap.minKey?_eq_head?_keys]

omit [LawfulEqCmp cmp] in
theorem mem_iff_getElem? (map : ExtTreeMap κ ν cmp) (key : κ) :
    key ∈ map ↔ ∃ value, map[key]? = some value := by
  rw [ExtTreeMap.mem_iff_isSome_getElem?, Option.isSome_iff_exists]

omit [LawfulEqCmp cmp] in
theorem mem_of_getElem? {map : ExtTreeMap κ ν cmp} {key : κ} {value : ν}
    (hfound : map[key]? = some value) : key ∈ map :=
  (mem_iff_getElem? map key).mpr ⟨value, hfound⟩

-- The lookup lemmas of the library with equality of keys in place of `cmp`.
theorem getElem?_insert [DecidableEq κ] (map : ExtTreeMap κ ν cmp) (key k : κ) (value : ν) :
    (map.insert key value)[k]? = if key = k then some value else map[k]? := by
  rw [ExtTreeMap.getElem?_insert]
  exact if_congr LawfulEqCmp.compare_eq_iff_eq rfl rfl

theorem getElem?_erase [DecidableEq κ] (map : ExtTreeMap κ ν cmp) (key k : κ) :
    (map.erase key)[k]? = if key = k then none else map[k]? := by
  rw [ExtTreeMap.getElem?_erase]
  exact if_congr LawfulEqCmp.compare_eq_iff_eq rfl rfl

theorem getElem?_insertIfNew [DecidableEq κ] (map : ExtTreeMap κ ν cmp) (key k : κ) (value : ν) :
    (map.insertIfNew key value)[k]? =
      if key = k ∧ map[key]? = none then some value else map[k]? := by
  have hmem : key ∉ map ↔ map[key]? = none := by simp
  rw [ExtTreeMap.getElem?_insertIfNew]
  exact if_congr (and_congr LawfulEqCmp.compare_eq_iff_eq hmem) rfl rfl

theorem contains_insertIfNew_iff (map : ExtTreeMap κ ν cmp) (key k : κ) (value : ν) :
    (map.insertIfNew key value).contains k ↔ key = k ∨ map.contains k := by
  rw [ExtTreeMap.contains_insertIfNew, Bool.or_eq_true, beq_iff_eq,
    LawfulEqCmp.compare_eq_iff_eq]

theorem mem_insert (map : ExtTreeMap κ ν cmp) (key k : κ) (value : ν) :
    k ∈ map.insert key value ↔ key = k ∨ k ∈ map := by
  rw [ExtTreeMap.mem_insert, LawfulEqCmp.compare_eq_iff_eq]

theorem mem_insert_of_mem {map : ExtTreeMap κ ν cmp} {key : κ} (hkey : key ∈ map) (value : ν)
    (k : κ) : k ∈ map.insert key value ↔ k ∈ map := by
  rw [mem_insert]
  refine or_iff_right_of_imp ?_
  rintro rfl
  exact hkey

theorem mem_erase (map : ExtTreeMap κ ν cmp) (key k : κ) :
    k ∈ map.erase key ↔ key ≠ k ∧ k ∈ map := by
  rw [ExtTreeMap.mem_erase, ne_eq, LawfulEqCmp.compare_eq_iff_eq]

-- Overwriting an entry leaves the keys as they are.
theorem contains_insert_of_contains {map : ExtTreeMap κ ν cmp} {key : κ}
    (hkey : map.contains key) (value : ν) (k : κ) :
    (map.insert key value).contains k = map.contains k := by
  rw [ExtTreeMap.contains_insert, Bool.or_eq_right_iff_imp]
  intro heq
  rwa [← LawfulEqCmp.compare_eq_iff_eq.mp (beq_iff_eq.mp heq)]

theorem mem_visit {map : ExtTreeMap κ ν cmp} (visit : Visit map) (key : κ) (value : ν) :
    (key, value) ∈ visit.val ↔ map[key]? = some value := by
  rw [visit.property.mem_iff, ExtTreeMap.mem_toList_iff_getElem?_eq_some]

theorem toList_insert_perm (map : ExtTreeMap κ ν cmp) (key : κ) (value : ν)
    (hfresh : map[key]? = none) :
    (map.insert key value).toList.Perm ((key, value) :: map.toList) := by
  have hn : ((key, value) :: map.toList).Nodup := by
    refine List.nodup_cons.mpr ⟨?_, toList_nodup map⟩
    rw [ExtTreeMap.mem_toList_iff_getElem?_eq_some, hfresh]
    simp
  refine (List.perm_ext_iff_of_nodup (toList_nodup _) hn).mpr ?_
  rintro ⟨k, v⟩
  classical
  rw [ExtTreeMap.mem_toList_iff_getElem?_eq_some, getElem?_insert, List.mem_cons,
    ExtTreeMap.mem_toList_iff_getElem?_eq_some, Prod.mk.injEq]
  by_cases he : key = k
  · subst k
    simp only [if_true, Option.some.injEq, true_and, hfresh, reduceCtorEq, or_false]
    exact eq_comm
  · simp [he, Ne.symm he]

theorem toList_erase_perm (map : ExtTreeMap κ ν cmp) (key : κ) (value : ν)
    (hfound : map[key]? = some value) :
    map.toList.Perm ((key, value) :: (map.erase key).toList) := by
  have hn : ((key, value) :: (map.erase key).toList).Nodup := by
    refine List.nodup_cons.mpr ⟨?_, toList_nodup _⟩
    rw [ExtTreeMap.mem_toList_iff_getElem?_eq_some]
    simp
  refine (List.perm_ext_iff_of_nodup (toList_nodup _) hn).mpr ?_
  rintro ⟨k, v⟩
  classical
  rw [ExtTreeMap.mem_toList_iff_getElem?_eq_some, List.mem_cons,
    ExtTreeMap.mem_toList_iff_getElem?_eq_some, getElem?_erase, Prod.mk.injEq]
  by_cases he : key = k
  · subst k
    simp [hfound, eq_comm]
  · simp [he, Ne.symm he]

-- Of two values written one after the other the second stays.
theorem insert_insert (map : ExtTreeMap κ ν cmp) (key : κ) (first second : ν) :
    (map.insert key first).insert key second = map.insert key second := by
  classical
  apply ExtTreeMap.ext_getElem?
  intro other
  rw [getElem?_insert, getElem?_insert, getElem?_insert]
  split_ifs <;> rfl

-- Writing back the value already stored changes nothing.
theorem insert_of_getElem? (map : ExtTreeMap κ ν cmp) (key : κ) (value : ν)
    (hfound : map[key]? = some value) : map.insert key value = map := by
  classical
  apply ExtTreeMap.ext_getElem?
  intro k
  rw [getElem?_insert]
  split
  · rename_i he
    rw [← he, hfound]
  · rfl

-- A value that was taken out and is put back, or that was put in and is taken out.
theorem insert_erase (map : ExtTreeMap κ ν cmp) (key : κ) (value : ν)
    (hfound : map[key]? = some value) : (map.erase key).insert key value = map := by
  classical
  apply ExtTreeMap.ext_getElem?
  intro other
  rw [getElem?_insert, getElem?_erase]
  split_ifs with he
  · rw [← he, hfound]
  · rfl

theorem erase_insert_self (map : ExtTreeMap κ ν cmp) (key : κ) (value : ν) :
    (map.insert key value).erase key = map.erase key := by
  classical
  apply ExtTreeMap.ext_getElem?
  intro other
  rw [getElem?_erase, getElem?_erase, getElem?_insert]
  split_ifs <;> rfl

theorem erase_of_none (map : ExtTreeMap κ ν cmp) (key : κ) (hnone : map[key]? = none) :
    map.erase key = map := by
  classical
  apply ExtTreeMap.ext_getElem?
  intro other
  rw [getElem?_erase]
  split_ifs with he
  · rw [← he, hnone]
  · rfl

omit [LawfulEqCmp cmp] in
theorem not_contains_iff (map : ExtTreeMap κ ν cmp) (key : κ) :
    ¬map.contains key ↔ map[key]? = none := by
  rw [ExtTreeMap.contains_iff_mem, ExtTreeMap.mem_iff_isSome_getElem?]
  simp

theorem insertIfNew_of_none (map : ExtTreeMap κ ν cmp) (key : κ) (value : ν)
    (hfresh : map[key]? = none) : map.insertIfNew key value = map.insert key value := by
  have hn : key ∉ map := by simpa using hfresh
  apply ExtTreeMap.ext_getElem?
  intro k
  rw [ExtTreeMap.getElem?_insertIfNew, ExtTreeMap.getElem?_insert]
  simp only [hn, not_false_eq_true, and_true]

theorem insertIfNew_of_some (map : ExtTreeMap κ ν cmp) (key : κ) (value : ν) {found : ν}
    (hfound : map[key]? = some found) : map.insertIfNew key value = map := by
  have hn : key ∈ map := by simp [ExtTreeMap.mem_iff_isSome_getElem?, hfound]
  apply ExtTreeMap.ext_getElem?
  intro k
  rw [ExtTreeMap.getElem?_insertIfNew, if_neg fun h => h.2 hn]

end Lookup

section Total

-- The sum of a weight over all entries.
def total (weight : ν → Nat) (map : ExtTreeMap κ ν cmp) : Nat :=
  (map.toList.map fun entry => weight entry.2).sum

@[simp] theorem total_empty (weight : ν → Nat) :
    total weight (∅ : ExtTreeMap κ ν cmp) = 0 := by
  have h : (∅ : ExtTreeMap κ ν cmp).toList = [] := ExtTreeMap.toList_eq_nil_iff.mpr rfl
  simp [total, h]

theorem total_visit (weight : ν → Nat) {map : ExtTreeMap κ ν cmp} (visit : Visit map) :
    (visit.val.map fun entry => weight entry.2).sum = total weight map :=
  (visit.property.map _).sum_eq

variable [LawfulEqCmp cmp]

theorem total_insert (weight : ν → Nat) (map : ExtTreeMap κ ν cmp) (key : κ) (value : ν)
    (hfresh : map[key]? = none) :
    total weight (map.insert key value) = total weight map + weight value := by
  unfold total
  rw [((toList_insert_perm map key value hfresh).map _).sum_eq, List.map_cons, List.sum_cons,
    Nat.add_comm]

theorem total_erase (weight : ν → Nat) (map : ExtTreeMap κ ν cmp) (key : κ) (value : ν)
    (hfound : map[key]? = some value) :
    total weight (map.erase key) + weight value = total weight map := by
  unfold total
  rw [((toList_erase_perm map key value hfound).map _).sum_eq, List.map_cons, List.sum_cons,
    Nat.add_comm]

-- Overwriting an entry exchanges its weight.
theorem total_replace (weight : ν → Nat) (map : ExtTreeMap κ ν cmp) (key : κ) (old new : ν)
    (hfound : map[key]? = some old) :
    total weight (map.insert key new) + weight old = total weight map + weight new := by
  have herase : (map.erase key)[key]? = none := by simp
  have hmap : (map.erase key).insert key new = map.insert key new := by
    apply ExtTreeMap.ext_getElem?
    intro k
    simp only [ExtTreeMap.getElem?_insert, ExtTreeMap.getElem?_erase]
    split <;> rfl
  have hi := total_insert weight (map.erase key) key new herase
  have he := total_erase weight map key old hfound
  rw [hmap] at hi
  omega

theorem total_pos_iff (weight : ν → Nat) (map : ExtTreeMap κ ν cmp) :
    0 < total weight map ↔ ∃ (key : κ) (value : ν), map[key]? = some value ∧ 0 < weight value := by
  unfold total
  constructor
  · intro h
    obtain ⟨w, hw, hpos⟩ : ∃ w ∈ map.toList.map fun entry => weight entry.2, 0 < w := by
      by_contra! hn
      have hz : (map.toList.map fun entry => weight entry.2).sum = 0 :=
        List.sum_eq_zero fun w hw => Nat.le_zero.mp (hn w hw)
      omega
    obtain ⟨⟨key, value⟩, hm, rfl⟩ := List.mem_map.mp hw
    exact ⟨key, value, ExtTreeMap.mem_toList_iff_getElem?_eq_some.mp hm, hpos⟩
  · rintro ⟨key, value, hfound, hpos⟩
    have hm := ExtTreeMap.mem_toList_iff_getElem?_eq_some.mpr hfound
    have hle := List.single_le_sum (fun _ _ => Nat.zero_le _) _
      (List.mem_map_of_mem (f := fun entry : κ × ν => weight entry.2) hm)
    exact hpos.trans_le hle

theorem total_le (f g : ν → Nat) (map : ExtTreeMap κ ν cmp)
    (hle : ∀ (key : κ) (value : ν), map[key]? = some value → f value ≤ g value) :
    total f map ≤ total g map := by
  apply List.sum_le_sum
  rintro ⟨key, value⟩ hm
  exact hle key value (ExtTreeMap.mem_toList_iff_getElem?_eq_some.mp hm)

theorem le_total (weight : ν → Nat) (map : ExtTreeMap κ ν cmp) (key : κ) (value : ν)
    (hfound : map[key]? = some value) : weight value ≤ total weight map := by
  have h := total_erase weight map key value hfound
  omega

omit [LawfulEqCmp cmp] in
theorem total_mul (weight : ν → Nat) (factor : Nat) (map : ExtTreeMap κ ν cmp) :
    total (fun value => weight value * factor) map = total weight map * factor := by
  unfold total
  induction map.toList with
  | nil => simp
  | cons entry rest ih => simp only [List.map_cons, List.sum_cons, ih, Nat.add_mul]

omit [LawfulEqCmp cmp] in
theorem total_indicator (holds : ν → Bool) (map : ExtTreeMap κ ν cmp) :
    total (fun value => if holds value then 1 else 0) map =
      map.toList.countP fun entry => holds entry.2 := by
  unfold total
  induction map.toList with
  | nil => rfl
  | cons entry rest ih => rw [List.map_cons, List.sum_cons, List.countP_cons, ih, Nat.add_comm]

omit [LawfulEqCmp cmp] in
theorem total_one (map : ExtTreeMap κ ν cmp) : total (fun _ => 1) map = map.size := by
  unfold total
  rw [List.map_const', List.sum_replicate, ExtTreeMap.length_toList, Nat.nsmul_eq_mul, Nat.mul_one]

theorem total_le_size_mul (weight : ν → Nat) (map : ExtTreeMap κ ν cmp) {bound : Nat}
    (hle : ∀ (key : κ) (value : ν), map[key]? = some value → weight value ≤ bound) :
    total weight map ≤ map.size * bound := by
  rw [← total_one, ← total_mul]
  refine total_le _ _ map ?_
  intro key value hfound
  rw [Nat.one_mul]
  exact hle key value hfound

omit [LawfulEqCmp cmp] in
theorem total_map {μ : Type*} (f : ν → μ) (weight : μ → Nat) (map : ExtTreeMap κ ν cmp) :
    total weight (map.map fun _ value => f value) = total (fun value => weight (f value)) map := by
  simp only [total, ExtTreeMap.toList_map, List.map_map]
  rfl

end Total

section Map

variable {μ : Type*} [LawfulEqCmp cmp] (f : ν → μ) (map : ExtTreeMap κ ν cmp)

-- Maps with the same images are equal, where `f` loses nothing.
theorem eq_of_map_eq {first second : ExtTreeMap κ ν cmp}
    (hmap : ∀ key : κ, first[key]?.map f = second[key]?.map f)
    (hinj : ∀ (key : κ) (a b : ν), first[key]? = some a → second[key]? = some b →
      f a = f b → a = b) : first = second := by
  apply ExtTreeMap.ext_getElem?
  intro key
  have hkey := hmap key
  cases hfirst : first[key]? with
  | none =>
    rw [hfirst, Option.map_none, eq_comm, Option.map_eq_none_iff] at hkey
    exact hkey.symm
  | some a =>
    rw [hfirst, Option.map_some, eq_comm, Option.map_eq_some_iff] at hkey
    obtain ⟨b, hsecond, hb⟩ := hkey
    rw [hsecond, hinj key a b hfirst hsecond hb.symm]

theorem map_insert (key : κ) (value : ν) :
    (map.insert key value).map (fun _ v => f v) =
      (map.map fun _ v => f v).insert key (f value) := by
  classical
  apply ExtTreeMap.ext_getElem?
  intro k
  rw [ExtTreeMap.getElem?_map, getElem?_insert, getElem?_insert, ExtTreeMap.getElem?_map]
  split <;> rfl

theorem map_erase (key : κ) :
    (map.erase key).map (fun _ v => f v) = (map.map fun _ v => f v).erase key := by
  classical
  apply ExtTreeMap.ext_getElem?
  intro k
  rw [ExtTreeMap.getElem?_map, getElem?_erase, getElem?_erase, ExtTreeMap.getElem?_map]
  split <;> rfl

end Map

end FiniteMap
