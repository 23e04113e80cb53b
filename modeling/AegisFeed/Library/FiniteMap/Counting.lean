import AegisFeed.Library.FiniteMap
import Mathlib.Data.Set.Card

namespace FiniteMap

open Std

variable {κ ν : Type*} {cmp : κ → κ → Ordering} [TransCmp cmp] [LawfulEqCmp cmp]

section Places

variable {π : Type*} [DecidableEq π]

theorem sum_indicator (weight : Nat) {place : π} {places : List π} (hnodup : places.Nodup)
    (hmem : place ∈ places) :
    (places.map fun other => if place = other then weight else 0).sum = weight := by
  induction places with
  | nil => cases hmem
  | cons first rest ih =>
    obtain ⟨hnot, hrest⟩ := List.nodup_cons.mp hnodup
    rw [List.map_cons, List.sum_cons]
    by_cases heq : place = first
    · have hzero : ∀ other ∈ rest, (if place = other then weight else 0) = 0 := by
        intro other hother
        rw [if_neg]
        rintro rfl
        exact hnot (heq ▸ hother)
      rw [if_pos heq, List.map_congr_left hzero]
      simp
    · rw [if_neg heq, Nat.zero_add]
      exact ih hrest ((List.mem_cons.mp hmem).resolve_left heq)

-- Every value has one place, so a sum may be taken place by place.
theorem total_eq_sum_places (weight : ν → Nat) (place : ν → π) (map : ExtTreeMap κ ν cmp)
    {places : List π} (hnodup : places.Nodup)
    (hplaces : ∀ (key : κ) (value : ν), map[key]? = some value → place value ∈ places) :
    total weight map =
      (places.map fun p => total (fun v => if place v = p then weight v else 0) map).sum := by
  have hentries : ∀ entry ∈ map.toList, place entry.2 ∈ places := fun entry hentry =>
    hplaces entry.1 entry.2 (ExtTreeMap.mem_toList_iff_getElem?_eq_some.mp hentry)
  unfold total
  generalize map.toList = entries at hentries
  induction entries with
  | nil => simp
  | cons entry rest ih =>
    obtain ⟨hfirst, hrest⟩ := List.forall_mem_cons.mp hentries
    simp only [List.map_cons, List.sum_cons]
    rw [List.sum_map_add, sum_indicator (weight entry.2) hnodup hfirst, ih hrest]

end Places

section Exchange

variable (weight : ν → Nat) {map : ExtTreeMap κ ν cmp} {first second : κ} {a b : ν}

-- Two entries that change places, or one that stays at its own.
theorem total_exchange [DecidableEq κ] (hfirst : map[first]? = some a)
    (hsecond : map[second]? = some b) :
    total weight ((map.insert first b).insert second a) = total weight map := by
  have hfirst' := total_replace weight map first a b hfirst
  have hafter : (map.insert first b)[second]? = some b := by
    rw [getElem?_insert, hsecond, ite_self]
  have hsecond' := total_replace weight (map.insert first b) second b a hafter
  omega

end Exchange

section Holding

variable {holds : ν → Prop} [DecidablePred holds] {map : ExtTreeMap κ ν cmp}

-- Where at most one value is as said, it has one key.
theorem key_unique [DecidableEq κ]
    (hone : total (fun value => if holds value then 1 else 0) map ≤ 1) {first second : κ}
    {a b : ν} (hfirst : map[first]? = some a) (ha : holds a) (hsecond : map[second]? = some b)
    (hb : holds b) : first = second := by
  by_contra hne
  have htotal := total_erase (fun value => if holds value then 1 else 0) map first a hfirst
  have hother : (map.erase first)[second]? = some b := by
    rw [getElem?_erase, if_neg hne, hsecond]
  have hle := le_total (fun value => if holds value then 1 else 0) _ second b hother
  rw [if_pos ha] at htotal
  rw [if_pos hb] at hle
  omega

theorem holding_pos_iff : 0 < total (fun value => if holds value then 1 else 0) map ↔
    ∃ entry ∈ map.toList, holds entry.2 := by
  rw [total_pos_iff]
  constructor
  · rintro ⟨key, value, hfound, hpos⟩
    refine ⟨(key, value), ExtTreeMap.mem_toList_iff_getElem?_eq_some.mpr hfound, ?_⟩
    by_contra hnot
    rw [if_neg hnot] at hpos
    exact Nat.lt_irrefl 0 hpos
  · rintro ⟨⟨key, value⟩, hmem, hholds⟩
    refine ⟨key, value, ExtTreeMap.mem_toList_iff_getElem?_eq_some.mp hmem, ?_⟩
    rw [if_pos hholds]
    exact Nat.one_pos

end Holding

theorem ncard_setOf_mem {α : Type*} {list : List α} (hnodup : list.Nodup) :
    {element | element ∈ list}.ncard = list.length := by
  classical
  rw [← List.coe_toFinset, Set.ncard_coe_finset, List.toFinset_card_of_nodup hnodup]

-- The size of a map is the number of its keys.
theorem size_eq_ncard (map : ExtTreeMap κ ν cmp) {keys : Set κ}
    (hkeys : ∀ key, key ∈ map ↔ key ∈ keys) : map.size = keys.ncard := by
  have hset : keys = {key | key ∈ map.keys} := by
    ext key
    rw [Set.mem_ofPred_eq, ExtTreeMap.mem_keys, hkeys]
  rw [hset, ncard_setOf_mem ExtTreeMap.nodup_keys, ExtTreeMap.length_keys]

theorem countP_eq_ncard (holds : ν → Bool) (map : ExtTreeMap κ ν cmp) {keys : Set κ}
    (hkeys : ∀ key, (∃ value, map[key]? = some value ∧ holds value) ↔ key ∈ keys) :
    (map.toList.countP fun entry => holds entry.2) = keys.ncard := by
  have hset : keys = {key | key ∈ (map.toList.filter fun entry => holds entry.2).map Prod.fst} := by
    ext key
    rw [← hkeys]
    simp [ExtTreeMap.mem_toList_iff_getElem?_eq_some]
  have hnodup : ((map.toList.filter fun entry => holds entry.2).map Prod.fst).Nodup :=
    (toList_keys_nodup map).sublist (List.filter_sublist.map Prod.fst)
  rw [hset, ncard_setOf_mem hnodup, List.length_map, List.countP_eq_length_filter]

-- The pairs of a key and a key of the map that is made of its value.
theorem ncard_pairs {κ' μ : Type*} {cmp' : κ' → κ' → Ordering} [TransCmp cmp']
    [LawfulEqCmp cmp'] (inner : ν → ExtTreeMap κ' μ cmp') (map : ExtTreeMap κ ν cmp) :
    {pair : κ × κ' | ∃ value, map[pair.1]? = some value ∧ pair.2 ∈ inner value}.ncard =
      total (fun value => (inner value).size) map := by
  let pairs := map.toList.flatMap fun entry =>
    (inner entry.2).toList.map fun other => (entry.1, other.1)
  have hpairs : {pair : κ × κ' | ∃ value, map[pair.1]? = some value ∧ pair.2 ∈ inner value} =
      {pair | pair ∈ pairs} := by
    ext ⟨key, key'⟩
    simp only [Set.mem_ofPred_eq, pairs, List.mem_flatMap, List.mem_map, Prod.exists,
      Prod.mk.injEq, ExtTreeMap.mem_toList_iff_getElem?_eq_some, mem_iff_getElem?]
    constructor
    · rintro ⟨value, hfound, held, hheld⟩
      exact ⟨key, value, hfound, key', held, hheld, rfl, rfl⟩
    · rintro ⟨_, value, hfound, _, held, hheld, rfl, rfl⟩
      exact ⟨value, hfound, held, hheld⟩
  have hnodup : pairs.Nodup := by
    refine List.nodup_flatMap.mpr ⟨?_, ?_⟩
    · rintro ⟨key, value⟩ -
      have hkeys := toList_keys_nodup (inner value)
      have hpair := hkeys.map (Prod.mk_right_injective key)
      rwa [List.map_map] at hpair
    · have hkeys := toList_keys_nodup map
      rw [List.Nodup, List.pairwise_map] at hkeys
      refine hkeys.imp ?_
      intro first second hne pair hfirst hsecond
      obtain ⟨_, -, rfl⟩ := List.mem_map.mp hfirst
      obtain ⟨_, -, heq⟩ := List.mem_map.mp hsecond
      exact hne (congrArg Prod.fst heq).symm
  rw [hpairs, ncard_setOf_mem hnodup, List.length_flatMap]
  simp only [List.length_map, ExtTreeMap.length_toList, total]

end FiniteMap
