import AegisFeed.Library.FiniteMap
import Mathlib.Data.List.Induction

namespace FiniteMap

open Std

variable {κ ν : Type*} {cmp : κ → κ → Ordering} [TransCmp cmp]

-- The map that entries make when they are written one after another.
def ofEntries (entries : List (κ × ν)) : ExtTreeMap κ ν cmp :=
  entries.foldl (fun map entry => map.insert entry.1 entry.2) ∅

theorem ofEntries_concat (entries : List (κ × ν)) (entry : κ × ν) :
    (ofEntries (entries ++ [entry]) : ExtTreeMap κ ν cmp) =
      (ofEntries entries).insert entry.1 entry.2 := by
  rw [ofEntries, List.foldl_append]
  rfl

variable [LawfulEqCmp cmp]

theorem getElem?_of_not_mem_keys {map : ExtTreeMap κ ν cmp} {entries : List (κ × ν)}
    (hperm : map.toList.Perm entries) {key : κ} (hkey : key ∉ entries.map Prod.fst) :
    map[key]? = none := by
  rw [← not_contains_iff, ExtTreeMap.contains_iff_mem, mem_iff_getElem?]
  rintro ⟨value, hvalue⟩
  have hmem := hperm.mem_iff.mp (ExtTreeMap.mem_toList_iff_getElem?_eq_some.mpr hvalue)
  exact hkey (List.mem_map_of_mem hmem)

theorem ofEntries_toList_perm {entries : List (κ × ν)} (hnodup : (entries.map Prod.fst).Nodup) :
    (ofEntries entries : ExtTreeMap κ ν cmp).toList.Perm entries := by
  induction entries using List.reverseRecOn with
  | nil => simp [ofEntries]
  | append_singleton entries entry ih =>
    rw [List.map_append, List.nodup_append] at hnodup
    obtain ⟨hentries, -, hdisjoint⟩ := hnodup
    have hperm := ih hentries
    have hfresh := getElem?_of_not_mem_keys hperm fun hmem =>
      hdisjoint _ hmem _ (List.mem_singleton_self entry.1) rfl
    rw [ofEntries_concat]
    refine (toList_insert_perm _ _ _ hfresh).trans ((hperm.cons _).trans ?_)
    exact (List.perm_append_singleton entry entries).symm

section Whole

-- The entries of a map, in whatever order they come.
variable {map : ExtTreeMap κ ν cmp} {entries : List (κ × ν)} (hperm : entries.Perm map.toList)

include hperm

omit [LawfulEqCmp cmp] in
theorem keys_nodup_of_perm : (entries.map Prod.fst).Nodup :=
  (hperm.map Prod.fst).nodup_iff.mpr (toList_keys_nodup map)

theorem ofEntries_eq_of_perm : ofEntries entries = map := by
  apply ExtTreeMap.ext_getElem?
  intro key
  apply Option.ext
  intro value
  rw [← ExtTreeMap.mem_toList_iff_getElem?_eq_some, ← ExtTreeMap.mem_toList_iff_getElem?_eq_some,
    (ofEntries_toList_perm (keys_nodup_of_perm hperm)).mem_iff, hperm.mem_iff]

end Whole

section Part

-- The entries of a map that come before one of them.
variable {map : ExtTreeMap κ ν cmp} {before after : List (κ × ν)} {entry : κ × ν}
  (hperm : (before ++ entry :: after).Perm map.toList)

include hperm

theorem ofEntries_before_getElem? :
    (ofEntries before : ExtTreeMap κ ν cmp)[entry.1]? = none := by
  have hnodup := keys_nodup_of_perm hperm
  rw [List.map_append, List.nodup_append] at hnodup
  obtain ⟨hbefore, -, hdisjoint⟩ := hnodup
  exact getElem?_of_not_mem_keys (ofEntries_toList_perm hbefore) fun hmem =>
    hdisjoint _ hmem _ List.mem_cons_self rfl

-- Together with it they weigh no more than the whole.
theorem total_ofEntries_before (weight : ν → Nat) :
    total weight (ofEntries before : ExtTreeMap κ ν cmp) + weight entry.2 ≤ total weight map := by
  have hnodup := keys_nodup_of_perm hperm
  rw [List.map_append] at hnodup
  have hmade : (ofEntries before : ExtTreeMap κ ν cmp).toList.Perm before :=
    ofEntries_toList_perm hnodup.of_append_left
  have hbefore := (hmade.map fun entry => weight entry.2).sum_eq
  have hwhole := (hperm.map fun entry => weight entry.2).sum_eq
  simp only [List.map_append, List.sum_append, List.map_cons, List.sum_cons] at hwhole
  unfold total
  omega

end Part

end FiniteMap
