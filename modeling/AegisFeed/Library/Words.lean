import Mathlib.Algebra.Group.Nat.Defs
import Mathlib.Data.List.Nodup
import Mathlib.Data.List.Perm.Subperm

namespace Words

-- Fixed-width arithmetic that stays in range agrees with arithmetic on `Nat`.

theorem toNat_add64 {a b : UInt64} (h : a.toNat + b.toNat < 2 ^ 64) :
    (a + b).toNat = a.toNat + b.toNat := by
  rw [UInt64.toNat_add, Nat.mod_eq_of_lt h]

theorem toNat_sub64 {a b : UInt64} (h : b.toNat ≤ a.toNat) :
    (a - b).toNat = a.toNat - b.toNat :=
  UInt64.toNat_sub_of_le _ _ (UInt64.le_iff_toNat_le.mpr h)

theorem toNat_sub32 {a b : UInt32} (h : b.toNat ≤ a.toNat) :
    (a - b).toNat = a.toNat - b.toNat :=
  UInt32.toNat_sub_of_le _ _ (UInt32.le_iff_toNat_le.mpr h)

-- A 32-bit word added to a 64-bit one, or taken from it.
theorem toNat_add_widen {a : UInt64} {b : UInt32} (h : a.toNat + b.toNat < 2 ^ 64) :
    (a + b.toUInt64).toNat = a.toNat + b.toNat := by
  rw [← UInt32.toNat_toUInt64 b] at h ⊢
  exact toNat_add64 h

theorem toNat_sub_widen {a : UInt64} {b : UInt32} (h : b.toNat ≤ a.toNat) :
    (a - b.toUInt64).toNat = a.toNat - b.toNat := by
  rw [← UInt32.toNat_toUInt64 b] at h ⊢
  exact toNat_sub64 h

theorem lt_widen_iff {a : UInt64} {b : UInt32} : a < b.toUInt64 ↔ a.toNat < b.toNat := by
  rw [UInt64.lt_iff_toNat_lt, UInt32.toNat_toUInt64]

theorem toNat_succ32 {a : UInt32} (h : a.toNat < 2 ^ 32 - 1) :
    (a + 1).toNat = a.toNat + 1 := by
  rw [UInt32.toNat_add, UInt32.toNat_one, Nat.mod_eq_of_lt (by omega)]

theorem toNat_pred32 {a : UInt32} (h : 0 < a.toNat) : (a - 1).toNat = a.toNat - 1 :=
  toNat_sub32 (by rw [UInt32.toNat_one]; exact h)

-- The guard `b > max - a` of an addition is exact.
theorem gt_max_sub_iff (a b : UInt64) :
    b > 0xFFFFFFFFFFFFFFFF - a ↔ 2 ^ 64 ≤ a.toNat + b.toNat := by
  have ha := a.toNat_lt
  have hm : (0xFFFFFFFFFFFFFFFF : UInt64).toNat = 2 ^ 64 - 1 := rfl
  rw [gt_iff_lt, UInt64.lt_iff_toNat_lt, toNat_sub64 (by omega), hm]
  omega

theorem eq_max32_iff (a : UInt32) : a = 0xFFFFFFFF ↔ a.toNat = 2 ^ 32 - 1 := by
  rw [← UInt32.toNat_inj]
  rfl

theorem eq_zero32_iff (a : UInt32) : a = 0 ↔ a.toNat = 0 := by
  rw [← UInt32.toNat_inj]
  rfl

theorem eq_one32_iff (a : UInt32) : a = 1 ↔ a.toNat = 1 := by
  rw [← UInt32.toNat_inj]
  rfl

theorem eq_zero64_iff (a : UInt64) : a = 0 ↔ a.toNat = 0 := by
  rw [← UInt64.toNat_inj]
  rfl

-- There are no more words in a list than there are words, if none occurs twice.
theorem length_le_of_nodup {α : Type*} {value : α → Nat} (hvalue : Function.Injective value)
    {list : List α} (hnodup : list.Nodup) {bound : Nat}
    (hbound : ∀ element ∈ list, value element < bound) : list.length ≤ bound := by
  have hsubset : list.map value ⊆ List.range bound := by
    intro number hnumber
    obtain ⟨element, helement, rfl⟩ := List.mem_map.mp hnumber
    exact List.mem_range.mpr (hbound element helement)
  have hle := ((List.Nodup.map hvalue hnodup).subperm hsubset).length_le
  rwa [List.length_map, List.length_range] at hle

section Checked

-- Arithmetic that refuses a result outside of its type.
def checkedAdd64 (a b : UInt64) : Option UInt64 :=
  if a.toNat + b.toNat < 2 ^ 64 then some (a + b) else none

def checkedSub64 (a b : UInt64) : Option UInt64 :=
  if b.toNat ≤ a.toNat then some (a - b) else none

def checkedAdd32 (a b : UInt32) : Option UInt32 :=
  if a.toNat + b.toNat < 2 ^ 32 then some (a + b) else none

def checkedSub32 (a b : UInt32) : Option UInt32 :=
  if b.toNat ≤ a.toNat then some (a - b) else none

-- The comparisons that guard each of them in wrapping arithmetic.
theorem checkedSub64_max (a : UInt64) :
    checkedSub64 0xFFFFFFFFFFFFFFFF a = some (0xFFFFFFFFFFFFFFFF - a) := by
  have h := a.toNat_lt
  exact if_pos (Nat.le_of_lt_succ h)

theorem checkedAdd64_of_guard {a b : UInt64} (h : ¬b > 0xFFFFFFFFFFFFFFFF - a) :
    checkedAdd64 a b = some (a + b) := by
  rw [gt_max_sub_iff, Nat.not_le] at h
  exact if_pos h

theorem checkedSub64_of_not_lt {a b : UInt64} (h : ¬a < b) : checkedSub64 a b = some (a - b) := by
  rw [UInt64.lt_iff_toNat_lt, Nat.not_lt] at h
  exact if_pos h

theorem checkedSub32_of_not_gt {a b : UInt32} (h : ¬b > a) : checkedSub32 a b = some (a - b) := by
  rw [gt_iff_lt, UInt32.lt_iff_toNat_lt, Nat.not_lt] at h
  exact if_pos h

theorem checkedSub32_one {a : UInt32} (h : a ≠ 0) : checkedSub32 a 1 = some (a - 1) := by
  rw [ne_eq, eq_zero32_iff] at h
  exact if_pos (Nat.pos_of_ne_zero h)

theorem checkedAdd32_one {a : UInt32} (h : a ≠ 0xFFFFFFFF) :
    checkedAdd32 a 1 = some (a + 1) := by
  rw [ne_eq, eq_max32_iff] at h
  have hlt := a.toNat_lt
  have hone : (1 : UInt32).toNat = 1 := rfl
  exact if_pos (by omega)

-- A guard returns early, so what follows it may use that the guard does not hold.
theorem guard_checked {α : Type*} {guard : Prop} [Decidable guard] {early value : α}
    {rest : Option α} (h : ¬guard → rest = some value) :
    (if guard then pure early else rest) = some (if guard then early else value) := by
  by_cases hguard : guard
  · rw [if_pos hguard, if_pos hguard]
    rfl
  · rw [if_neg hguard, if_neg hguard, h hguard]

end Checked

end Words
