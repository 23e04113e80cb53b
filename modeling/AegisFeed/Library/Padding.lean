import Mathlib.Data.List.DropRight

namespace Padding

-- Lists up to the blanks on their right.
variable {β : Type*} [DecidableEq β] (blank : β)

def trimmed (list : List β) : List β :=
  list.rdropWhile (· = blank)

-- A size counted down while the last element within it is blank.
def scan (list : List β) : Nat → Nat
  | 0 => 0
  | size + 1 => if list[size]? = some blank then scan list size else size + 1

theorem scan_le (list : List β) (size : Nat) : scan blank list size ≤ size := by
  induction size with
  | zero => exact Nat.le_refl _
  | succ size ih =>
    unfold scan
    split_ifs
    · exact Nat.le_succ_of_le ih
    · exact Nat.le_refl _

theorem take_scan (list : List β) {size : Nat} (hsize : size ≤ list.length) :
    list.take (scan blank list size) = trimmed blank (list.take size) := by
  induction size with
  | zero => rfl
  | succ size ih =>
    have hlt : size < list.length := hsize
    rw [List.take_succ_eq_append_getElem hlt]
    unfold scan trimmed
    rw [List.rdropWhile_concat]
    by_cases hblank : list[size] = blank
    · rw [if_pos (by rw [List.getElem?_eq_getElem hlt, hblank]), if_pos (decide_eq_true hblank)]
      exact ih (Nat.le_of_lt hlt)
    · rw [if_neg (by rwa [List.getElem?_eq_getElem hlt, Option.some_inj]),
        if_neg (by rwa [decide_eq_true_iff]), List.take_succ_eq_append_getElem hlt]

theorem take_scan_length (list : List β) :
    list.take (scan blank list list.length) = trimmed blank list := by
  rw [take_scan blank list (Nat.le_refl _), List.take_length]

theorem trimmed_pad (list : List β) (count : Nat) :
    trimmed blank (list ++ List.replicate count blank) = trimmed blank list := by
  induction count with
  | zero => rw [List.replicate_zero, List.append_nil]
  | succ count ih =>
    rw [List.replicate_succ', ← List.append_assoc]
    unfold trimmed at *
    rw [List.rdropWhile_concat, if_pos (decide_eq_true rfl), ih]

theorem trimmed_trimmed (list : List β) : trimmed blank (trimmed blank list) = trimmed blank list :=
  List.rdropWhile_idempotent _ _

theorem trimmed_prefix (list : List β) : trimmed blank list <+: list :=
  List.rdropWhile_prefix _ _

theorem trimmed_eq_nil_iff (list : List β) :
    trimmed blank list = [] ↔ ¬∃ element ∈ list, element ≠ blank := by
  unfold trimmed
  rw [List.rdropWhile_eq_nil_iff]
  simp

theorem trimmed_rightpad (width : Nat) (list : List β) :
    trimmed blank (list.rightpad width blank) = trimmed blank list :=
  trimmed_pad blank list _

-- A list is what is left of it and the blanks taken away.
theorem rightpad_trimmed {list : List β} {width : Nat} (hwidth : list.length = width) :
    (trimmed blank list).rightpad width blank = list := by
  have happend : trimmed blank list ++ list.rtakeWhile (decide <| · = blank) = list :=
    List.rdropWhile_append_rtakeWhile
  have hsum := congrArg List.length happend
  rw [List.length_append, hwidth] at hsum
  have hblanks : list.rtakeWhile (decide <| · = blank) =
      List.replicate (width - (trimmed blank list).length) blank := by
    refine List.eq_replicate_iff.mpr ⟨by omega, fun element hmem => ?_⟩
    have hblank := List.mem_rtakeWhile_imp hmem
    exact of_decide_eq_true hblank
  unfold List.rightpad
  rw [← hblanks, happend]

-- Two lists are padded to the same one when they differ only in blanks on the right.
theorem rightpad_eq_iff {first second : List β} {width : Nat} (hfirst : first.length ≤ width)
    (hsecond : second.length ≤ width) :
    first.rightpad width blank = second.rightpad width blank ↔
      trimmed blank first = trimmed blank second := by
  have hpad : ∀ {list : List β}, list.length ≤ width →
      (trimmed blank list).rightpad width blank = list.rightpad width blank := by
    intro list hle
    have hlength : (list.rightpad width blank).length = width := by
      rw [List.length_rightpad, Nat.max_eq_left hle]
    rw [← trimmed_rightpad blank width list, rightpad_trimmed blank hlength]
  constructor
  · intro heq
    rw [← trimmed_rightpad blank width first, heq, trimmed_rightpad]
  · intro htrimmed
    rw [← hpad hfirst, ← hpad hsecond, htrimmed]

end Padding
