import Mathlib.Data.List.Basic

namespace Slices

-- Parts of a list, by offset and width.
variable {β : Type}

def slice (list : List β) (offset width : Nat) : List β :=
  (list.drop offset).take width

@[simp] theorem length_slice {list : List β} {offset width : Nat}
    (h : offset + width ≤ list.length) :
    (slice list offset width).length = width := by
  simp only [slice, List.length_take, List.length_drop]
  omega

@[simp] theorem slice_self {list : List β} {width : Nat} (h : list.length = width) :
    slice list 0 width = list := by
  simp [slice, ← h]

-- Two neighbours are one slice.
@[simp] theorem slice_append_slice (list : List β) {offset offset' width : Nat} (width' : Nat)
    (h : offset' = offset + width) :
    slice list offset width ++ slice list offset' width' =
      slice list offset (width + width') := by
  subst h
  simp only [slice, List.take_add, List.drop_drop]

@[simp] theorem slice_append_left {first : List β} (second : List β) {width : Nat}
    (h : first.length = width) : slice (first ++ second) 0 width = first := by
  simp [slice, ← h]

@[simp] theorem slice_append_right {first : List β} (second : List β) {offset : Nat} (width : Nat)
    (h : first.length ≤ offset) :
    slice (first ++ second) offset width = slice second (offset - first.length) width := by
  simp [slice, List.drop_append, List.drop_eq_nil_of_le h]

theorem getElem?_slice (list : List β) (offset width index : Nat) :
    (slice list offset width)[index]? =
      if index < width then list[offset + index]? else none := by
  simp [slice, List.getElem?_take]

theorem forall_mem_slice_iff {list : List β} {offset width : Nat} {property : β → Prop}
    (h : offset + width ≤ list.length) :
    (∀ element ∈ slice list offset width, property element) ↔
      ∀ index < width, ∃ element, list[offset + index]? = some element ∧ property element := by
  constructor
  · intro hall index hindex
    have hlt : offset + index < list.length := by omega
    have hat : list[offset + index]? = some list[offset + index] := List.getElem?_eq_getElem hlt
    refine ⟨list[offset + index], hat, hall _ (List.mem_iff_getElem?.mpr ⟨index, ?_⟩)⟩
    rw [getElem?_slice, if_pos hindex, hat]
  · intro hall element hmem
    obtain ⟨index, hat⟩ := List.mem_iff_getElem?.mp hmem
    rw [getElem?_slice] at hat
    split_ifs at hat with hindex
    obtain ⟨other, hother, hproperty⟩ := hall index hindex
    cases hat.symm.trans hother
    exact hproperty

theorem slice_one {list : List β} {offset : Nat} {element : β}
    (h : list[offset]? = some element) : slice list offset 1 = [element] := by
  obtain ⟨hlt, rfl⟩ := List.getElem?_eq_some_iff.mp h
  rw [slice, List.drop_eq_getElem_cons hlt]
  rfl

section Overlay

-- The list with other elements from an offset on.
def overlay (list : List β) (offset : Nat) (elements : List β) : List β :=
  list.take offset ++ elements ++ list.drop (offset + elements.length)

variable {list elements : List β} {offset : Nat} (h : offset + elements.length ≤ list.length)

include h

theorem length_overlay : (overlay list offset elements).length = list.length := by
  simp only [overlay, List.length_append, List.length_take, List.length_drop]
  omega

theorem getElem?_overlay (index : Nat) :
    (overlay list offset elements)[index]? =
      if offset ≤ index ∧ index < offset + elements.length then elements[index - offset]?
      else list[index]? := by
  have htake : (list.take offset).length = offset := List.length_take_of_le (by omega)
  by_cases hbefore : index < offset
  · have hleft : index < (list.take offset ++ elements).length := by
      rw [List.length_append, htake]
      omega
    rw [overlay, List.getElem?_append_left hleft, List.getElem?_append_left (by rwa [htake]),
      List.getElem?_take_of_lt hbefore, if_neg (by omega)]
  by_cases hinside : index < offset + elements.length
  · have hleft : index < (list.take offset ++ elements).length := by
      rw [List.length_append, htake]
      exact hinside
    rw [overlay, List.getElem?_append_left hleft, List.getElem?_append_right (by omega), htake,
      if_pos (by omega)]
  · rw [overlay, List.getElem?_append_right (by rw [List.length_append, htake]; omega),
      List.getElem?_drop, List.length_append, htake, if_neg (by omega)]
    congr 1
    omega

theorem slice_overlay_self :
    slice (overlay list offset elements) offset elements.length = elements := by
  apply List.ext_getElem?
  intro index
  rw [getElem?_slice, getElem?_overlay h]
  by_cases hindex : index < elements.length
  · rw [if_pos hindex, if_pos (by omega), Nat.add_sub_cancel_left]
  · rw [if_neg hindex, List.getElem?_eq_none (by omega)]

-- A part that the new elements do not reach.
theorem slice_overlay_of_apart {offset' width : Nat}
    (hapart : offset + elements.length ≤ offset' ∨ offset' + width ≤ offset) :
    slice (overlay list offset elements) offset' width = slice list offset' width := by
  apply List.ext_getElem?
  intro index
  rw [getElem?_slice, getElem?_slice, getElem?_overlay h]
  by_cases hindex : index < width
  · rw [if_pos hindex, if_pos hindex, if_neg (by omega)]
  · rw [if_neg hindex, if_neg hindex]

end Overlay

section Overlays

-- One overlay after the other.
def overlays (list : List β) (patches : List (Nat × List β)) : List β :=
  patches.foldl (fun list patch => overlay list patch.1 patch.2) list

variable {list : List β} {patches : List (Nat × List β)}

theorem overlays_cons (patch : Nat × List β) (rest : List (Nat × List β)) :
    overlays list (patch :: rest) = overlays (overlay list patch.1 patch.2) rest :=
  rfl

theorem overlays_append (before after : List (Nat × List β)) :
    overlays list (before ++ after) = overlays (overlays list before) after :=
  List.foldl_append

variable (h : ∀ patch ∈ patches, patch.1 + patch.2.length ≤ list.length)

include h

theorem length_overlays : (overlays list patches).length = list.length := by
  induction patches generalizing list with
  | nil => rfl
  | cons patch rest ih =>
    rw [List.forall_mem_cons] at h
    have hlength := length_overlay h.1
    exact (ih (by rw [hlength]; exact h.2)).trans hlength

theorem slice_overlays_of_apart {offset width : Nat}
    (hapart : ∀ patch ∈ patches, patch.1 + patch.2.length ≤ offset ∨ offset + width ≤ patch.1) :
    slice (overlays list patches) offset width = slice list offset width := by
  induction patches generalizing list with
  | nil => rfl
  | cons patch rest ih =>
    rw [List.forall_mem_cons] at h hapart
    have hlength := length_overlay h.1
    exact (ih (by rw [hlength]; exact h.2) hapart.2).trans (slice_overlay_of_apart h.1 hapart.1)

end Overlays

-- The last overlay that reaches a part decides what is there.
theorem slice_overlays_last {list : List β} {before after : List (Nat × List β)}
    {patch : Nat × List β}
    (h : ∀ other ∈ before ++ patch :: after, other.1 + other.2.length ≤ list.length)
    (hapart : ∀ later ∈ after,
      later.1 + later.2.length ≤ patch.1 ∨ patch.1 + patch.2.length ≤ later.1) :
    slice (overlays list (before ++ patch :: after)) patch.1 patch.2.length = patch.2 := by
  rw [List.forall_mem_append, List.forall_mem_cons] at h
  obtain ⟨hbefore, hpatch, hafter⟩ := h
  have hlength := length_overlays hbefore
  rw [← hlength] at hpatch
  have hlength' := (length_overlay hpatch).trans hlength
  rw [overlays_append, overlays_cons]
  rw [slice_overlays_of_apart (by rw [hlength']; exact hafter) hapart, slice_overlay_self hpatch]

end Slices
