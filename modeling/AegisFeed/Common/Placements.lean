import AegisFeed.Common.Items

namespace AegisFeed

open Slices (slice overlay overlays)

-- The values that the functions with an offset read.
inductive Number where
  | u8 (value : UInt8)
  | u16 (value : UInt16)
  | u32 (value : UInt32)
  | u48 (value : UInt64)
  | u64 (value : UInt64)
deriving DecidableEq, Repr

def Number.item : Number → Item
  | .u8 value => .u8 value
  | .u16 value => .u16 value
  | .u32 value => .u32 value
  | .u48 value => .u48 value
  | .u64 value => .u64 value

def Number.width (number : Number) : Nat := number.item.kind.width.toNat

-- An item and the offset it is written to.
structure Placement where
  offset : UInt64
  item : Item
deriving DecidableEq, Repr

namespace Placement

def start (placement : Placement) : Nat := placement.offset.toNat
def width (placement : Placement) : Nat := placement.item.kind.width.toNat

def Fits (placement : Placement) (size : Nat) : Prop :=
  placement.item.InRange ∧ placement.start + placement.width ≤ size

instance (placement : Placement) (size : Nat) : Decidable (placement.Fits size) :=
  inferInstanceAs (Decidable (placement.item.InRange ∧ _ ≤ size))

-- The bytes of an item and those of a part of the buffer have none in common.
def Apart (placement : Placement) (offset width : Nat) : Prop :=
  placement.start + placement.width ≤ offset ∨ offset + width ≤ placement.start

end Placement

namespace Span

def write (bytes : Span) (placement : Placement) : Bool × Span :=
  match placement.item with
  | .u8 value => write_u8 bytes placement.offset value
  | .u16 value => write_u16_be bytes placement.offset value
  | .u32 value => write_u32_be bytes placement.offset value
  | .u48 value => write_u48_be bytes placement.offset value
  | .u64 value => write_u64_be bytes placement.offset value
  | .bytes value => write_bytes bytes placement.offset value

-- What was in `out` says which function reads.
def read (bytes : Span) (offset : UInt64) : Number → Bool × Number
  | .u8 out => named .u8 (read_u8 bytes offset out)
  | .u16 out => named .u16 (read_u16_be bytes offset out)
  | .u32 out => named .u32 (read_u32_be bytes offset out)
  | .u48 out => named .u48 (read_u48_be bytes offset out)
  | .u64 out => named .u64 (read_u64_be bytes offset out)
where
  named {α : Type} (constructor : α → Number) (outcome : Bool × α) : Bool × Number :=
    (outcome.1, constructor outcome.2)

section Write

variable {bytes : Span} {offset width : UInt64}

-- A write that succeeds lays the elements over the buffer.
structure Laid (bytes : Span) (offset : Nat) (elements : List UInt8) (outcome : Bool × Span) :
    Prop where
  result : outcome.1 = true
  bytes : outcome.2.bytes = overlay bytes.bytes offset elements

theorem write_unsigned_be_laid {bits : Nat} (value : BitVec bits)
    (h : offset.toNat + width.toNat ≤ bytes.bytes.length) :
    bytes.Laid offset.toNat (BigEndian.encode width.toNat value.toNat)
      (write_unsigned_be bytes offset width value) := by
  unfold write_unsigned_be
  rw [if_pos ((can_write_iff _ _ _).mpr h)]
  refine ⟨rfl, ?_⟩
  show shift_out _ _ _ _ = _
  rw [shift_out_eq _ _ _ _ h, overlay, BigEndian.length_encode]

theorem write_unsigned_be_refused {bits : Nat} (value : BitVec bits)
    (h : ¬offset.toNat + width.toNat ≤ bytes.bytes.length) :
    write_unsigned_be bytes offset width value = (false, bytes) := by
  rw [← can_write_iff] at h
  exact if_neg h

theorem write_bytes_laid {source : Span}
    (h : offset.toNat + source.size.toNat ≤ bytes.bytes.length) :
    bytes.Laid offset.toNat source.bytes (write_bytes bytes offset source) := by
  have hcan := (can_write_iff _ _ _).mpr h
  rw [toNat_size] at h
  unfold write_bytes
  rw [if_neg (not_not_intro hcan)]
  by_cases hempty : source.bytes = []
  · rw [if_neg (not_not_intro hempty), hempty]
    refine ⟨rfl, ?_⟩
    rw [overlay, List.append_nil, List.length_nil, Nat.add_zero, List.take_append_drop]
  · rw [if_pos hempty]
    exact ⟨rfl, memmove_eq h⟩

theorem write_laid {placement : Placement} (h : placement.Fits bytes.bytes.length) :
    bytes.Laid placement.start placement.item.wire (bytes.write placement) := by
  rcases placement with ⟨offset, item⟩
  obtain ⟨hrange, hfits⟩ := h
  cases item with
  | u48 value =>
    have hmost : value ≤ max_u48_value := hrange
    show Laid _ _ _ (write_u48_be bytes offset value)
    unfold write_u48_be
    rw [if_pos hmost]
    exact write_unsigned_be_laid value.toBitVec hfits
  | bytes value => exact write_bytes_laid hfits
  | _ => exact write_unsigned_be_laid _ hfits

theorem write_refused {placement : Placement} (h : ¬placement.Fits bytes.bytes.length) :
    bytes.write placement = (false, bytes) := by
  rcases placement with ⟨offset, item⟩
  cases item with
  | u48 value =>
    show write_u48_be bytes offset value = _
    unfold write_u48_be
    split_ifs with hrange
    · exact write_unsigned_be_refused _ fun hfits => h ⟨hrange, hfits⟩
    · rfl
  | bytes value =>
    have hfits : ¬offset.toNat + value.size.toNat ≤ bytes.bytes.length :=
      fun hfits => h ⟨trivial, hfits⟩
    rw [← can_write_iff] at hfits
    exact if_pos hfits
  | _ => exact write_unsigned_be_refused _ fun hfits => h ⟨trivial, hfits⟩

theorem write_result (placement : Placement) :
    (bytes.write placement).1 = decide (placement.Fits bytes.bytes.length) := by
  by_cases h : placement.Fits bytes.bytes.length
  · rw [(write_laid h).result, decide_eq_true h]
  · rw [write_refused h, decide_eq_false h]

theorem length_write (placement : Placement) :
    (bytes.write placement).2.bytes.length = bytes.bytes.length := by
  by_cases h : placement.Fits bytes.bytes.length
  · rw [(write_laid h).bytes, Slices.length_overlay]
    rw [placement.item.length_wire]
    exact h.2
  · rw [write_refused h]

end Write

section Read

variable {bytes : Span} {offset : UInt64}

theorem read_into_of_le {UInt : Type} {bits : Nat} (ofBits : BitVec bits → UInt) {width : UInt64}
    (out : UInt) (h : offset.toNat + width.toNat ≤ bytes.bytes.length) :
    read_into ofBits width bytes offset out = (true, ofBits (BitVec.ofNat bits
      (BigEndian.decode (slice bytes.bytes offset.toNat width.toNat)))) := by
  rw [read_into, read_unsigned_be_eq, if_pos h]

theorem read_into_of_lt {UInt : Type} {bits : Nat} (ofBits : BitVec bits → UInt) {width : UInt64}
    (out : UInt) (h : ¬offset.toNat + width.toNat ≤ bytes.bytes.length) :
    read_into ofBits width bytes offset out = (false, out) := by
  rw [read_into, read_unsigned_be_eq, if_neg h]

theorem read_refused (out : Number) (h : ¬offset.toNat + out.width ≤ bytes.bytes.length) :
    bytes.read offset out = (false, out) := by
  cases out with
  | u8 out => exact congrArg (read.named _) (read_into_of_lt _ out h)
  | u16 out => exact congrArg (read.named _) (read_into_of_lt _ out h)
  | u32 out => exact congrArg (read.named _) (read_into_of_lt _ out h)
  | u48 out => exact congrArg (read.named _) (read_into_of_lt _ out h)
  | u64 out => exact congrArg (read.named _) (read_into_of_lt _ out h)

-- The bytes of a number are read as that number, whatever `out` was.
theorem read_written {number out : Number} (hkind : out.item.kind = number.item.kind)
    (hrange : number.item.InRange) (h : offset.toNat + number.width ≤ bytes.bytes.length)
    (hbytes : slice bytes.bytes offset.toNat number.width = number.item.wire) :
    bytes.read offset out = (true, number) := by
  have hnumber : Item.ofBytes number.item.kind
      (slice bytes.bytes offset.toNat number.width) = number.item := by
    rw [hbytes, Item.ofBytes_wire hrange]
  cases number with
  | u8 value =>
    cases out with
    | u8 out =>
      exact (congrArg (read.named _) (read_into_of_le _ out h)).trans
        (Prod.ext rfl (congrArg Number.u8 (Item.u8.inj hnumber)))
    | _ => cases hkind
  | u16 value =>
    cases out with
    | u16 out =>
      exact (congrArg (read.named _) (read_into_of_le _ out h)).trans
        (Prod.ext rfl (congrArg Number.u16 (Item.u16.inj hnumber)))
    | _ => cases hkind
  | u32 value =>
    cases out with
    | u32 out =>
      exact (congrArg (read.named _) (read_into_of_le _ out h)).trans
        (Prod.ext rfl (congrArg Number.u32 (Item.u32.inj hnumber)))
    | _ => cases hkind
  | u48 value =>
    cases out with
    | u48 out =>
      exact (congrArg (read.named _) (read_into_of_le _ out h)).trans
        (Prod.ext rfl (congrArg Number.u48 (Item.u48.inj hnumber)))
    | _ => cases hkind
  | u64 value =>
    cases out with
    | u64 out =>
      exact (congrArg (read.named _) (read_into_of_le _ out h)).trans
        (Prod.ext rfl (congrArg Number.u64 (Item.u64.inj hnumber)))
    | _ => cases hkind

end Read

section Run

variable (buffer : Span) (placements : List Placement)

-- The bytes that the placements that fit lay over a buffer, in their order.
def patches (size : Nat) (placements : List Placement) : List (Nat × List UInt8) :=
  (placements.filter fun placement => placement.Fits size).map fun placement =>
    (placement.start, placement.item.wire)

theorem patches_cons_of_fits {size : Nat} {placement : Placement} (h : placement.Fits size) :
    patches size (placement :: placements) =
      (placement.start, placement.item.wire) :: patches size placements := by
  simp [patches, h]

theorem patches_cons_of_not_fits {size : Nat} {placement : Placement}
    (h : ¬placement.Fits size) :
    patches size (placement :: placements) = patches size placements := by
  simp [patches, h]

theorem forall_mem_patches {size : Nat} {property : Nat × List UInt8 → Prop}
    (h : ∀ placement ∈ placements, placement.Fits size →
      property (placement.start, placement.item.wire)) :
    ∀ patch ∈ patches size placements, property patch := by
  intro patch hmem
  obtain ⟨placement, hplacement, rfl⟩ := List.mem_map.mp hmem
  obtain ⟨hplacement, hfits⟩ := List.mem_filter.mp hplacement
  exact h placement hplacement (of_decide_eq_true hfits)

theorem patches_fit (size : Nat) :
    ∀ patch ∈ patches size placements, patch.1 + patch.2.length ≤ size := by
  refine forall_mem_patches placements fun placement _ hfits => ?_
  show placement.start + placement.item.wire.length ≤ size
  rw [placement.item.length_wire]
  exact hfits.2

-- A run of writes is the overlay of those that fit. The size of the buffer stays.
theorem run_write : (Machine.run write buffer placements).bytes =
    overlays buffer.bytes (patches buffer.bytes.length placements) := by
  induction placements generalizing buffer with
  | nil => rfl
  | cons placement rest ih =>
    rw [Machine.run_cons, ih, length_write]
    by_cases h : placement.Fits buffer.bytes.length
    · rw [(write_laid h).bytes, patches_cons_of_fits rest h, Slices.overlays_cons]
    · rw [write_refused h, patches_cons_of_not_fits rest h]

theorem length_run_write :
    (Machine.run write buffer placements).bytes.length = buffer.bytes.length := by
  rw [run_write]
  exact Slices.length_overlays (patches_fit placements _)

theorem transcript_write : Machine.transcript write buffer placements =
    placements.map fun placement =>
      (placement, decide (placement.Fits buffer.bytes.length)) := by
  induction placements generalizing buffer with
  | nil => rfl
  | cons placement rest ih =>
    rw [Machine.transcript_cons, List.map_cons, ih, length_write, write_result]

theorem run_write_apart {offset width : Nat}
    (hapart : ∀ placement ∈ placements, placement.Fits buffer.bytes.length →
      placement.Apart offset width) :
    slice (Machine.run write buffer placements).bytes offset width =
      slice buffer.bytes offset width := by
  rw [run_write]
  refine Slices.slice_overlays_of_apart (patches_fit placements _) ?_
  refine forall_mem_patches placements fun placement hmem hfits => ?_
  show placement.start + placement.item.wire.length ≤ offset ∨ offset + width ≤ placement.start
  rw [placement.item.length_wire]
  exact hapart placement hmem hfits

variable {buffer}

theorem run_write_last (before : List Placement) {after : List Placement} {placement : Placement}
    (hfits : placement.Fits buffer.bytes.length)
    (hapart : ∀ later ∈ after, later.Fits buffer.bytes.length →
      later.Apart placement.start placement.width) :
    slice (Machine.run write buffer (before ++ placement :: after)).bytes placement.start
      placement.width = placement.item.wire := by
  have hpatches : patches buffer.bytes.length (before ++ placement :: after) =
      patches buffer.bytes.length before ++ (placement.start, placement.item.wire) ::
        patches buffer.bytes.length after := by
    rw [← patches_cons_of_fits after hfits]
    simp only [patches, List.filter_append, List.map_append]
  have hfit := patches_fit (before ++ placement :: after) buffer.bytes.length
  have hlater : ∀ later ∈ patches buffer.bytes.length after,
      later.1 + later.2.length ≤ placement.start ∨
        placement.start + placement.item.wire.length ≤ later.1 := by
    refine forall_mem_patches after fun later hmem hlater => ?_
    show later.start + later.item.wire.length ≤ _ ∨ _
    rw [later.item.length_wire, placement.item.length_wire]
    exact hapart later hmem hlater
  have hlast := Slices.slice_overlays_last (hpatches ▸ hfit) hlater
  rw [run_write, hpatches]
  dsimp only at hlast
  rwa [placement.item.length_wire] at hlast

end Run

-- A buffer is a memory for items: a write succeeds exactly when the item is in range and
-- ends in the buffer, and one that does not changes nothing. What a part of the buffer holds
-- is what the last write that reaches it left there, and a number written there is read
-- back. A read past the end leaves `out` as it was.
theorem run_write_read (buffer : Span) (placements : List Placement) :
    let written := Machine.run write buffer placements
    let size := buffer.bytes.length
    written.bytes.length = size ∧
    Machine.transcript write buffer placements =
      placements.map (fun placement => (placement, decide (placement.Fits size))) ∧
    (∀ offset width, (∀ placement ∈ placements, placement.Fits size →
      placement.Apart offset width) →
        slice written.bytes offset width = slice buffer.bytes offset width) ∧
    (∀ before placement after, placements = before ++ placement :: after →
      placement.Fits size →
      (∀ later ∈ after, later.Fits size → later.Apart placement.start placement.width) →
        slice written.bytes placement.start placement.width = placement.item.wire ∧
        ∀ number out : Number, placement.item = number.item →
          out.item.kind = number.item.kind →
            written.read placement.offset out = (true, number)) ∧
    ∀ (offset : UInt64) (out : Number), ¬offset.toNat + out.width ≤ size →
      written.read offset out = (false, out) := by
  intro written size
  have hlength : written.bytes.length = size := length_run_write buffer placements
  refine ⟨hlength, transcript_write buffer placements, ?_, ?_, ?_⟩
  · intro offset width hapart
    exact run_write_apart buffer placements hapart
  · rintro before placement after rfl hfits hapart
    have hbytes := run_write_last before hfits hapart
    refine ⟨hbytes, ?_⟩
    intro number out hitem hkind
    have hwidth : placement.width = number.width := by
      rw [Placement.width, Number.width, hitem]
    obtain ⟨hrange, hfits⟩ := hfits
    rw [hwidth] at hbytes hfits
    rw [hitem] at hbytes hrange
    exact read_written hkind hrange (by rw [hlength]; exact hfits) hbytes
  · intro offset out hout
    exact read_refused out (by rwa [hlength])

end Span

end AegisFeed
