import AegisFeed.Common.ByteReader.Reads
import AegisFeed.Common.ByteWriter

namespace AegisFeed

theorem can_write_iff (bytes : Span) (offset width : UInt64) :
    can_write bytes offset width = true ↔ offset.toNat + width.toNat ≤ bytes.bytes.length :=
  can_read_iff bytes offset width

section Loops

-- The low byte of a value at least a byte wide, or of a narrower one.
theorem low_byte {bits : Nat} (value : BitVec bits) :
    UInt8.ofBitVec ((value &&& 0xFF).setWidth 8) = UInt8.ofNat value.toNat := by
  have hmask : (value &&& 0xFF).setWidth 8 = value.setWidth 8 := by
    ext index hindex
    have hbit : Nat.testBit 255 index = true :=
      (Nat.testBit_two_pow_sub_one 8 index).trans (decide_eq_true hindex)
    rw [BitVec.getElem_setWidth, BitVec.getElem_setWidth, BitVec.getLsbD_and]
    show (value.getLsbD index && (BitVec.ofNat bits 255).getLsbD index) = value.getLsbD index
    rw [BitVec.getLsbD_ofNat, hbit, Bool.and_true, Bool.and_eq_left_iff_imp, decide_eq_true_iff]
    exact BitVec.lt_of_getLsbD
  rw [hmask, ← UInt8.toNat_inj, UInt8.toNat_ofBitVec, BitVec.toNat_setWidth, UInt8.toNat_ofNat']

-- Shifting out one byte after another is writing a big-endian number. The induction is on
-- the bytes left, which stand before those already written.
theorem shift_out_eq {bits : Nat} (offset left : Nat) (value : BitVec bits) (bytes : List UInt8)
    (h : offset + left ≤ bytes.length) :
    shift_out offset left value bytes =
      bytes.take offset ++ BigEndian.encode left value.toNat ++ bytes.drop (offset + left) := by
  induction left generalizing value bytes with
  | zero => simp [shift_out, BigEndian.encode]
  | succ left ih =>
    have hlt : offset + left < bytes.length := h
    have hshift : (value >>> 8).toNat = value.toNat / 256 := by
      rw [BitVec.toNat_ushiftRight, Nat.shiftRight_eq_div_pow]
    have hdrop : (bytes.set (offset + left) (UInt8.ofNat value.toNat)).drop (offset + left) =
        UInt8.ofNat value.toNat :: bytes.drop (offset + (left + 1)) := by
      rw [List.drop_set, if_neg (Nat.lt_irrefl _), Nat.sub_self, List.drop_eq_getElem_cons hlt,
        List.set_cons_zero, Nat.add_assoc]
    rw [shift_out, ih _ _ (by rw [List.length_set]; omega), hshift, low_byte, hdrop,
      List.take_set_of_le (Nat.le_add_right _ _), BigEndian.encode]
    simp only [List.append_assoc, List.singleton_append]

theorem memmove_eq {destination source : List UInt8} {offset : Nat}
    (h : offset + source.length ≤ destination.length) :
    memmove destination offset source =
      destination.take offset ++ source ++ destination.drop (offset + source.length) := by
  have hsource : source.take (destination.length - offset) = source :=
    List.take_of_length_le (by omega)
  rw [memmove, hsource]

end Loops

namespace ByteWriter

variable {writer : ByteWriter}

-- A write that succeeds: the elements stand at the cursor, which has passed them.
structure Wrote (writer : ByteWriter) (elements : List UInt8)
    (outcome : Result Unit × ByteWriter) : Prop where
  result : outcome.1 = .ok ()
  bytes : outcome.2.bytes.bytes = writer.bytes.bytes.take writer.position.toNat ++ elements ++
    writer.bytes.bytes.drop (writer.position.toNat + elements.length)
  position : outcome.2.position.toNat = writer.position.toNat + elements.length

theorem write_integer_wrote {bits : Nat} (value : BitVec bits) {width : UInt64}
    (h : writer.position.toNat + width.toNat ≤ writer.bytes.bytes.length) :
    writer.Wrote (BigEndian.encode width.toNat value.toNat) (writer.write_integer value width) := by
  have hcan := (can_write_iff _ _ _).mpr h
  unfold write_integer write_unsigned_be
  rw [if_neg (not_not_intro hcan), if_pos hcan]
  refine ⟨rfl, ?_, ?_⟩
  · rw [BigEndian.length_encode]
    exact shift_out_eq _ _ _ _ h
  · rw [BigEndian.length_encode]
    exact Span.toNat_add h

theorem write_integer_refused {bits : Nat} (value : BitVec bits) {width : UInt64}
    (h : ¬writer.position.toNat + width.toNat ≤ writer.bytes.bytes.length) :
    writer.write_integer value width = (.error (writer.past_end width), writer) := by
  rw [← can_write_iff] at h
  exact if_pos h

theorem write_bytes_wrote {source : Span}
    (h : writer.position.toNat + source.size.toNat ≤ writer.bytes.bytes.length) :
    writer.Wrote source.bytes (writer.write_bytes source) := by
  have hcan := (can_write_iff _ _ _).mpr h
  have hposition := Span.toNat_add h
  rw [Span.toNat_size] at h hposition
  unfold write_bytes AegisFeed.write_bytes
  rw [if_neg (not_not_intro hcan), if_neg (not_not_intro hcan)]
  by_cases hempty : source.bytes = []
  · rw [if_neg (not_not_intro hempty)]
    refine ⟨rfl, ?_, hposition⟩
    rw [hempty, List.append_nil, List.length_nil, Nat.add_zero, List.take_append_drop]
  · rw [if_pos hempty]
    exact ⟨rfl, memmove_eq h, hposition⟩

theorem write_bytes_refused {source : Span}
    (h : ¬writer.position.toNat + source.size.toNat ≤ writer.bytes.bytes.length) :
    writer.write_bytes source = (.error (writer.past_end source.size), writer) := by
  rw [← can_write_iff] at h
  exact if_pos h

end ByteWriter

end AegisFeed
