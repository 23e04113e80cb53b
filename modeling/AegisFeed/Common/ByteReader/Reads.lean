import AegisFeed.Common.ByteReader
import AegisFeed.Library.BigEndian
import AegisFeed.Library.Slices

namespace AegisFeed

open Slices (slice)

@[simp] theorem Span.toNat_size (span : Span) : span.size.toNat = span.bytes.length := by
  rw [size, UInt64.toNat_ofNat', Nat.mod_eq_of_lt span.fits]

theorem Span.bytes_subspan (span : Span) (offset count : UInt64) :
    (span.subspan offset count).bytes = slice span.bytes offset.toNat count.toNat := rfl

-- The check cannot wrap: it compares the end of the read with the size.
theorem can_read_iff (bytes : Span) (offset width : UInt64) :
    can_read bytes offset width = true ↔ offset.toNat + width.toNat ≤ bytes.bytes.length := by
  simp only [can_read, Bool.and_eq_true, decide_eq_true_eq, UInt64.le_iff_toNat_le,
    Span.toNat_size]
  by_cases hoffset : offset.toNat ≤ bytes.bytes.length
  · have hle : offset ≤ bytes.size := by rwa [UInt64.le_iff_toNat_le, Span.toNat_size]
    rw [UInt64.toNat_sub_of_le _ _ hle, Span.toNat_size]
    omega
  · omega

-- Inside of a span offsets do not wrap.
theorem Span.toNat_add {bytes : Span} {offset width : UInt64}
    (h : offset.toNat + width.toNat ≤ bytes.bytes.length) :
    (offset + width).toNat = offset.toNat + width.toNat := by
  have hfits := bytes.fits
  rw [UInt64.toNat_add, Nat.mod_eq_of_lt (by omega)]

-- Shifting in one byte after another is reading a big-endian number.
theorem foldl_shift_in (bits : Nat) (bytes : List UInt8) :
    bytes.foldl shift_in 0 = BitVec.ofNat bits (BigEndian.decode bytes) := by
  induction bytes using List.reverseRecOn with
  | nil => rfl
  | append_singleton bytes byte ih =>
    have hbyte : byte.toNat < 2 ^ 8 := byte.toNat_lt
    rw [List.foldl_append, ih, BigEndian.decode_concat]
    apply BitVec.eq_of_toNat_eq
    simp only [List.foldl_cons, List.foldl_nil, shift_in, BitVec.toNat_or, BitVec.toNat_shiftLeft,
      BitVec.toNat_ofNat, BitVec.toNat_setWidth, UInt8.toNat_toBitVec]
    rw [← Nat.or_mod_two_pow, ← Nat.shiftLeft_add_eq_or_of_lt hbyte, Nat.shiftLeft_eq,
      Nat.add_mod, Nat.mul_mod, Nat.mod_mod, ← Nat.mul_mod, ← Nat.add_mod]

theorem read_unsigned_be_eq (bits : Nat) (bytes : Span) (offset width : UInt64) :
    read_unsigned_be bits bytes offset width =
      if offset.toNat + width.toNat ≤ bytes.bytes.length then
        some (BitVec.ofNat bits
          (BigEndian.decode (slice bytes.bytes offset.toNat width.toNat)))
      else none := by
  simp only [read_unsigned_be, can_read_iff, foldl_shift_in, Span.bytes_subspan]

namespace ByteReader

theorem read_integer_of_le {UInt : Type} {bits : Nat} (ofBits : BitVec bits → UInt)
    {width : UInt64} {reader : ByteReader}
    (h : reader.position.toNat + width.toNat ≤ reader.bytes.bytes.length) :
    reader.read_integer ofBits width =
      (.ok (ofBits (BitVec.ofNat bits (BigEndian.decode
        (slice reader.bytes.bytes reader.position.toNat width.toNat)))),
        { reader with position := reader.position + width }) := by
  rw [read_integer, read_unsigned_be_eq, if_pos h]

theorem read_bytes_of_le {count : UInt64} {reader : ByteReader}
    (h : reader.position.toNat + count.toNat ≤ reader.bytes.bytes.length) :
    reader.read_bytes count =
      (.ok (reader.bytes.subspan reader.position count),
        { reader with position := reader.position + count }) := by
  rw [read_bytes, if_pos ((can_read_iff _ _ _).mpr h)]

end ByteReader

end AegisFeed
