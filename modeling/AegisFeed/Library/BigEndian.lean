import Mathlib.Data.List.Induction
import Mathlib.Algebra.Group.Nat.Defs

namespace BigEndian

-- Numbers as bytes of a fixed width, the most significant one first.
def encode : Nat → Nat → List UInt8
  | 0, _ => []
  | width + 1, value => encode width (value / 256) ++ [UInt8.ofNat value]

def decode (bytes : List UInt8) : Nat :=
  bytes.foldl (fun value byte => value * 256 + byte.toNat) 0

@[simp] theorem length_encode (width value : Nat) : (encode width value).length = width := by
  induction width generalizing value with
  | zero => rfl
  | succ width ih => simp [encode, ih]

@[simp] theorem decode_nil : decode [] = 0 := rfl

@[simp] theorem decode_concat (bytes : List UInt8) (byte : UInt8) :
    decode (bytes ++ [byte]) = decode bytes * 256 + byte.toNat := by
  simp [decode]

theorem decode_encode {width value : Nat} (h : value < 256 ^ width) :
    decode (encode width value) = value := by
  induction width generalizing value with
  | zero =>
    have hz : value = 0 := by simpa using h
    rw [hz]
    rfl
  | succ width ih =>
    have hdiv : value / 256 < 256 ^ width := by
      rw [Nat.pow_succ] at h
      exact Nat.div_lt_of_lt_mul (by omega)
    rw [encode, decode_concat, ih hdiv, UInt8.toNat_ofNat']
    omega

theorem decode_lt (bytes : List UInt8) : decode bytes < 256 ^ bytes.length := by
  induction bytes using List.reverseRecOn with
  | nil => simp
  | append_singleton bytes byte ih =>
    have hbyte := byte.toNat_lt
    rw [decode_concat, List.length_append, List.length_singleton, Nat.pow_succ]
    omega

theorem encode_decode (bytes : List UInt8) : encode bytes.length (decode bytes) = bytes := by
  induction bytes using List.reverseRecOn with
  | nil => rfl
  | append_singleton bytes byte ih =>
    have hbyte := byte.toNat_lt
    have hdiv : (decode bytes * 256 + byte.toNat) / 256 = decode bytes := by omega
    have hlast : UInt8.ofNat (decode bytes * 256 + byte.toNat) = byte := by
      rw [← UInt8.toNat_inj, UInt8.toNat_ofNat']
      omega
    rw [List.length_append, List.length_singleton, encode, decode_concat, hdiv, ih, hlast]

section Words

-- The value of some bytes as a machine word.
def u8 (bytes : List UInt8) : UInt8 := .ofNat (decode bytes)
def u16 (bytes : List UInt8) : UInt16 := .ofNat (decode bytes)
def u32 (bytes : List UInt8) : UInt32 := .ofNat (decode bytes)
def u64 (bytes : List UInt8) : UInt64 := .ofNat (decode bytes)

theorem decode_lt_of_length {bytes : List UInt8} {width bound : Nat} (h : bytes.length = width)
    (hbound : 256 ^ width ≤ bound) : decode bytes < bound := by
  have hlt := decode_lt bytes
  rw [h] at hlt
  exact Nat.lt_of_lt_of_le hlt hbound

theorem encode_of_eq_decode {bytes : List UInt8} {width value : Nat} (h : bytes.length = width)
    (hvalue : value = decode bytes) : encode width value = bytes := by
  rw [hvalue, ← h, encode_decode]

@[simp] theorem encode_u8 {bytes : List UInt8} (h : bytes.length = 1) :
    encode 1 (u8 bytes).toNat = bytes := by
  refine encode_of_eq_decode h ?_
  rw [u8, UInt8.toNat_ofNat', Nat.mod_eq_of_lt (decode_lt_of_length h (by decide))]

@[simp] theorem encode_u16 {bytes : List UInt8} (h : bytes.length = 2) :
    encode 2 (u16 bytes).toNat = bytes := by
  refine encode_of_eq_decode h ?_
  rw [u16, UInt16.toNat_ofNat', Nat.mod_eq_of_lt (decode_lt_of_length h (by decide))]

theorem toNat_u32 {bytes : List UInt8} (h : bytes.length = 4) :
    (u32 bytes).toNat = decode bytes := by
  rw [u32, UInt32.toNat_ofNat', Nat.mod_eq_of_lt (decode_lt_of_length h (by decide))]

@[simp] theorem encode_u32 {bytes : List UInt8} (h : bytes.length = 4) :
    encode 4 (u32 bytes).toNat = bytes :=
  encode_of_eq_decode h (toNat_u32 h)

theorem toNat_u64 {bytes : List UInt8} {width : Nat} (h : bytes.length = width)
    (hwidth : width ≤ 8) : (u64 bytes).toNat = decode bytes := by
  have hbound : 256 ^ width ≤ 2 ^ 64 := Nat.pow_le_pow_right (show 256 > 0 by decide) hwidth
  rw [u64, UInt64.toNat_ofNat', Nat.mod_eq_of_lt (decode_lt_of_length h hbound)]

@[simp] theorem encode_u64 {bytes : List UInt8} {width : Nat} (h : bytes.length = width)
    (hwidth : width ≤ 8) : encode width (u64 bytes).toNat = bytes :=
  encode_of_eq_decode h (toNat_u64 h hwidth)

@[simp] theorem u8_encode (value : UInt8) : u8 (encode 1 value.toNat) = value := by
  rw [u8, decode_encode (show value.toNat < 256 ^ 1 from value.toNat_lt), UInt8.ofNat_toNat]

@[simp] theorem u16_encode (value : UInt16) : u16 (encode 2 value.toNat) = value := by
  rw [u16, decode_encode (show value.toNat < 256 ^ 2 from value.toNat_lt), UInt16.ofNat_toNat]

@[simp] theorem u32_encode (value : UInt32) : u32 (encode 4 value.toNat) = value := by
  rw [u32, decode_encode (show value.toNat < 256 ^ 4 from value.toNat_lt), UInt32.ofNat_toNat]

@[simp] theorem u64_encode (value : UInt64) : u64 (encode 8 value.toNat) = value := by
  rw [u64, decode_encode (show value.toNat < 256 ^ 8 from value.toNat_lt), UInt64.ofNat_toNat]

theorem u64_encode_of_lt {value : UInt64} {width : Nat} (h : value.toNat < 256 ^ width) :
    u64 (encode width value.toNat) = value := by
  rw [u64, decode_encode h, UInt64.ofNat_toNat]

theorem u8_singleton (byte : UInt8) : u8 [byte] = byte := by
  simp [u8, decode]

end Words

end BigEndian
