import AegisFeed.Common.ByteReader.Reads
import AegisFeed.Itch.Grammar.Faults
import AegisFeed.Itch.Wire

namespace AegisFeed

open BigEndian (u8 u16 u32 u64)
open Grammar (codeFaults textFaults priceFaults Printable)
open ShortCircuit
open Slices (slice)

-- The state of a decoder that has read the payload up to an offset.
def DecodeState.at (payload : Span) (context : ItchDecodeContext) (message_type : UInt8)
    (expected_size : UInt64) (offset : Nat) : DecodeState where
  reader := { ItchReadCursor.create payload context message_type expected_size with
    reader := { bytes := payload, position := .ofNat offset } }

-- A failed field leaves its own error, which its decoder returns.
def Surfaces (failure : DecodeState → Error) : Prop :=
  ∀ state, state.error.code ≠ .None → failure state = state.error

theorem surfaces_local_error : Surfaces local_error := fun _ _ => rfl

theorem surfaces_shared_error : Surfaces shared_error := fun _ h => if_neg h

section

variable {payload : Span} {context : ItchDecodeContext} {message_type : UInt8}
  {expected_size : UInt64} {offset width : Nat}

theorem Span.toNat_ofNat (h : offset ≤ payload.bytes.length) :
    (UInt64.ofNat offset).toNat = offset := by
  have hfits := payload.fits
  rw [UInt64.toNat_ofNat', Nat.mod_eq_of_lt (by omega)]

section Reads

variable (h : offset + width ≤ payload.bytes.length)

include h

-- A read inside the payload yields the bytes at the offset and moves behind them.
theorem read_integer_at {UInt : Type} {bits : Nat} (ofBits : BitVec bits → UInt) :
    read_field (fun cursor => cursor.take (cursor.reader.read_integer ofBits (.ofNat width)))
        (.at payload context message_type expected_size offset) =
      (some (ofBits (BitVec.ofNat bits
        (BigEndian.decode (slice payload.bytes offset width)))),
        .at payload context message_type expected_size (offset + width)) := by
  have hoffset := Span.toNat_ofNat (Nat.le_trans (Nat.le_add_right _ _) h)
  have hwidth := Span.toNat_ofNat (Nat.le_trans (Nat.le_add_left _ _) h)
  have hread : ByteReader.read_integer ofBits (.ofNat width)
      { bytes := payload, position := .ofNat offset } = _ :=
    ByteReader.read_integer_of_le ofBits (by rw [hoffset, hwidth]; exact h)
  simp only [hoffset, hwidth, ← UInt64.ofNat_add] at hread
  simp only [read_field, DecodeState.at, hread, ItchReadCursor.take]

theorem read_bytes_at :
    ∃ bytes : Span, bytes.bytes = slice payload.bytes offset width ∧
      read_field (ItchReadCursor.read_bytes (.ofNat width))
          (.at payload context message_type expected_size offset) =
        (some bytes, .at payload context message_type expected_size (offset + width)) := by
  have hoffset := Span.toNat_ofNat (Nat.le_trans (Nat.le_add_right _ _) h)
  have hwidth := Span.toNat_ofNat (Nat.le_trans (Nat.le_add_left _ _) h)
  have hread : ByteReader.read_bytes (.ofNat width)
      { bytes := payload, position := .ofNat offset } = _ :=
    ByteReader.read_bytes_of_le (by rw [hoffset, hwidth]; exact h)
  refine ⟨payload.subspan (.ofNat offset) (.ofNat width), ?_, ?_⟩
  · rw [Span.bytes_subspan, hoffset, hwidth]
  · simp only [← UInt64.ofNat_add] at hread
    simp only [read_field, DecodeState.at, ItchReadCursor.read_bytes, hread, ItchReadCursor.take]

end Reads

section Integers

variable (failure : DecodeState → Error)

theorem outcome_u8 (h : offset + 1 ≤ payload.bytes.length) :
    Outcome (orFail failure (read_field ItchReadCursor.read_u8))
      (.at payload context message_type expected_size offset)
      (.at payload context message_type expected_size (offset + 1))
      [] (u8 (slice payload.bytes offset 1)) :=
  .of_some failure (read_integer_at h UInt8.ofBitVec)

theorem outcome_u16 (h : offset + 2 ≤ payload.bytes.length) :
    Outcome (orFail failure (read_field ItchReadCursor.read_u16_be))
      (.at payload context message_type expected_size offset)
      (.at payload context message_type expected_size (offset + 2))
      [] (u16 (slice payload.bytes offset 2)) :=
  .of_some failure (read_integer_at h UInt16.ofBitVec)

theorem outcome_u32 (h : offset + 4 ≤ payload.bytes.length) :
    Outcome (orFail failure (read_field ItchReadCursor.read_u32_be))
      (.at payload context message_type expected_size offset)
      (.at payload context message_type expected_size (offset + 4))
      [] (u32 (slice payload.bytes offset 4)) :=
  .of_some failure (read_integer_at h UInt32.ofBitVec)

theorem outcome_u48 (h : offset + 6 ≤ payload.bytes.length) :
    Outcome (orFail failure (read_field ItchReadCursor.read_u48_be))
      (.at payload context message_type expected_size offset)
      (.at payload context message_type expected_size (offset + 6))
      [] (u64 (slice payload.bytes offset 6)) :=
  .of_some failure (read_integer_at h UInt64.ofBitVec)

theorem outcome_u64 (h : offset + 8 ≤ payload.bytes.length) :
    Outcome (orFail failure (read_field ItchReadCursor.read_u64_be))
      (.at payload context message_type expected_size offset)
      (.at payload context message_type expected_size (offset + 8))
      [] (u64 (slice payload.bytes offset 8)) :=
  .of_some failure (read_integer_at h UInt64.ofBitVec)

end Integers

section Constrained

variable {failure : DecodeState → Error} (hfailure : Surfaces failure)

theorem read_or_fail_of_some {T : Type} {read : ItchReadCursor → Option T × ItchReadCursor}
    {before after : DecodeState} {value : T} (h : read_field read before = (some value, after)) :
    read_or_fail read before = (some value, after) := by
  rw [read_or_fail, h]

theorem outcome_byte (failure : DecodeState → Error) (h : offset + 1 ≤ payload.bytes.length) :
    Outcome (orFail failure (read_or_fail ItchReadCursor.read_u8))
      (.at payload context message_type expected_size offset)
      (.at payload context message_type expected_size (offset + 1))
      [] (u8 (slice payload.bytes offset 1)) :=
  .of_some failure (read_or_fail_of_some (read_integer_at h UInt8.ofBitVec))

include hfailure

theorem outcome_fail_with {T : Type} {error : Error} (hcode : error.code ≠ .None)
    (before after : DecodeState) (value : T) (rest : List Error) :
    Outcome (orFail failure (fail_with fun _ => error)) before after (error :: rest) value := by
  have hreport : failure { before with error } = error := hfailure { before with error } hcode
  have hnone : Outcome (orFail failure (fail_with fun _ => error)) before after
    (failure { before with error } :: rest) value := .of_none failure rfl after rest value
  rwa [hreport] at hnone

theorem outcome_enum_field (offset : Nat) {Enum : Type} {enum : UInt8 → Enum}
    {validator : UInt8 → Bool} {codes : List UInt8}
    (hcodes : ∀ value, validator value = true ↔ value ∈ codes)
    (h : offset + 1 ≤ payload.bytes.length) :
    Outcome
      (orFail failure (read_enum_field (.ofNat offset) context message_type validator enum))
      (.at payload context message_type expected_size offset)
      (.at payload context message_type expected_size (offset + 1))
      (codeFaults context.sequence message_type offset codes
        (u8 (slice payload.bytes offset 1)))
      (enum (u8 (slice payload.bytes offset 1))) := by
  refine (outcome_byte failure h).orFail_bind_of_nil ?_
  by_cases hmem : u8 (slice payload.bytes offset 1) ∈ codes
  · rw [if_pos ((hcodes _).mpr hmem), codeFaults, if_pos hmem]
    exact .of_some failure rfl
  · rw [if_neg (mt (hcodes _).mp hmem), codeFaults, if_neg hmem]
    exact outcome_fail_with hfailure (show ErrorCode.InvalidItchEnum ≠ .None by decide) _ _ _ []

omit hfailure in
theorem is_printable_ascii_iff (value : UInt8) :
    is_printable_ascii value = true ↔ Printable value := by
  simp [is_printable_ascii, Printable]

theorem outcome_check_ascii (text : List UInt8) (state : DecodeState) :
    Outcome (orFail failure (check_ascii context message_type (.ofNat offset) text)) state state
      (textFaults context.sequence message_type offset text) () := by
  induction text generalizing offset with
  | nil => exact .of_some failure rfl
  | cons value rest ih =>
    rw [check_ascii, textFaults]
    by_cases hprintable : Printable value
    · have hnext : UInt64.ofNat offset + 1 = .ofNat (offset + 1) := (UInt64.ofNat_add offset 1).symm
      rw [if_pos ((is_printable_ascii_iff value).mpr hprintable), if_pos hprintable, hnext]
      exact ih
    · rw [if_neg (mt (is_printable_ascii_iff value).mp hprintable), if_neg hprintable]
      exact outcome_fail_with hfailure (show ErrorCode.InvalidItchAscii ≠ .None by decide) _ _ _ _

theorem outcome_ascii_field (offset : Nat) {Size : Nat} (h : offset + Size ≤ payload.bytes.length) :
    Outcome (orFail failure (read_ascii_field Size (.ofNat offset) context message_type))
      (.at payload context message_type expected_size offset)
      (.at payload context message_type expected_size (offset + Size))
      (textFaults context.sequence message_type offset (slice payload.bytes offset Size))
      (chars Size (slice payload.bytes offset Size)) := by
  obtain ⟨bytes, hbytes, hread⟩ := read_bytes_at h
  rw [← hbytes]
  have hfirst := Outcome.of_some failure (read_or_fail_of_some hread)
  exact hfirst.orFail_bind_of_nil (outcome_check_ascii hfailure bytes.bytes _).orFail_bind_pure

theorem outcome_ascii_character (offset : Nat) (h : offset + 1 ≤ payload.bytes.length) :
    Outcome (orFail failure (read_ascii_character (.ofNat offset) context message_type))
      (.at payload context message_type expected_size offset)
      (.at payload context message_type expected_size (offset + 1))
      (textFaults context.sequence message_type offset (slice payload.bytes offset 1))
      (u8 (slice payload.bytes offset 1)) := by
  obtain ⟨value, hvalue⟩ := List.length_eq_one_iff.mp (Slices.length_slice h)
  refine (outcome_byte failure h).orFail_bind_of_nil ?_
  rw [hvalue, BigEndian.u8_singleton, textFaults, textFaults, List.append_nil]
  by_cases hprintable : Printable value
  · rw [if_pos ((is_printable_ascii_iff value).mpr hprintable), if_pos hprintable]
    exact .of_some failure rfl
  · rw [if_neg (mt (is_printable_ascii_iff value).mp hprintable), if_neg hprintable]
    exact outcome_fail_with hfailure (show ErrorCode.InvalidItchAscii ≠ .None by decide) _ _ _ []

theorem outcome_printable_flag (offset : Nat) (h : offset + 1 ≤ payload.bytes.length) :
    Outcome (orFail failure (read_printable_flag (.ofNat offset) context message_type))
      (.at payload context message_type expected_size offset)
      (.at payload context message_type expected_size (offset + 1))
      (codeFaults context.sequence message_type offset Grammar.flags
        (u8 (slice payload.bytes offset 1)))
      (u8 (slice payload.bytes offset 1) = 'Y'.toUInt8) := by
  refine (outcome_byte failure h).orFail_bind_of_nil ?_
  generalize u8 (slice payload.bytes offset 1) = value
  by_cases hyes : value = 'Y'.toUInt8
  · subst hyes
    exact .of_some failure rfl
  by_cases hno : value = 'N'.toUInt8
  · subst hno
    exact .of_some failure rfl
  · have hmem : value ∉ Grammar.flags := by
      simp only [Grammar.flags, Grammar.letters, List.map_cons, List.map_nil, List.mem_cons,
        List.not_mem_nil, or_false, not_or]
      exact ⟨hno, hyes⟩
    rw [if_neg hyes, if_neg hno, codeFaults, if_neg hmem]
    exact outcome_fail_with hfailure (show ErrorCode.InvalidItchEnum ≠ .None by decide) _ _ _ []

end Constrained

end

end AegisFeed
