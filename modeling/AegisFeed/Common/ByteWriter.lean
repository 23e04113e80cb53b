import AegisFeed.Common.ByteReader

namespace AegisFeed

def max_u48_value : UInt64 := 0x0000FFFFFFFFFFFF

def can_write (bytes : Span) (offset width : UInt64) : Bool :=
  offset ≤ bytes.size && width ≤ bytes.size - offset

-- The buffer after writes to it.
def Span.overwrite (span : Span) (bytes : List UInt8)
    (h : bytes.length = span.bytes.length) : Span where
  bytes := bytes
  fits := h ▸ span.fits

-- The loop of `write_unsigned_be` with `width - index` iterations left: the next one
-- sets `bytes[offset + width - index - 1]` to the low byte of the value.
def shift_out {bits : Nat} (offset : Nat) : Nat → BitVec bits → List UInt8 → List UInt8
  | 0, _, bytes => bytes
  | left + 1, value, bytes =>
    shift_out offset left (value >>> 8)
      (bytes.set (offset + left) (.ofBitVec ((value &&& 0xFF).setWidth 8)))

@[simp] theorem length_shift_out {bits : Nat} (offset left : Nat) (value : BitVec bits)
    (bytes : List UInt8) : (shift_out offset left value bytes).length = bytes.length := by
  induction left generalizing value bytes with
  | zero => rfl
  | succ left ih => rw [shift_out, ih, List.length_set]

-- A function that writes returns whether it did, and the buffer after it.
def write_unsigned_be {bits : Nat} (bytes : Span) (offset width : UInt64) (value : BitVec bits) :
    Bool × Span :=
  if can_write bytes offset width then
    (true, bytes.overwrite (shift_out offset.toNat width.toNat value bytes.bytes)
      (length_shift_out _ _ _ _))
  else (false, bytes)

def write_u8 (bytes : Span) (offset : UInt64) (value : UInt8) : Bool × Span :=
  write_unsigned_be bytes offset 1 value.toBitVec

def write_u16_be (bytes : Span) (offset : UInt64) (value : UInt16) : Bool × Span :=
  write_unsigned_be bytes offset 2 value.toBitVec

def write_u32_be (bytes : Span) (offset : UInt64) (value : UInt32) : Bool × Span :=
  write_unsigned_be bytes offset 4 value.toBitVec

def write_u48_be (bytes : Span) (offset : UInt64) (value : UInt64) : Bool × Span :=
  if value ≤ max_u48_value then write_unsigned_be bytes offset 6 value.toBitVec
  else (false, bytes)

def write_u64_be (bytes : Span) (offset : UInt64) (value : UInt64) : Bool × Span :=
  write_unsigned_be bytes offset 8 value.toBitVec

-- The copy of a source outside of the buffer to `offset`; it is checked to end in the buffer.
def memmove (destination : List UInt8) (offset : Nat) (source : List UInt8) : List UInt8 :=
  destination.take offset ++ source.take (destination.length - offset) ++
    destination.drop (offset + source.length)

@[simp] theorem length_memmove (destination : List UInt8) (offset : Nat) (source : List UInt8) :
    (memmove destination offset source).length = destination.length := by
  simp only [memmove, List.length_append, List.length_take, List.length_drop]
  omega

def write_bytes (destination : Span) (offset : UInt64) (source : Span) : Bool × Span :=
  if ¬can_write destination offset source.size then (false, destination)
  else if source.bytes ≠ [] then
    (true, destination.overwrite (memmove destination.bytes offset.toNat source.bytes)
      (length_memmove _ _ _))
  else (true, destination)

structure ByteWriter where
  bytes : Span
  position : UInt64 := 0
deriving DecidableEq, Repr

namespace ByteWriter

def remaining (writer : ByteWriter) : UInt64 := writer.bytes.size - writer.position

-- The error of a write that does not fit.
def past_end (writer : ByteWriter) (width : UInt64) : Error :=
  Error.write_past_end writer.position width writer.remaining

-- A method that writes returns its result and the writer after it.
def write_integer {bits : Nat} (writer : ByteWriter) (value : BitVec bits) (width : UInt64) :
    Result Unit × ByteWriter :=
  if ¬can_write writer.bytes writer.position width then (.error (writer.past_end width), writer)
  else
    match write_unsigned_be writer.bytes writer.position width value with
    | (false, bytes) => (.error (writer.past_end width), { writer with bytes })
    | (true, bytes) => (.ok (), { bytes, position := writer.position + width })

def write_u8 (writer : ByteWriter) (value : UInt8) : Result Unit × ByteWriter :=
  writer.write_integer value.toBitVec 1

def write_u16_be (writer : ByteWriter) (value : UInt16) : Result Unit × ByteWriter :=
  writer.write_integer value.toBitVec 2

def write_u32_be (writer : ByteWriter) (value : UInt32) : Result Unit × ByteWriter :=
  writer.write_integer value.toBitVec 4

def write_u48_be (writer : ByteWriter) (value : UInt64) : Result Unit × ByteWriter :=
  if value > max_u48_value then
    (.error (Error.value_out_of_range writer.position value max_u48_value), writer)
  else writer.write_integer value.toBitVec 6

def write_u64_be (writer : ByteWriter) (value : UInt64) : Result Unit × ByteWriter :=
  writer.write_integer value.toBitVec 8

def write_bytes (writer : ByteWriter) (source : Span) : Result Unit × ByteWriter :=
  if ¬can_write writer.bytes writer.position source.size then
    (.error (writer.past_end source.size), writer)
  else
    match AegisFeed.write_bytes writer.bytes writer.position source with
    | (false, bytes) => (.error (writer.past_end source.size), { writer with bytes })
    | (true, bytes) => (.ok (), { bytes, position := writer.position + source.size })

end ByteWriter

end AegisFeed
