import AegisFeed.Common.Error

namespace AegisFeed

-- `std::span<const std::byte>`. Its size is a `std::size_t`.
structure Span where
  bytes : List UInt8
  fits : bytes.length < 2 ^ 64
deriving DecidableEq, Repr

namespace Span

def size (span : Span) : UInt64 := .ofNat span.bytes.length

def subspan (span : Span) (offset count : UInt64) : Span where
  bytes := (span.bytes.drop offset.toNat).take count.toNat
  fits := by
    have h := span.fits
    simp only [List.length_take, List.length_drop]
    omega

end Span

def can_read (bytes : Span) (offset width : UInt64) : Bool :=
  offset ≤ bytes.size && width ≤ bytes.size - offset

-- One iteration of the loop of `read_unsigned_be`. `UInt` has the given number of bits.
def shift_in {bits : Nat} (value : BitVec bits) (byte : UInt8) : BitVec bits :=
  value <<< 8 ||| byte.toBitVec.setWidth bits

-- The loop visits `bytes[offset]` up to `bytes[offset + width - 1]`.
def read_unsigned_be (bits : Nat) (bytes : Span) (offset width : UInt64) :
    Option (BitVec bits) :=
  if can_read bytes offset width then
    some ((bytes.subspan offset width).bytes.foldl shift_in 0)
  else none

-- A function that reads at an offset returns whether it did, and `out` after it.
def read_into {UInt : Type} {bits : Nat} (ofBits : BitVec bits → UInt) (width : UInt64)
    (bytes : Span) (offset : UInt64) (out : UInt) : Bool × UInt :=
  match read_unsigned_be bits bytes offset width with
  | none => (false, out)
  | some value => (true, ofBits value)

def read_u8 : Span → UInt64 → UInt8 → Bool × UInt8 := read_into UInt8.ofBitVec 1
def read_u16_be : Span → UInt64 → UInt16 → Bool × UInt16 := read_into UInt16.ofBitVec 2
def read_u32_be : Span → UInt64 → UInt32 → Bool × UInt32 := read_into UInt32.ofBitVec 4
def read_u48_be : Span → UInt64 → UInt64 → Bool × UInt64 := read_into UInt64.ofBitVec 6
def read_u64_be : Span → UInt64 → UInt64 → Bool × UInt64 := read_into UInt64.ofBitVec 8

structure ByteReader where
  bytes : Span
  position : UInt64 := 0
deriving DecidableEq, Repr

namespace ByteReader

def remaining (reader : ByteReader) : UInt64 := reader.bytes.size - reader.position

-- A method that reads returns its result and the reader after it.
def read_integer {UInt : Type} {bits : Nat} (ofBits : BitVec bits → UInt) (width : UInt64)
    (reader : ByteReader) : Result UInt × ByteReader :=
  match read_unsigned_be bits reader.bytes reader.position width with
  | none => (.error (Error.read_past_end reader.position width reader.remaining), reader)
  | some value => (.ok (ofBits value), { reader with position := reader.position + width })

def read_u8 : ByteReader → Result UInt8 × ByteReader := read_integer UInt8.ofBitVec 1
def read_u16_be : ByteReader → Result UInt16 × ByteReader := read_integer UInt16.ofBitVec 2
def read_u32_be : ByteReader → Result UInt32 × ByteReader := read_integer UInt32.ofBitVec 4
def read_u48_be : ByteReader → Result UInt64 × ByteReader := read_integer UInt64.ofBitVec 6
def read_u64_be : ByteReader → Result UInt64 × ByteReader := read_integer UInt64.ofBitVec 8

def read_bytes (count : UInt64) (reader : ByteReader) : Result Span × ByteReader :=
  if can_read reader.bytes reader.position count then
    (.ok (reader.bytes.subspan reader.position count),
      { reader with position := reader.position + count })
  else
    (.error (Error.read_past_end reader.position count reader.remaining), reader)

end ByteReader

end AegisFeed
