import AegisFeed.Common.ByteWriter.Writes
import AegisFeed.Library.Cursor

namespace AegisFeed

open BigEndian (encode)
open Slices (slice)

-- The values that the methods of a writer take, and those that a reader returns.
inductive Item where
  | u8 (value : UInt8)
  | u16 (value : UInt16)
  | u32 (value : UInt32)
  | u48 (value : UInt64)
  | u64 (value : UInt64)
  | bytes (value : Span)
deriving DecidableEq, Repr

inductive ItemKind where
  | u8
  | u16
  | u32
  | u48
  | u64
  | bytes (count : UInt64)
deriving DecidableEq, Repr

def ByteWriter.write (writer : ByteWriter) : Item → Result Unit × ByteWriter
  | .u8 value => writer.write_u8 value
  | .u16 value => writer.write_u16_be value
  | .u32 value => writer.write_u32_be value
  | .u48 value => writer.write_u48_be value
  | .u64 value => writer.write_u64_be value
  | .bytes value => writer.write_bytes value

def ByteReader.read (reader : ByteReader) : ItemKind → Result Item × ByteReader
  | .u8 => named .u8 reader.read_u8
  | .u16 => named .u16 reader.read_u16_be
  | .u32 => named .u32 reader.read_u32_be
  | .u48 => named .u48 reader.read_u48_be
  | .u64 => named .u64 reader.read_u64_be
  | .bytes count => named .bytes (reader.read_bytes count)
where
  named {α : Type} (constructor : α → Item) (outcome : Result α × ByteReader) :
      Result Item × ByteReader :=
    (outcome.1.map constructor, outcome.2)

def ItemKind.width : ItemKind → UInt64
  | .u8 => 1
  | .u16 => 2
  | .u32 => 4
  | .u48 => 6
  | .u64 => 8
  | .bytes count => count

def Item.kind : Item → ItemKind
  | .u8 _ => .u8
  | .u16 _ => .u16
  | .u32 _ => .u32
  | .u48 _ => .u48
  | .u64 _ => .u64
  | .bytes value => .bytes value.size

-- The bytes that an item stands for.
def Item.wire : Item → List UInt8
  | .u8 value => encode 1 value.toNat
  | .u16 value => encode 2 value.toNat
  | .u32 value => encode 4 value.toNat
  | .u48 value => encode 6 value.toNat
  | .u64 value => encode 8 value.toNat
  | .bytes value => value.bytes

-- A number of 48 bits is held in 64.
def Item.InRange : Item → Prop
  | .u48 value => value ≤ max_u48_value
  | _ => True

instance (item : Item) : Decidable item.InRange := by
  cases item <;> unfold Item.InRange <;> infer_instance

-- The item of a kind that some bytes are read as.
def Item.ofBytes : ItemKind → List UInt8 → Item
  | .u8, elements => .u8 (BigEndian.u8 elements)
  | .u16, elements => .u16 (BigEndian.u16 elements)
  | .u32, elements => .u32 (BigEndian.u32 elements)
  | .u48, elements => .u48 (BigEndian.u64 elements)
  | .u64, elements => .u64 (BigEndian.u64 elements)
  | .bytes count, elements => .bytes
    { bytes := elements.take count.toNat,
      fits := Nat.lt_of_le_of_lt (List.length_take_le _ _) count.toNat_lt }

section Format

theorem le_max_u48_iff (value : UInt64) : value ≤ max_u48_value ↔ value.toNat < 256 ^ 6 := by
  rw [UInt64.le_iff_toNat_le]
  exact Nat.lt_succ_iff.symm

theorem Item.length_wire (item : Item) : item.wire.length = item.kind.width.toNat := by
  cases item with
  | bytes value => exact (Span.toNat_size value).symm
  | _ => exact BigEndian.length_encode _ _

theorem Item.ofBytes_wire {item : Item} (h : item.InRange) : ofBytes item.kind item.wire = item := by
  cases item with
  | u8 value => exact congrArg u8 (BigEndian.u8_encode value)
  | u16 value => exact congrArg u16 (BigEndian.u16_encode value)
  | u32 value => exact congrArg u32 (BigEndian.u32_encode value)
  | u48 value => exact congrArg u48 (BigEndian.u64_encode_of_lt ((le_max_u48_iff value).mp h))
  | u64 value => exact congrArg u64 (BigEndian.u64_encode value)
  | bytes value => simp only [kind, wire, ofBytes, Span.toNat_size, List.take_length]

section OfBytes

variable {kind : ItemKind} {elements : List UInt8} (h : elements.length = kind.width.toNat)

include h

theorem Item.kind_ofBytes : (ofBytes kind elements).kind = kind := by
  cases kind with
  | bytes count =>
    have htake : elements.take count.toNat = elements := List.take_of_length_le (Nat.le_of_eq h)
    refine congrArg ItemKind.bytes ?_
    rw [← UInt64.toNat_inj, Span.toNat_size]
    simp only [htake]
    exact h
  | _ => rfl

theorem Item.inRange_ofBytes : (ofBytes kind elements).InRange := by
  cases kind with
  | u48 =>
    have hlength : elements.length = 6 := h
    refine (le_max_u48_iff _).mpr ?_
    rw [BigEndian.toNat_u64 hlength (by decide)]
    exact BigEndian.decode_lt_of_length hlength (Nat.le_refl _)
  | _ => trivial

theorem Item.wire_ofBytes : (ofBytes kind elements).wire = elements := by
  cases kind with
  | u8 => exact BigEndian.encode_u8 h
  | u16 => exact BigEndian.encode_u16 h
  | u32 => exact BigEndian.encode_u32 h
  | u48 => exact BigEndian.encode_u64 h (by decide)
  | u64 => exact BigEndian.encode_u64 h (by decide)
  | bytes count => exact List.take_of_length_le (Nat.le_of_eq h)

end OfBytes

theorem Item.ofBytes_slice (span : Span) (offset count : UInt64) :
    ofBytes (.bytes count) (slice span.bytes offset.toNat count.toNat) =
      .bytes (span.subspan offset count) := by
  simp only [ofBytes, Span.subspan, slice, List.take_take, Nat.min_self]

theorem encoded_iff {item : Item} {elements : List UInt8} :
    (if item.InRange then some item.wire else none) = some elements ↔
      item.InRange ∧ elements = item.wire := by
  rw [Option.ite_none_right_eq_some, Option.some.injEq]
  exact and_congr_right fun _ => eq_comm

-- The items as those of a cursor.
def itemFormat : Cursor.Format Item ItemKind UInt8 where
  kind := Item.kind
  width kind := kind.width.toNat
  encode item := if item.InRange then some item.wire else none
  decode := Item.ofBytes
  length_encode {item elements} h := by
    rw [(encoded_iff.mp h).2, item.length_wire]
  decode_encode h := by
    obtain ⟨hrange, rfl⟩ := encoded_iff.mp h
    exact Item.ofBytes_wire hrange
  kind_decode := Item.kind_ofBytes
  encode_decode h := encoded_iff.mpr ⟨Item.inRange_ofBytes h, (Item.wire_ofBytes h).symm⟩

end Format

namespace ByteWriter

variable {writer : ByteWriter} {item : Item}

-- Only a number of 48 bits can be out of range, and that is checked before the room.
theorem write_out_of_range {value : UInt64} (h : max_u48_value < value) :
    writer.write (.u48 value) =
      (.error (Error.value_out_of_range writer.position value max_u48_value), writer) :=
  if_pos h

theorem write_u48_of_le {value : UInt64} (h : value ≤ max_u48_value) :
    writer.write (.u48 value) = writer.write_integer value.toBitVec 6 :=
  if_neg (UInt64.not_lt.mpr h)

theorem write_wrote (hrange : item.InRange)
    (h : writer.position.toNat + item.kind.width.toNat ≤ writer.bytes.bytes.length) :
    writer.Wrote item.wire (writer.write item) := by
  cases item with
  | u48 value =>
    rw [write_u48_of_le hrange]
    exact write_integer_wrote value.toBitVec h
  | bytes value => exact write_bytes_wrote h
  | _ => exact write_integer_wrote _ h

theorem write_past_end (hrange : item.InRange)
    (h : ¬writer.position.toNat + item.kind.width.toNat ≤ writer.bytes.bytes.length) :
    writer.write item = (.error (writer.past_end item.kind.width), writer) := by
  cases item with
  | u48 value =>
    rw [write_u48_of_le hrange]
    exact write_integer_refused value.toBitVec h
  | bytes value => exact write_bytes_refused h
  | _ => exact write_integer_refused _ h

end ByteWriter

namespace ByteReader

variable {reader : ByteReader}

theorem read_integer_of_lt {UInt : Type} {bits : Nat} (ofBits : BitVec bits → UInt)
    {width : UInt64} (h : ¬reader.position.toNat + width.toNat ≤ reader.bytes.bytes.length) :
    reader.read_integer ofBits width =
      (.error (Error.read_past_end reader.position width reader.remaining), reader) := by
  rw [read_integer, read_unsigned_be_eq, if_neg h]

theorem read_of_le {kind : ItemKind}
    (h : reader.position.toNat + kind.width.toNat ≤ reader.bytes.bytes.length) :
    reader.read kind =
      (.ok (Item.ofBytes kind
        (slice reader.bytes.bytes reader.position.toNat kind.width.toNat)),
        { reader with position := reader.position + kind.width }) := by
  cases kind with
  | bytes count =>
    refine (congrArg (read.named _) (read_bytes_of_le h)).trans (Prod.ext ?_ rfl)
    exact congrArg Except.ok (Item.ofBytes_slice reader.bytes reader.position count).symm
  | u8 => exact congrArg (read.named _) (read_integer_of_le _ h)
  | u16 => exact congrArg (read.named _) (read_integer_of_le _ h)
  | u32 => exact congrArg (read.named _) (read_integer_of_le _ h)
  | u48 => exact congrArg (read.named _) (read_integer_of_le _ h)
  | u64 => exact congrArg (read.named _) (read_integer_of_le _ h)

theorem read_past_end {kind : ItemKind}
    (h : ¬reader.position.toNat + kind.width.toNat ≤ reader.bytes.bytes.length) :
    reader.read kind =
      (.error (Error.read_past_end reader.position kind.width reader.remaining), reader) := by
  cases kind with
  | bytes count =>
    have hcan : ¬can_read reader.bytes reader.position count := by rwa [can_read_iff]
    exact congrArg (read.named _) (if_neg hcan)
  | u8 => exact congrArg (read.named _) (read_integer_of_lt _ h)
  | u16 => exact congrArg (read.named _) (read_integer_of_lt _ h)
  | u32 => exact congrArg (read.named _) (read_integer_of_lt _ h)
  | u48 => exact congrArg (read.named _) (read_integer_of_lt _ h)
  | u64 => exact congrArg (read.named _) (read_integer_of_lt _ h)

end ByteReader

end AegisFeed
