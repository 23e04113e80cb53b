import AegisFeed.Common.Error
import AegisFeed.Itch.Lengths
import AegisFeed.Itch.Types
import AegisFeed.Library.BigEndian
import AegisFeed.Library.Slices

namespace AegisFeed.Grammar

open BigEndian (decode u8 u32)
open Slices (slice)

def letters (chars : List Char) : List UInt8 := chars.map Char.toUInt8

-- The documented codes of the enumerated fields.
def systemEventCodes : List UInt8 := letters ['O', 'S', 'Q', 'M', 'E', 'C', 'A', 'R', 'B']
def sides : List UInt8 := letters ['B', 'S']
def marketCategories : List UInt8 :=
  letters [' ', 'Q', 'G', 'S', 'N', 'M', 'F', 'A', 'P', 'Z', 'V']
def financialStatuses : List UInt8 :=
  letters [' ', 'D', 'E', 'Q', 'S', 'G', 'H', 'J', 'K', 'C', 'N']
def flags : List UInt8 := letters ['N', 'Y']
def optionalFlags : List UInt8 := letters [' ', 'N', 'Y']
def authenticities : List UInt8 := letters ['P', 'T']
def ipoFlags : List UInt8 := letters [' ', 'N', 'Y', 'Z']
def luldTiers : List UInt8 := letters [' ', '1', '2']

def Printable (byte : UInt8) : Prop := 0x20 ≤ byte ∧ byte ≤ 0x7E

instance (byte : UInt8) : Decidable (Printable byte) := inferInstanceAs (Decidable (_ ∧ _))

inductive Constraint where
  | code (codes : List UInt8)
  | text (width : Nat)
  | price
deriving DecidableEq, Repr

def Constraint.width : Constraint → Nat
  | .code _ => 1
  | .text width => width
  | .price => 4

structure Field where
  offset : Nat
  constraint : Constraint
deriving DecidableEq, Repr

def Field.next (field : Field) : Nat := field.offset + field.constraint.width

-- The constrained fields of each type. Every other byte after the type is free.
def systemEventFields : List Field := [⟨11, .code systemEventCodes⟩]

def stockDirectoryFields : List Field :=
  [⟨11, .text 8⟩, ⟨19, .code marketCategories⟩, ⟨20, .code financialStatuses⟩,
    ⟨25, .code flags⟩, ⟨26, .text 1⟩, ⟨27, .text 2⟩, ⟨29, .code authenticities⟩,
    ⟨30, .code optionalFlags⟩, ⟨31, .code ipoFlags⟩, ⟨32, .code luldTiers⟩,
    ⟨33, .code optionalFlags⟩, ⟨38, .code flags⟩]

def addOrderFields : List Field := [⟨19, .code sides⟩, ⟨24, .text 8⟩, ⟨32, .price⟩]
def attributedOrderFields : List Field := addOrderFields ++ [⟨36, .text 4⟩]
def executionWithPriceFields : List Field := [⟨31, .code flags⟩, ⟨32, .price⟩]
def orderReplaceFields : List Field := [⟨31, .price⟩]

def fields (type : UInt8) : List Field :=
  if type = 'S'.toUInt8 then systemEventFields
  else if type = 'R'.toUInt8 then stockDirectoryFields
  else if type = 'A'.toUInt8 then addOrderFields
  else if type = 'F'.toUInt8 then attributedOrderFields
  else if type = 'C'.toUInt8 then executionWithPriceFields
  else if type = 'U'.toUInt8 then orderReplaceFields
  else []

def Field.Valid (payload : List UInt8) (field : Field) : Prop :=
  match field.constraint with
  | .code codes => ∃ byte ∈ codes, payload[field.offset]? = some byte
  | .text width =>
    ∀ index < width, ∃ byte, payload[field.offset + index]? = some byte ∧ Printable byte
  | .price => decode (slice payload field.offset 4) ≤ kMaxPrice4.toNat

-- The errors that a field can give: one for a code, a price or a single byte of text.
inductive Violates (payload : List UInt8) (sequence : UInt64) (type : UInt8) :
    Field → Error → Prop
  | code {offset codes byte} (hbyte : payload[offset]? = some byte) (h : byte ∉ codes) :
    Violates payload sequence type ⟨offset, .code codes⟩
      (Error.invalid_itch_enum (.ofNat offset) byte sequence type)
  | text {offset width index byte} (hindex : index < width)
      (hbyte : payload[offset + index]? = some byte) (h : ¬Printable byte) :
    Violates payload sequence type ⟨offset, .text width⟩
      (Error.invalid_itch_ascii (.ofNat (offset + index)) byte sequence type)
  | price {offset value} (hvalue : (value : UInt32).toNat = decode (slice payload offset 4))
      (h : value > kMaxPrice4) :
    Violates payload sequence type ⟨offset, .price⟩
      (Error.invalid_itch_value (.ofNat offset) value.toUInt64 kMaxPrice4.toUInt64
        sequence type)

-- The type is registered and the length is the one of the type.
def Framed (payload : List UInt8) (definition : ItchTypeDefinition) : Prop :=
  definition ∈ itch_type_definitions ∧ payload.head? = some definition.type ∧
    payload.length = definition.length.toNat

def Accepts (payload : List UInt8) : Prop :=
  ∃ definition, Framed payload definition ∧
    ∀ field ∈ fields definition.type, field.Valid payload

-- The error at the lowest offset, if the type and the length are right.
inductive Reports (payload : List UInt8) (sequence : UInt64) : Error → Prop
  | empty (h : payload = []) :
    Reports payload sequence (Error.invalid_itch_length 1 0 sequence 0)
  | unknown {type} (htype : payload.head? = some type)
      (h : ∀ definition ∈ itch_type_definitions, definition.type ≠ type) :
    Reports payload sequence (Error.unknown_itch_type type sequence)
  | length {definition} (hdefinition : definition ∈ itch_type_definitions)
      (htype : payload.head? = some definition.type)
      (h : payload.length ≠ definition.length.toNat) :
    Reports payload sequence
      (Error.invalid_itch_length definition.length (.ofNat payload.length) sequence
        definition.type)
  | field {definition field error} (hframed : Framed payload definition)
      (hfield : field ∈ fields definition.type)
      (h : Violates payload sequence definition.type field error)
      (hfirst : ∀ other ∈ fields definition.type, ∀ error',
        Violates payload sequence definition.type other error' → error.offset ≤ error'.offset) :
    Reports payload sequence error

end AegisFeed.Grammar
