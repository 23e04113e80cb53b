import AegisFeed.Itch.Grammar
import AegisFeed.Library.Sorting

namespace AegisFeed.Grammar

open BigEndian (decode u8 u32)
open Slices (slice)

-- The errors of a field as a list, by offset.
def textFaults (sequence : UInt64) (type : UInt8) : Nat → List UInt8 → List Error
  | _, [] => []
  | offset, byte :: rest =>
    (if Printable byte then []
      else [Error.invalid_itch_ascii (.ofNat offset) byte sequence type]) ++
      textFaults sequence type (offset + 1) rest

def codeFaults (sequence : UInt64) (type : UInt8) (offset : Nat) (codes : List UInt8)
    (byte : UInt8) : List Error :=
  if byte ∈ codes then [] else [Error.invalid_itch_enum (.ofNat offset) byte sequence type]

def priceFaults (sequence : UInt64) (type : UInt8) (offset : Nat) (value : UInt32) :
    List Error :=
  if value > kMaxPrice4 then
    [Error.invalid_itch_value (.ofNat offset) value.toUInt64 kMaxPrice4.toUInt64 sequence type]
  else []

def Field.faults (payload : List UInt8) (sequence : UInt64) (type : UInt8) (field : Field) :
    List Error :=
  match field.constraint with
  | .code codes =>
    codeFaults sequence type field.offset codes (u8 (slice payload field.offset 1))
  | .text width => textFaults sequence type field.offset (slice payload field.offset width)
  | .price => priceFaults sequence type field.offset (u32 (slice payload field.offset 4))

variable {payload : List UInt8} {sequence : UInt64} {type : UInt8}

theorem textFaults_eq_nil_iff (offset : Nat) (text : List UInt8) :
    textFaults sequence type offset text = [] ↔ ∀ byte ∈ text, Printable byte := by
  induction text generalizing offset with
  | nil => simp [textFaults]
  | cons byte rest ih => by_cases h : Printable byte <;> simp [textFaults, ih, h]

theorem mem_textFaults_iff {offset : Nat} {text : List UInt8} {error : Error} :
    error ∈ textFaults sequence type offset text ↔
      ∃ index byte, text[index]? = some byte ∧ ¬Printable byte ∧
        error = Error.invalid_itch_ascii (.ofNat (offset + index)) byte sequence type := by
  induction text generalizing offset with
  | nil => simp [textFaults]
  | cons byte rest ih =>
    rw [textFaults, List.mem_append, ih]
    constructor
    · rintro (h | ⟨index, other, hother, hprintable, rfl⟩)
      · split_ifs at h with hprintable
        · cases h
        · exact ⟨0, byte, rfl, hprintable, List.mem_singleton.mp h⟩
      · exact ⟨index + 1, other, hother, hprintable, by rw [Nat.add_assoc, Nat.add_comm 1]⟩
    · rintro ⟨_ | index, other, hother, hprintable, rfl⟩
      · cases hother
        left
        simp [hprintable]
      · right
        exact ⟨index, other, hother, hprintable, by rw [Nat.add_assoc, Nat.add_comm 1]⟩

theorem mem_codeFaults_iff {offset : Nat} {codes : List UInt8} {byte : UInt8} {error : Error} :
    error ∈ codeFaults sequence type offset codes byte ↔
      byte ∉ codes ∧ error = Error.invalid_itch_enum (.ofNat offset) byte sequence type := by
  rw [codeFaults, List.mem_ite_nil_left, List.mem_singleton]

theorem mem_priceFaults_iff {offset : Nat} {value : UInt32} {error : Error} :
    error ∈ priceFaults sequence type offset value ↔
      value > kMaxPrice4 ∧ error = Error.invalid_itch_value (.ofNat offset) value.toUInt64
        kMaxPrice4.toUInt64 sequence type := by
  rw [priceFaults, List.mem_ite_nil_right, List.mem_singleton]

-- The field lies in the payload.
def Field.Fits (payload : List UInt8) (field : Field) : Prop := field.next ≤ payload.length

theorem Field.getElem?_of_fits {field : Field} (h : field.Fits payload)
    (hwidth : 0 < field.constraint.width) :
    ∃ byte, payload[field.offset]? = some byte ∧ u8 (slice payload field.offset 1) = byte := by
  have hlt : field.offset < payload.length := by
    simp only [Field.Fits, Field.next] at h
    omega
  refine ⟨payload[field.offset], List.getElem?_eq_getElem hlt, ?_⟩
  rw [Slices.slice_one (List.getElem?_eq_getElem hlt), BigEndian.u8_singleton]

theorem Field.mem_faults_iff {field : Field} (h : field.Fits payload) (error : Error) :
    error ∈ field.faults payload sequence type ↔ Violates payload sequence type field error := by
  obtain ⟨offset, constraint⟩ := field
  cases constraint with
  | code codes =>
    obtain ⟨byte, hbyte, hvalue⟩ := getElem?_of_fits h Nat.one_pos
    simp only [faults, hvalue, mem_codeFaults_iff]
    constructor
    · rintro ⟨hmem, rfl⟩
      exact .code hbyte hmem
    · rintro ⟨hother, hmem⟩
      cases hbyte.symm.trans hother
      exact ⟨hmem, rfl⟩
  | text width =>
    simp only [faults, mem_textFaults_iff, Slices.getElem?_slice]
    constructor
    · rintro ⟨index, byte, hbyte, hprintable, rfl⟩
      split_ifs at hbyte with hindex
      exact .text hindex hbyte hprintable
    · intro hviolates
      cases hviolates with
      | @text _ _ index byte hindex hbyte hprintable =>
        exact ⟨index, byte, by rw [if_pos hindex, hbyte], hprintable, rfl⟩
  | price =>
    have hvalue := BigEndian.toNat_u32 (Slices.length_slice h : (slice payload offset 4).length = 4)
    simp only [faults, mem_priceFaults_iff]
    constructor
    · rintro ⟨hprice, rfl⟩
      exact .price hvalue hprice
    · intro hviolates
      cases hviolates with
      | @price _ value hother hprice =>
        obtain rfl : value = u32 (slice payload offset 4) :=
          UInt32.toNat_inj.mp (hother.trans hvalue.symm)
        exact ⟨hprice, rfl⟩

theorem Field.faults_eq_nil_iff {field : Field} (h : field.Fits payload) :
    field.faults payload sequence type = [] ↔ field.Valid payload := by
  obtain ⟨offset, constraint⟩ := field
  cases constraint with
  | code codes =>
    obtain ⟨byte, hbyte, hvalue⟩ := getElem?_of_fits h Nat.one_pos
    simp only [faults, codeFaults, hvalue, Valid, hbyte, Option.some_inj]
    simp
  | text width =>
    simp only [faults, textFaults_eq_nil_iff, Valid]
    exact Slices.forall_mem_slice_iff h
  | price =>
    have hlength : (slice payload offset 4).length = 4 := Slices.length_slice h
    simp only [faults, priceFaults, Valid, ← BigEndian.toNat_u32 hlength, ← UInt32.le_iff_toNat_le]
    simp

-- Faults stand in the order of their offsets.
theorem textFaults_offset {offset : Nat} {text : List UInt8} (h : offset + text.length < 2 ^ 64) :
    ∀ error ∈ textFaults sequence type offset text,
      offset ≤ error.offset.toNat ∧ error.offset.toNat < offset + text.length := by
  intro error hmem
  obtain ⟨index, byte, hbyte, -, rfl⟩ := mem_textFaults_iff.mp hmem
  have hindex : index < text.length := (List.getElem?_eq_some_iff.mp hbyte).1
  show offset ≤ (UInt64.ofNat (offset + index)).toNat ∧
    (UInt64.ofNat (offset + index)).toNat < offset + text.length
  rw [UInt64.toNat_ofNat', Nat.mod_eq_of_lt (by omega)]
  omega

def Ascending (errors : List Error) : Prop :=
  errors.Pairwise fun first second => first.offset.toNat < second.offset.toNat

theorem textFaults_ascending {offset : Nat} {text : List UInt8}
    (h : offset + text.length < 2 ^ 64) :
    Ascending (textFaults sequence type offset text) := by
  induction text generalizing offset with
  | nil => exact List.Pairwise.nil
  | cons byte rest ih =>
    rw [List.length_cons] at h
    refine List.pairwise_append.mpr ⟨?_, ih (by omega), ?_⟩
    · split_ifs
      · exact List.Pairwise.nil
      · exact List.pairwise_singleton _ _
    · intro first hfirst second hsecond
      have hlater := textFaults_offset (by omega) second hsecond
      split_ifs at hfirst with hprintable
      · cases hfirst
      · rw [List.mem_singleton.mp hfirst]
        show (UInt64.ofNat offset).toNat < _
        rw [UInt64.toNat_ofNat', Nat.mod_eq_of_lt (by omega)]
        omega

theorem Violates.exists_offset {field : Field} {error : Error}
    (h : Violates payload sequence type field error) :
    ∃ offset, error.offset = .ofNat offset ∧ field.offset ≤ offset ∧ offset < field.next := by
  cases h with
  | @code offset codes byte hbyte hcode =>
    exact ⟨offset, rfl, Nat.le_refl _, Nat.lt_succ_self offset⟩
  | @text offset width index byte hindex hbyte hprintable =>
    exact ⟨offset + index, rfl, Nat.le_add_right _ _, Nat.add_lt_add_left hindex offset⟩
  | @price offset value hvalue hprice =>
    exact ⟨offset, rfl, Nat.le_refl _, Nat.lt_add_of_pos_right (show 0 < 4 by decide)⟩

theorem Field.faults_offset {field : Field} (h : field.Fits payload)
    (hsmall : payload.length < 2 ^ 64) :
    ∀ error ∈ field.faults payload sequence type,
      field.offset ≤ error.offset.toNat ∧ error.offset.toNat < field.next := by
  intro error hmem
  obtain ⟨offset, heq, hle, hlt⟩ := ((mem_faults_iff h error).mp hmem).exists_offset
  have hbound : offset < 2 ^ 64 := Nat.lt_trans (Nat.lt_of_lt_of_le hlt h) hsmall
  rw [heq, UInt64.toNat_ofNat', Nat.mod_eq_of_lt hbound]
  exact ⟨hle, hlt⟩

theorem Field.faults_ascending {field : Field} (h : field.Fits payload)
    (hsmall : payload.length < 2 ^ 64) : Ascending (field.faults payload sequence type) := by
  obtain ⟨offset, constraint⟩ := field
  cases constraint with
  | code codes =>
    simp only [faults, codeFaults]
    split_ifs
    · exact List.Pairwise.nil
    · exact List.pairwise_singleton _ _
  | text width =>
    have hlength : (slice payload offset width).length = width := Slices.length_slice h
    refine textFaults_ascending ?_
    rw [hlength]
    exact Nat.lt_of_le_of_lt h hsmall
  | price =>
    simp only [faults, priceFaults]
    split_ifs
    · exact List.pairwise_singleton _ _
    · exact List.Pairwise.nil

def faultsOf (payload : List UInt8) (sequence : UInt64) (type : UInt8) (fields : List Field) :
    List Error :=
  fields.flatMap (Field.faults payload sequence type)

def faults (payload : List UInt8) (sequence : UInt64) (type : UInt8) : List Error :=
  faultsOf payload sequence type (fields type)

theorem fields_ordered : ∀ definition ∈ itch_type_definitions,
    (fields definition.type).Pairwise fun first second => first.next ≤ second.offset := by
  decide

theorem fields_fit : ∀ definition ∈ itch_type_definitions, ∀ field ∈ fields definition.type,
    field.next ≤ definition.length.toNat := by
  decide

theorem header_fits : ∀ definition ∈ itch_type_definitions, 11 ≤ definition.length.toNat := by
  decide

section Framed

variable {definition : ItchTypeDefinition} (h : Framed payload definition)

include h

theorem Framed.fits {field : Field} (hfield : field ∈ fields definition.type) :
    field.Fits payload := by
  obtain ⟨hmem, -, hlength⟩ := h
  rw [Field.Fits, hlength]
  exact fields_fit definition hmem field hfield

theorem Framed.header_fits : 11 ≤ payload.length := by
  rw [h.2.2]
  exact Grammar.header_fits definition h.1

theorem Framed.mem_faults_iff (error : Error) :
    error ∈ faults payload sequence definition.type ↔
      ∃ field ∈ fields definition.type,
        Violates payload sequence definition.type field error := by
  rw [faults, faultsOf, List.mem_flatMap]
  constructor
  · rintro ⟨field, hfield, hmem⟩
    exact ⟨field, hfield, (Field.mem_faults_iff (h.fits hfield) error).mp hmem⟩
  · rintro ⟨field, hfield, hviolates⟩
    exact ⟨field, hfield, (Field.mem_faults_iff (h.fits hfield) error).mpr hviolates⟩

theorem Framed.faults_eq_nil_iff :
    faults payload sequence definition.type = [] ↔
      ∀ field ∈ fields definition.type, field.Valid payload := by
  rw [faults, faultsOf, List.flatMap_eq_nil_iff]
  exact forall₂_congr fun field hfield => Field.faults_eq_nil_iff (h.fits hfield)

theorem Framed.faults_ascending : Ascending (faults payload sequence definition.type) := by
  have hsmall : payload.length < 2 ^ 64 := by
    rw [h.2.2]
    exact definition.length.toNat_lt
  refine List.pairwise_flatMap.mpr
    ⟨fun field hfield => Field.faults_ascending (h.fits hfield) hsmall, ?_⟩
  refine (fields_ordered definition h.1).imp_of_mem ?_
  intro first second hfirst hsecond hle error hmem error' hmem'
  have hbound := Field.faults_offset (h.fits hfirst) hsmall error hmem
  have hbound' := Field.faults_offset (h.fits hsecond) hsmall error' hmem'
  omega

-- The first fault is the error at the lowest offset.
theorem Framed.head?_faults_iff (error : Error) :
    (faults payload sequence definition.type).head? = some error ↔
      ∃ field ∈ fields definition.type,
        Violates payload sequence definition.type field error ∧
        ∀ other ∈ fields definition.type, ∀ error',
          Violates payload sequence definition.type other error' →
            error.offset ≤ error'.offset := by
  rw [Sorting.head?_eq_some_iff h.faults_ascending, h.mem_faults_iff]
  simp only [h.mem_faults_iff, Nat.not_lt, ← UInt64.le_iff_toNat_le]
  constructor
  · rintro ⟨⟨field, hfield, hviolates⟩, hfirst⟩
    exact ⟨field, hfield, hviolates, fun other hother error' hviolates' =>
      hfirst error' ⟨other, hother, hviolates'⟩⟩
  · rintro ⟨field, hfield, hviolates, hfirst⟩
    exact ⟨⟨field, hfield, hviolates⟩, fun error' ⟨other, hother, hviolates'⟩ =>
      hfirst other hother error' hviolates'⟩

end Framed

end AegisFeed.Grammar
