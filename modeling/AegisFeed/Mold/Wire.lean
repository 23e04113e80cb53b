import AegisFeed.Common.Items.Theorems
import AegisFeed.Mold.Session
import Mathlib.Data.List.Forall2

namespace AegisFeed

open Padding (trimmed)
open Slices (slice overlay)

-- What is written through a cursor: items, and sessions among them.
inductive WireField where
  | item (value : Item)
  | session (value : MoldSession)
deriving DecidableEq

-- What is read through one. A session is read into a destination.
inductive WireSlot where
  | item (kind : ItemKind)
  | session (destination : MoldSession)
deriving DecidableEq

def ByteWriter.write_field (writer : ByteWriter) : WireField → Result Unit × ByteWriter
  | .item item => writer.write item
  | .session session => write_mold_session writer session

def ByteReader.read_slot (reader : ByteReader) : WireSlot → Result WireField × ByteReader
  | .item kind => ((reader.read kind).1.map .item, (reader.read kind).2)
  | .session destination =>
    let outcome := read_mold_session reader destination
    (outcome.1.map fun _ => .session outcome.2.2, outcome.2.1)

-- The slots that a field can be read with.
def WireSlot.Takes : WireSlot → WireField → Prop
  | .item kind, .item value => value.kind = kind
  | .session _, .session _ => True
  | _, _ => False

-- A session is ten raw bytes.
def WireField.bytes : WireField → Item
  | .item value => value
  | .session value => .bytes value.span

def WireSlot.kind : WireSlot → ItemKind
  | .item kind => kind
  | .session _ => .bytes (.ofNat kMoldSessionSize)

-- The session that `read_mold_session` makes of the bytes of its source.
def parsed (bytes : List UInt8) : MoldSession :=
  copy_characters (Vector.replicate kMoldSessionSize 0) 0 bytes

def WireSlot.fill : WireSlot → Item → WireField
  | .session _, .bytes source => .session (parsed source.bytes)
  | _, value => .item value

section Sessions

theorem toList_parsed {bytes : List UInt8} (h : bytes.length = kMoldSessionSize) :
    (parsed bytes).toList = bytes := by
  unfold parsed
  rw [toList_copy_characters _ _ _ (by omega)]
  simp [h]

theorem parsed_toList (session : MoldSession) : parsed session.toList = session :=
  Vector.toList_inj.mp (toList_parsed session.length_toList)

theorem size_span (session : MoldSession) : session.span.size = .ofNat kMoldSessionSize :=
  congrArg UInt64.ofNat session.length_toList

variable {reader : ByteReader} (destination : MoldSession)

theorem read_mold_session_of_le
    (h : reader.position.toNat + kMoldSessionSize ≤ reader.bytes.bytes.length) :
    read_mold_session reader destination =
      (.ok (), { reader with position := reader.position + .ofNat kMoldSessionSize },
        parsed (slice reader.bytes.bytes reader.position.toNat kMoldSessionSize)) := by
  have hread : reader.read_bytes (.ofNat kMoldSessionSize) = _ := ByteReader.read_bytes_of_le h
  unfold read_mold_session
  rw [hread]
  rfl

theorem read_mold_session_of_lt
    (h : ¬reader.position.toNat + kMoldSessionSize ≤ reader.bytes.bytes.length) :
    read_mold_session reader destination =
      (.error (Error.read_past_end reader.position (.ofNat kMoldSessionSize) reader.remaining),
        reader, destination) := by
  have hcan : ¬can_read reader.bytes reader.position (.ofNat kMoldSessionSize) := by
    rw [can_read_iff]
    exact h
  have hread : reader.read_bytes (.ofNat kMoldSessionSize) = _ := if_neg hcan
  unfold read_mold_session
  rw [hread]

end Sessions

section Fields

theorem write_field_eq (writer : ByteWriter) (field : WireField) :
    writer.write_field field = writer.write field.bytes := by
  cases field <;> rfl

theorem read_slot_eq : ByteReader.read_slot = fun reader slot =>
    ((reader.read slot.kind).1.map slot.fill, (reader.read slot.kind).2) := by
  funext reader slot
  cases slot with
  | item kind => rfl
  | session destination =>
    rcases hread : reader.read_bytes (.ofNat kMoldSessionSize) with ⟨result, next⟩
    have hbytes : reader.read (.bytes (.ofNat kMoldSessionSize)) =
        (result.map .bytes, next) := by
      show ByteReader.read.named _ (reader.read_bytes _) = _
      rw [hread]
      rfl
    simp only [ByteReader.read_slot, read_mold_session, hread, WireSlot.kind, hbytes]
    cases result <;> rfl

theorem fill_bytes {slot : WireSlot} {field : WireField} (h : slot.Takes field) :
    slot.fill field.bytes = field := by
  cases slot with
  | item kind =>
    cases field with
    | item item => rfl
    | session session => exact h.elim
  | session destination =>
    cases field with
    | item item => exact h.elim
    | session session => exact congrArg WireField.session (parsed_toList session)

theorem kind_bytes {slot : WireSlot} {field : WireField} (h : slot.Takes field) :
    field.bytes.kind = slot.kind := by
  cases slot with
  | item kind =>
    cases field with
    | item item => exact h
    | session session => exact h.elim
  | session destination =>
    cases field with
    | item item => exact h.elim
    | session session => exact congrArg ItemKind.bytes (size_span session)

variable {slots : List WireSlot} {fields : List WireField}

-- Any field can be read with some slot.
def WireField.slot : WireField → WireSlot
  | .item value => .item value.kind
  | .session value => .session value

theorem slots_take (fields : List WireField) :
    List.Forall₂ WireSlot.Takes (fields.map WireField.slot) fields := by
  rw [List.forall₂_map_left_iff, List.forall₂_same]
  intro field _
  cases field with
  | item value => exact rfl
  | session value => exact trivial

theorem kinds_eq (h : List.Forall₂ WireSlot.Takes slots fields) :
    (fields.map WireField.bytes).map Item.kind = slots.map WireSlot.kind := by
  induction h with
  | nil => rfl
  | cons first _ ih => exact congrArg₂ List.cons (kind_bytes first) ih

theorem fills_eq (h : List.Forall₂ WireSlot.Takes slots fields) :
    List.zipWith (fun slot (result : Result Item) => result.map slot.fill) slots
      ((fields.map WireField.bytes).map .ok) = fields.map .ok := by
  induction h with
  | nil => rfl
  | cons first _ ih => exact congrArg₂ List.cons (congrArg Except.ok (fill_bytes first)) ih

end Fields

section Runs

variable {fields : List WireField} {slots : List WireSlot}

theorem run_write_field (writer : ByteWriter) : Machine.run ByteWriter.write_field writer fields =
    Machine.run ByteWriter.write writer (fields.map WireField.bytes) := by
  rw [show ByteWriter.write_field = _ from funext₂ write_field_eq]
  exact Machine.run_renamed ByteWriter.write WireField.bytes (fun _ result => result) writer fields

theorem fields_written_iff (writer : ByteWriter) :
    (∀ entry ∈ Machine.transcript ByteWriter.write_field writer fields, entry.2 = .ok ()) ↔
      ∀ entry ∈ Machine.transcript ByteWriter.write writer (fields.map WireField.bytes),
        entry.2 = .ok () := by
  induction fields generalizing writer with
  | nil => exact iff_of_true (List.forall_mem_nil _) (List.forall_mem_nil _)
  | cons field rest ih =>
    rw [List.map_cons, Machine.transcript_cons, Machine.transcript_cons, List.forall_mem_cons,
      List.forall_mem_cons, write_field_eq, ih]

theorem run_read_slot (reader : ByteReader) : Machine.run ByteReader.read_slot reader slots =
    Machine.run ByteReader.read reader (slots.map WireSlot.kind) := by
  rw [read_slot_eq]
  exact Machine.run_renamed ByteReader.read WireSlot.kind
    (fun slot result => result.map slot.fill) reader slots

-- What is written is read back, whatever is in the destinations.
theorem fields_read_back {buffer : Span}
    (hall : ∀ entry ∈ Machine.transcript ByteWriter.write_field { bytes := buffer } fields,
      entry.2 = .ok ())
    (htakes : List.Forall₂ WireSlot.Takes slots fields) :
    (Machine.transcript ByteReader.read_slot
      { bytes := (Machine.run ByteWriter.write_field { bytes := buffer } fields).bytes }
      slots).map Prod.snd = fields.map .ok := by
  rw [fields_written_iff, ← all_written_iff] at hall
  have hreads := (Cursor.read_written buffer.bytes _ hall).1
  rw [run_content] at hreads
  have hitems := (all_read_iff _ _ _).mp hreads
  have hkinds : (fields.map WireField.bytes).map itemFormat.kind = slots.map WireSlot.kind :=
    kinds_eq htakes
  rw [hkinds] at hitems
  rw [read_slot_eq, Machine.responses_renamed ByteReader.read WireSlot.kind
    (fun slot result => result.map slot.fill), run_write_field, hitems]
  exact fills_eq htakes

-- A session among what is written is read back at its place.
theorem session_read_back {buffer : Span} {before after : List WireField} {session : MoldSession}
    (hall : ∀ entry ∈ Machine.transcript ByteWriter.write_field { bytes := buffer }
      (before ++ .session session :: after), entry.2 = .ok ())
    (htakes : List.Forall₂ WireSlot.Takes slots before) (destination : MoldSession) :
    let written := (Machine.run ByteWriter.write_field { bytes := buffer }
      (before ++ .session session :: after)).bytes
    let outcome := read_mold_session
      (Machine.run ByteReader.read_slot { bytes := written } slots) destination
    outcome.1 = .ok () ∧ outcome.2.2 = session := by
  intro written outcome
  have hread := fields_read_back hall
    (List.rel_append htakes (.cons (show WireSlot.Takes (.session destination) _ from trivial)
      (slots_take after)))
  rw [Machine.transcript_append, List.map_append, List.map_append] at hread
  have hlength : ((Machine.transcript ByteReader.read_slot { bytes := written } slots).map
      Prod.snd).length = (before.map (Except.ok (ε := Error))).length := by
    rw [List.length_map, Machine.length_transcript, List.length_map, htakes.length_eq]
  have hfirst : (outcome.1.map fun _ => WireField.session outcome.2.2) =
      .ok (.session session) := (List.cons.inj (List.append_inj_right hread hlength)).1
  cases hresult : outcome.1 with
  | error error =>
    rw [hresult] at hfirst
    cases hfirst
  | ok done =>
    rw [hresult] at hfirst
    exact ⟨rfl, WireField.session.inj (Except.ok.inj hfirst)⟩

end Runs

-- Sessions through cursors, among any other items. What was written is read back, a session
-- into any destination and a text as that text up to spaces on the right. At every place of
-- every run a session is written or read when ten bytes remain. Else the error says what was
-- missing, and the buffer, the place and the destination are as they were.
theorem write_read_mold_sessions :
    (∀ (buffer : Span) (fields : List WireField),
      (∀ entry ∈ Machine.transcript ByteWriter.write_field { bytes := buffer } fields,
        entry.2 = .ok ()) →
      let written := (Machine.run ByteWriter.write_field { bytes := buffer } fields).bytes
      (∀ slots, List.Forall₂ WireSlot.Takes slots fields →
        (Machine.transcript ByteReader.read_slot { bytes := written } slots).map Prod.snd =
          fields.map .ok) ∧
      ∀ before text session after, fields = before ++ .session session :: after →
        make_mold_session text = .ok session →
        ∀ slots destination, List.Forall₂ WireSlot.Takes slots before →
          let outcome := read_mold_session
            (Machine.run ByteReader.read_slot { bytes := written } slots) destination
          outcome.1 = .ok () ∧ (format_mold_session outcome.2.2).view = trimmed 0x20 text) ∧
    (∀ (buffer : Span) (fields : List WireField) (session : MoldSession),
      let writer := Machine.run ByteWriter.write_field { bytes := buffer } fields
      let outcome := write_mold_session writer session
      (kMoldSessionSize ≤ writer.remaining.toNat → outcome.1 = .ok () ∧
        outcome.2.bytes.bytes =
          overlay writer.bytes.bytes writer.position.toNat session.toList ∧
        outcome.2.position.toNat = writer.position.toNat + kMoldSessionSize) ∧
      (writer.remaining.toNat < kMoldSessionSize → outcome = (.error (Error.write_past_end
        writer.position (.ofNat kMoldSessionSize) writer.remaining), writer))) ∧
    ∀ (buffer : Span) (slots : List WireSlot) (destination : MoldSession),
      let reader := Machine.run ByteReader.read_slot { bytes := buffer } slots
      let outcome := read_mold_session reader destination
      (kMoldSessionSize ≤ reader.remaining.toNat → outcome.1 = .ok () ∧
        outcome.2.1.bytes = buffer ∧
        outcome.2.1.position.toNat = reader.position.toNat + kMoldSessionSize ∧
        outcome.2.2.toList = slice buffer.bytes reader.position.toNat kMoldSessionSize) ∧
      (reader.remaining.toNat < kMoldSessionSize → outcome = (.error (Error.read_past_end
        reader.position (.ofNat kMoldSessionSize) reader.remaining), reader, destination)) := by
  refine ⟨?_, ?_, ?_⟩
  · intro buffer fields hall written
    refine ⟨fun slots => fields_read_back hall, ?_⟩
    rintro before text session after rfl hmake slots destination htakes outcome
    obtain ⟨hresult, hsession⟩ := session_read_back hall htakes destination
    refine ⟨hresult, ?_⟩
    rw [hsession, view_format_mold_session, (toList_of_make hmake).2, Padding.trimmed_rightpad]
  · intro buffer fields session writer outcome
    obtain ⟨hposition, hremaining⟩ : writer.position.toNat ≤ buffer.bytes.length ∧
        writer.remaining.toNat = buffer.bytes.length - writer.position.toNat := by
      have hrun := ByteWriter.run_position_remaining buffer (fields.map WireField.bytes)
      rwa [← run_write_field] at hrun
    have hlength : writer.bytes.bytes.length = buffer.bytes.length := by
      have hrun := (ByteWriter.run_valid buffer (fields.map WireField.bytes)).2
      rwa [← run_write_field] at hrun
    have hsize : session.span.size.toNat = kMoldSessionSize := by
      rw [size_span]
      rfl
    refine ⟨fun hroom => ?_, fun hroom => ?_⟩
    · have hwrote : writer.Wrote session.span.bytes (writer.write_bytes session.span) :=
        ByteWriter.write_bytes_wrote (by omega)
      refine ⟨hwrote.result, hwrote.bytes, hwrote.position.trans ?_⟩
      exact congrArg _ session.length_toList
    · have hrefused : outcome = _ := ByteWriter.write_bytes_refused (by omega)
      rwa [size_span] at hrefused
  · intro buffer slots destination reader outcome
    obtain ⟨hposition, hremaining⟩ : reader.position.toNat ≤ buffer.bytes.length ∧
        reader.remaining.toNat = buffer.bytes.length - reader.position.toNat := by
      have hrun := ByteReader.run_position_remaining buffer (slots.map WireSlot.kind)
      rwa [← run_read_slot] at hrun
    have hbytes : reader.bytes = buffer := by
      have hrun := (ByteReader.run_valid buffer (slots.map WireSlot.kind)).2
      rwa [← run_read_slot] at hrun
    have hlength : reader.bytes.bytes.length = buffer.bytes.length := by rw [hbytes]
    refine ⟨fun hroom => ?_, fun hroom => read_mold_session_of_lt destination (by omega)⟩
    have hfits : reader.position.toNat + kMoldSessionSize ≤ reader.bytes.bytes.length := by omega
    have hread : outcome = _ := read_mold_session_of_le destination hfits
    rw [hread]
    refine ⟨rfl, hbytes, Span.toNat_add hfits, ?_⟩
    rw [← hbytes]
    exact toList_parsed (Slices.length_slice hfits)

end AegisFeed
