import AegisFeed.Common.Items

namespace AegisFeed

open Cursor (Encodes)

theorem encodes_wire {items : List Item} {elements : List UInt8}
    (h : Encodes itemFormat items elements) :
    elements = items.flatMap Item.wire ∧ ∀ item ∈ items, item.InRange := by
  induction h with
  | nil => exact ⟨rfl, nofun⟩
  | cons head _ ih =>
    obtain ⟨hrange, rfl⟩ := encoded_iff.mp head
    rw [List.flatMap_cons, List.forall_mem_cons, ← ih.1]
    exact ⟨rfl, hrange, ih.2⟩

section Position

-- A cursor that has not left its buffer.
variable {bytes : Span} {position : UInt64} (h : position.toNat ≤ bytes.bytes.length)

include h

theorem toNat_remaining : (bytes.size - position).toNat = bytes.bytes.length - position.toNat := by
  have hle : position ≤ bytes.size := by
    rwa [UInt64.le_iff_toNat_le, Span.toNat_size]
  rw [UInt64.toNat_sub_of_le _ _ hle, Span.toNat_size]

theorem length_passed : (bytes.bytes.take position.toNat).length = position.toNat := by
  rw [List.length_take, Nat.min_eq_left h]

end Position

namespace ByteWriter

variable {writer : ByteWriter}

def Valid (writer : ByteWriter) : Prop :=
  writer.position.toNat ≤ writer.bytes.bytes.length

-- What a writer is for: a cursor over its buffer.
def view (writer : ByteWriter) : Cursor.State UInt8 where
  passed := writer.bytes.bytes.take writer.position.toNat
  ahead := writer.bytes.bytes.drop writer.position.toNat

theorem view_content (writer : ByteWriter) :
    writer.view.passed ++ writer.view.ahead = writer.bytes.bytes :=
  List.take_append_drop _ _

theorem length_view_passed (h : writer.Valid) :
    writer.view.passed.length = writer.position.toNat :=
  length_passed h

theorem Wrote.view {elements : List UInt8} {outcome : Result Unit × ByteWriter}
    (h : writer.Wrote elements outcome) (hvalid : writer.Valid) :
    outcome.2.view = ⟨writer.view.passed ++ elements, writer.view.ahead.drop elements.length⟩ := by
  have hlength : (writer.view.passed ++ elements).length = outcome.2.position.toNat := by
    rw [List.length_append, h.position]
    exact congrArg (· + elements.length) (length_view_passed hvalid)
  unfold ByteWriter.view at hlength ⊢
  rw [h.bytes, ← hlength, List.take_left, List.drop_left, List.drop_drop]

-- A step of the writer is a step of the cursor.
theorem write_refines (hvalid : writer.Valid) (item : Item) :
    Cursor.put itemFormat writer.view item =
      ((writer.write item).1.isOk, (writer.write item).2.view) := by
  unfold Cursor.put
  by_cases hrange : item.InRange
  · have hencode : itemFormat.encode item = some item.wire := if_pos hrange
    have hroom : item.wire.length ≤ writer.view.ahead.length ↔
        writer.position.toNat + item.kind.width.toNat ≤ writer.bytes.bytes.length := by
      have hlength : writer.view.ahead.length =
          writer.bytes.bytes.length - writer.position.toNat := List.length_drop
      unfold Valid at hvalid
      rw [hlength, item.length_wire]
      omega
    simp only [hencode, hroom]
    by_cases hfits : writer.position.toNat + item.kind.width.toNat ≤ writer.bytes.bytes.length
    · have hwrote := write_wrote hrange hfits
      rw [if_pos hfits, hwrote.result, hwrote.view hvalid]
      rfl
    · rw [if_neg hfits, write_past_end hrange hfits]
      rfl
  · have hencode : itemFormat.encode item = none := if_neg hrange
    simp only [hencode]
    cases item with
    | u48 value =>
      rw [write_out_of_range (UInt64.not_le.mp hrange)]
      rfl
    | _ => exact absurd trivial hrange

theorem write_valid (item : Item) (h : writer.Valid) :
    (writer.write item).2.Valid ∧
      (writer.write item).2.bytes.bytes.length = writer.bytes.bytes.length := by
  by_cases hrange : item.InRange
  · by_cases hfits : writer.position.toNat + item.kind.width.toNat ≤ writer.bytes.bytes.length
    · have hwrote := write_wrote hrange hfits
      have hlength : (writer.write item).2.bytes.bytes.length = writer.bytes.bytes.length := by
        rw [hwrote.bytes, List.length_append, List.length_append, length_passed h,
          List.length_drop, item.length_wire]
        omega
      refine ⟨?_, hlength⟩
      unfold Valid
      rw [hlength, hwrote.position, item.length_wire]
      exact hfits
    · rw [write_past_end hrange hfits]
      exact ⟨h, rfl⟩
  · cases item with
    | u48 value =>
      rw [write_out_of_range (UInt64.not_le.mp hrange)]
      exact ⟨h, rfl⟩
    | _ => exact absurd trivial hrange

theorem start_valid (buffer : Span) : Valid { bytes := buffer } :=
  Nat.zero_le _

-- A run of the writer, from the start of a buffer.
section Runs

variable (buffer : Span) (items : List Item)

theorem run_valid : (Machine.run write { bytes := buffer } items).Valid ∧
    (Machine.run write { bytes := buffer } items).bytes.bytes.length = buffer.bytes.length := by
  refine Machine.run_invariant write
    (fun writer => writer.Valid ∧ writer.bytes.bytes.length = buffer.bytes.length) ?_ _
    ⟨start_valid buffer, rfl⟩ items
  rintro writer item ⟨hvalid, hlength⟩
  obtain ⟨hnext, hsame⟩ := write_valid item hvalid
  exact ⟨hnext, hsame.trans hlength⟩

theorem run_view : Machine.run (Cursor.put itemFormat) ⟨[], buffer.bytes⟩ items =
    (Machine.run write { bytes := buffer } items).view :=
  Machine.run_simulation write (Cursor.put itemFormat) view Except.isOk Valid
    (fun _ item h => (write_valid item h).1) (fun _ item h => write_refines h item)
    (start_valid buffer) items

theorem transcript_view : Machine.transcript (Cursor.put itemFormat) ⟨[], buffer.bytes⟩ items =
    (Machine.transcript write { bytes := buffer } items).map
      fun entry => (entry.1, entry.2.isOk) :=
  Machine.transcript_simulation write (Cursor.put itemFormat) view Except.isOk Valid
    (fun _ item h => (write_valid item h).1) (fun _ item h => write_refines h item)
    (start_valid buffer) items

-- The bytes of the items that were written, in their order.
def written (entries : List (Item × Result Unit)) : List UInt8 :=
  (entries.filter fun entry => entry.2.isOk).flatMap fun entry => entry.1.wire

theorem run_written :
    (Machine.run write { bytes := buffer } items).bytes.bytes =
      written (Machine.transcript write { bytes := buffer } items) ++
        buffer.bytes.drop (Machine.run write { bytes := buffer } items).position.toNat := by
  obtain ⟨elements, hencodes, -, hrun⟩ :=
    Cursor.run_put itemFormat ⟨[], buffer.bytes⟩ items
  rw [transcript_view, List.filter_map, List.map_map] at hencodes
  obtain ⟨rfl, -⟩ := encodes_wire hencodes
  rw [run_view, List.nil_append, List.flatMap_map] at hrun
  rw [← length_view_passed (run_valid buffer items).1, ← view_content, hrun]
  rfl

theorem run_position_remaining :
    (Machine.run write { bytes := buffer } items).position.toNat ≤ buffer.bytes.length ∧
    (Machine.run write { bytes := buffer } items).remaining.toNat =
      buffer.bytes.length - (Machine.run write { bytes := buffer } items).position.toNat := by
  obtain ⟨hvalid, hlength⟩ := run_valid buffer items
  rw [← hlength]
  exact ⟨hvalid, toNat_remaining hvalid⟩

end Runs

end ByteWriter

namespace ByteReader

variable {reader : ByteReader}

def Valid (reader : ByteReader) : Prop :=
  reader.position.toNat ≤ reader.bytes.bytes.length

def view (reader : ByteReader) : Cursor.State UInt8 where
  passed := reader.bytes.bytes.take reader.position.toNat
  ahead := reader.bytes.bytes.drop reader.position.toNat

theorem length_view_passed (h : reader.Valid) :
    reader.view.passed.length = reader.position.toNat :=
  length_passed h

-- A step of the reader is a step of the cursor.
theorem read_refines (hvalid : reader.Valid) (kind : ItemKind) :
    Cursor.get itemFormat reader.view kind =
      ((reader.read kind).1.toOption, (reader.read kind).2.view) := by
  have hroom : itemFormat.width kind ≤ reader.view.ahead.length ↔
      reader.position.toNat + kind.width.toNat ≤ reader.bytes.bytes.length := by
    have hlength : reader.view.ahead.length =
        reader.bytes.bytes.length - reader.position.toNat := List.length_drop
    have hwidth : itemFormat.width kind = kind.width.toNat := rfl
    unfold Valid at hvalid
    omega
  unfold Cursor.get
  by_cases hfits : reader.position.toNat + kind.width.toNat ≤ reader.bytes.bytes.length
  · rw [if_pos (hroom.mpr hfits), read_of_le hfits]
    refine Prod.ext rfl ?_
    unfold view
    dsimp only
    rw [Span.toNat_add hfits, List.take_add, List.drop_drop]
    rfl
  · rw [if_neg (mt hroom.mp hfits), read_past_end hfits]
    rfl

theorem read_valid (kind : ItemKind) (h : reader.Valid) :
    (reader.read kind).2.Valid ∧ (reader.read kind).2.bytes = reader.bytes := by
  by_cases hfits : reader.position.toNat + kind.width.toNat ≤ reader.bytes.bytes.length
  · rw [read_of_le hfits]
    refine ⟨?_, rfl⟩
    unfold Valid
    rw [Span.toNat_add hfits]
    exact hfits
  · rw [read_past_end hfits]
    exact ⟨h, rfl⟩

theorem start_valid (buffer : Span) : Valid { bytes := buffer } :=
  Nat.zero_le _

section Runs

variable (buffer : Span) (kinds : List ItemKind)

theorem run_valid : (Machine.run read { bytes := buffer } kinds).Valid ∧
    (Machine.run read { bytes := buffer } kinds).bytes = buffer := by
  refine Machine.run_invariant read
    (fun reader => reader.Valid ∧ reader.bytes = buffer) ?_ _ ⟨start_valid buffer, rfl⟩ kinds
  rintro reader kind ⟨hvalid, hbytes⟩
  obtain ⟨hnext, hsame⟩ := read_valid kind hvalid
  exact ⟨hnext, hsame.trans hbytes⟩

theorem run_view : Machine.run (Cursor.get itemFormat) ⟨[], buffer.bytes⟩ kinds =
    (Machine.run read { bytes := buffer } kinds).view :=
  Machine.run_simulation read (Cursor.get itemFormat) view Except.toOption Valid
    (fun _ kind h => (read_valid kind h).1) (fun _ kind h => read_refines h kind)
    (start_valid buffer) kinds

theorem transcript_view : Machine.transcript (Cursor.get itemFormat) ⟨[], buffer.bytes⟩ kinds =
    (Machine.transcript read { bytes := buffer } kinds).map
      fun entry => (entry.1, entry.2.toOption) :=
  Machine.transcript_simulation read (Cursor.get itemFormat) view Except.toOption Valid
    (fun _ kind h => (read_valid kind h).1) (fun _ kind h => read_refines h kind)
    (start_valid buffer) kinds

theorem run_position_remaining :
    (Machine.run read { bytes := buffer } kinds).position.toNat ≤ buffer.bytes.length ∧
    (Machine.run read { bytes := buffer } kinds).remaining.toNat =
      buffer.bytes.length - (Machine.run read { bytes := buffer } kinds).position.toNat := by
  obtain ⟨hvalid, hbytes⟩ := run_valid buffer kinds
  have hlength : (Machine.run read { bytes := buffer } kinds).bytes.bytes.length =
      buffer.bytes.length := congrArg (fun span => span.bytes.length) hbytes
  rw [← hlength]
  exact ⟨hvalid, toNat_remaining hvalid⟩

end Runs

end ByteReader

-- No cursor leaves its buffer, whatever calls are made. A call that fails says why and changes
-- nothing, and the buffer of a writer holds what was written before what it held.
theorem cursors_safe :
    (∀ (buffer : Span) (items : List Item),
      let writer := Machine.run ByteWriter.write { bytes := buffer } items
      writer.position.toNat ≤ buffer.bytes.length ∧
      writer.remaining.toNat = buffer.bytes.length - writer.position.toNat ∧
      writer.bytes.bytes =
        ByteWriter.written (Machine.transcript ByteWriter.write { bytes := buffer } items) ++
          buffer.bytes.drop writer.position.toNat ∧
      (∀ value, max_u48_value < value → writer.write (.u48 value) =
        (.error (Error.value_out_of_range writer.position value max_u48_value), writer)) ∧
      ∀ item, item.InRange →
        (item.kind.width.toNat ≤ writer.remaining.toNat → (writer.write item).1 = .ok ()) ∧
        (writer.remaining.toNat < item.kind.width.toNat → writer.write item = (.error
          (Error.write_past_end writer.position item.kind.width writer.remaining), writer))) ∧
    (∀ (buffer : Span) (kinds : List ItemKind),
      let reader := Machine.run ByteReader.read { bytes := buffer } kinds
      reader.position.toNat ≤ buffer.bytes.length ∧
      reader.remaining.toNat = buffer.bytes.length - reader.position.toNat ∧
      reader.bytes = buffer ∧
      ∀ kind,
        (kind.width.toNat ≤ reader.remaining.toNat → ∃ item, (reader.read kind).1 = .ok item) ∧
        (reader.remaining.toNat < kind.width.toNat → reader.read kind = (.error
          (Error.read_past_end reader.position kind.width reader.remaining), reader))) ∧
    ∀ (bytes : Span) (offset width : UInt64),
      (can_write bytes offset width ↔ offset.toNat + width.toNat ≤ bytes.bytes.length) ∧
      (can_read bytes offset width ↔ offset.toNat + width.toNat ≤ bytes.bytes.length) := by
  refine ⟨?_, ?_, fun bytes offset width => ⟨can_write_iff _ _ _, can_read_iff _ _ _⟩⟩
  · intro buffer items writer
    obtain ⟨hposition, hremaining⟩ : writer.position.toNat ≤ buffer.bytes.length ∧
        writer.remaining.toNat = buffer.bytes.length - writer.position.toNat :=
      ByteWriter.run_position_remaining buffer items
    have hlength : writer.bytes.bytes.length = buffer.bytes.length :=
      (ByteWriter.run_valid buffer items).2
    refine ⟨hposition, hremaining, ByteWriter.run_written buffer items,
      fun value => ByteWriter.write_out_of_range, ?_⟩
    intro item hrange
    refine ⟨fun hfits => ?_, fun hover => ?_⟩
    · exact (ByteWriter.write_wrote hrange (by omega)).result
    · exact ByteWriter.write_past_end hrange (by omega)
  · intro buffer kinds reader
    obtain ⟨hposition, hremaining⟩ : reader.position.toNat ≤ buffer.bytes.length ∧
        reader.remaining.toNat = buffer.bytes.length - reader.position.toNat :=
      ByteReader.run_position_remaining buffer kinds
    have hbytes : reader.bytes = buffer := (ByteReader.run_valid buffer kinds).2
    have hlength : reader.bytes.bytes.length = buffer.bytes.length := by rw [hbytes]
    refine ⟨hposition, hremaining, hbytes, ?_⟩
    intro kind
    refine ⟨fun hfits => ?_, fun hover => ?_⟩
    · rw [ByteReader.read_of_le (by omega)]
      exact ⟨_, rfl⟩
    · exact ByteReader.read_past_end (by omega)

section RoundTrip

variable (buffer : Span)

theorem all_written_iff (items : List Item) :
    (∀ entry ∈ Machine.transcript (Cursor.put itemFormat) ⟨[], buffer.bytes⟩ items,
      entry.2 = true) ↔
    ∀ entry ∈ Machine.transcript ByteWriter.write { bytes := buffer } items,
      entry.2 = .ok () := by
  rw [ByteWriter.transcript_view, List.forall_mem_map]
  refine forall₂_congr fun entry _ => ?_
  rcases entry with ⟨item, error | ok⟩
  · exact iff_of_false nofun nofun
  · exact iff_of_true rfl rfl

theorem all_read_iff (kinds : List ItemKind) (items : List Item) :
    (Machine.transcript (Cursor.get itemFormat) ⟨[], buffer.bytes⟩ kinds).map Prod.snd =
      items.map some ↔
    (Machine.transcript ByteReader.read { bytes := buffer } kinds).map Prod.snd =
      items.map .ok := by
  rw [ByteReader.transcript_view, List.map_map]
  generalize Machine.transcript ByteReader.read { bytes := buffer } kinds = entries
  induction entries generalizing items with
  | nil => cases items <;> simp
  | cons entry rest ih =>
    cases items with
    | nil => simp
    | cons item items =>
      rcases entry with ⟨kind, error | found⟩
      · simp [Except.toOption]
      · simpa [Except.toOption] using fun _ => ih items

-- The buffer of a run of the writer, as that of the cursor.
theorem run_content (items : List Item) :
    (Machine.run (Cursor.put itemFormat) ⟨[], buffer.bytes⟩ items).passed ++
      (Machine.run (Cursor.put itemFormat) ⟨[], buffer.bytes⟩ items).ahead =
        (Machine.run ByteWriter.write { bytes := buffer } items).bytes.bytes := by
  rw [ByteWriter.run_view, ByteWriter.view_content]

-- Cursors that have passed as much are at the same position.
theorem position_eq {reader : ByteReader} {writer : ByteWriter} (hreader : reader.Valid)
    (hwriter : writer.Valid) (hpassed : reader.view.passed = writer.view.passed) :
    reader.position = writer.position := by
  rw [← UInt64.toNat_inj, ← ByteReader.length_view_passed hreader,
    ← ByteWriter.length_view_passed hwriter, hpassed]

-- What was written is read back, and what was read can be written again.
theorem writes_read_back :
    (∀ (buffer : Span) (items : List Item),
      (∀ entry ∈ Machine.transcript ByteWriter.write { bytes := buffer } items,
        entry.2 = .ok ()) →
      let final := Machine.run ByteWriter.write { bytes := buffer } items
      (Machine.transcript ByteReader.read { bytes := final.bytes } (items.map Item.kind)).map
        Prod.snd = items.map .ok ∧
      ∀ before after, items = before ++ after →
        let writer := Machine.run ByteWriter.write { bytes := buffer } before
        let reader := Machine.run ByteReader.read { bytes := final.bytes } (before.map Item.kind)
        reader.position = writer.position ∧ reader.remaining = writer.remaining) ∧
    ∀ (buffer other : Span) (kinds : List ItemKind) (items : List Item),
      other.size = buffer.size →
      (Machine.transcript ByteReader.read { bytes := buffer } kinds).map Prod.snd =
        items.map .ok →
      let reader := Machine.run ByteReader.read { bytes := buffer } kinds
      let writer := Machine.run ByteWriter.write { bytes := other } items
      (∀ entry ∈ Machine.transcript ByteWriter.write { bytes := other } items,
        entry.2 = .ok ()) ∧
      writer.position = reader.position ∧
      writer.bytes.bytes.take writer.position.toNat =
        buffer.bytes.take reader.position.toNat := by
  constructor
  · intro buffer items hall final
    obtain ⟨hreads, hplaces⟩ :=
      Cursor.read_written buffer.bytes items ((all_written_iff buffer items).mpr hall)
    rw [run_content] at hreads hplaces
    refine ⟨(all_read_iff final.bytes _ items).mp hreads, ?_⟩
    intro before after hitems writer reader
    have hpassed : reader.view.passed = writer.view.passed := by
      rw [← ByteReader.run_view, ← ByteWriter.run_view]
      exact hplaces before after hitems
    have hreader := ByteReader.run_valid final.bytes (before.map Item.kind)
    have hwriter := ByteWriter.run_valid buffer before
    have hposition := position_eq hreader.1 hwriter.1 hpassed
    have hsize : reader.bytes.size = writer.bytes.size := by
      rw [← UInt64.toNat_inj, Span.toNat_size, Span.toNat_size, hreader.2, hwriter.2]
      exact (ByteWriter.run_valid buffer items).2
    refine ⟨hposition, ?_⟩
    unfold ByteReader.remaining ByteWriter.remaining
    rw [hposition, hsize]
  · intro buffer other kinds items hsize hreads reader writer
    have hlength : other.bytes.length = buffer.bytes.length := by
      rw [← Span.toNat_size, ← Span.toNat_size, hsize]
    obtain ⟨hall, hpassed⟩ := Cursor.write_read buffer.bytes other.bytes hlength kinds items
      ((all_read_iff buffer kinds items).mpr hreads)
    rw [ByteReader.run_view, ByteWriter.run_view] at hpassed
    have hreader := ByteReader.run_valid buffer kinds
    have hwriter := ByteWriter.run_valid other items
    refine ⟨(all_written_iff other items).mp hall,
      (position_eq hreader.1 hwriter.1 hpassed.symm).symm, ?_⟩
    refine hpassed.trans ?_
    unfold ByteReader.view
    rw [hreader.2]

end RoundTrip

end AegisFeed
