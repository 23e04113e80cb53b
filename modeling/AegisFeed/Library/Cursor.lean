import AegisFeed.Library.Machine
import Mathlib.Data.List.Basic

namespace Cursor

-- A buffer with a place in it: what is behind the place, and what is ahead of it.
structure State (β : Type*) where
  passed : List β
  ahead : List β

-- Items of several kinds. All items of a kind have one width; a value may have no encoding.
structure Format (ι κ β : Type*) where
  kind : ι → κ
  width : κ → Nat
  encode : ι → Option (List β)
  decode : κ → List β → ι
  length_encode : ∀ {item elements}, encode item = some elements →
    elements.length = width (kind item)
  decode_encode : ∀ {item elements}, encode item = some elements →
    decode (kind item) elements = item
  kind_decode : ∀ {sort elements}, elements.length = width sort →
    kind (decode sort elements) = sort
  encode_decode : ∀ {sort elements}, elements.length = width sort →
    encode (decode sort elements) = some elements

variable {ι κ β : Type*} (format : Format ι κ β)

-- Writes an item over what is ahead, if there is room.
def put (state : State β) (item : ι) : Bool × State β :=
  match format.encode item with
  | none => (false, state)
  | some elements =>
    if elements.length ≤ state.ahead.length then
      (true, ⟨state.passed ++ elements, state.ahead.drop elements.length⟩)
    else (false, state)

-- Reads an item of a kind, if enough is ahead.
def get (state : State β) (sort : κ) : Option ι × State β :=
  if format.width sort ≤ state.ahead.length then
    (some (format.decode sort (state.ahead.take (format.width sort))),
      ⟨state.passed ++ state.ahead.take (format.width sort),
        state.ahead.drop (format.width sort)⟩)
  else (none, state)

-- The elements that items are written as, one after the other.
inductive Encodes : List ι → List β → Prop
  | nil : Encodes [] []
  | cons {item : ι} {elements : List β} {rest : List ι} {more : List β}
      (first : format.encode item = some elements) (others : Encodes rest more) :
      Encodes (item :: rest) (elements ++ more)

variable {format}

theorem Encodes.split {first second : List ι} {elements : List β}
    (h : Encodes format (first ++ second) elements) :
    ∃ before after, elements = before ++ after ∧ Encodes format first before ∧
      Encodes format second after := by
  induction first generalizing elements with
  | nil => exact ⟨[], elements, rfl, .nil, h⟩
  | cons item rest ih =>
    cases h with
    | cons head others =>
      obtain ⟨before, after, rfl, hbefore, hafter⟩ := ih others
      exact ⟨_, after, (List.append_assoc _ _ _).symm, .cons head hbefore, hafter⟩

section Put

theorem put_of_fits {state : State β} {item : ι} {elements : List β}
    (hencode : format.encode item = some elements)
    (hfits : elements.length ≤ state.ahead.length) :
    put format state item =
      (true, ⟨state.passed ++ elements, state.ahead.drop elements.length⟩) := by
  unfold put
  simp only [hencode, if_pos hfits]

-- A write is refused and changes nothing, or it writes the item.
theorem put_cases (format : Format ι κ β) (state : State β) (item : ι) :
    put format state item = (false, state) ∨
      ∃ elements, format.encode item = some elements ∧ elements.length ≤ state.ahead.length ∧
        put format state item =
          (true, ⟨state.passed ++ elements, state.ahead.drop elements.length⟩) := by
  cases hencode : format.encode item with
  | none =>
    left
    unfold put
    simp only [hencode]
  | some elements =>
    by_cases hfits : elements.length ≤ state.ahead.length
    · exact .inr ⟨elements, rfl, hfits, put_of_fits hencode hfits⟩
    · left
      unfold put
      simp only [hencode, if_neg hfits]

-- After any writes, refused ones among them, the buffer begins with the items that were
-- written, and what is ahead is as it was.
theorem run_put (format : Format ι κ β) (state : State β) (items : List ι) : ∃ elements,
    Encodes format (((Machine.transcript (put format) state items).filter Prod.snd).map Prod.fst)
      elements ∧
    elements.length ≤ state.ahead.length ∧
    Machine.run (put format) state items =
      ⟨state.passed ++ elements, state.ahead.drop elements.length⟩ := by
  induction items generalizing state with
  | nil => exact ⟨[], .nil, Nat.zero_le _, by simp⟩
  | cons item rest ih =>
    rw [Machine.transcript_cons, Machine.run_cons]
    rcases put_cases format state item with hput | ⟨elements, hencode, hfits, hput⟩
    · rw [hput]
      exact ih state
    · rw [hput]
      obtain ⟨more, hmore, hroom, hrun⟩ := ih ⟨state.passed ++ elements, _⟩
      dsimp only at hroom hrun
      rw [List.length_drop] at hroom
      refine ⟨elements ++ more, ?_, ?_, ?_⟩
      · rw [List.filter_cons_of_pos rfl]
        exact .cons hencode hmore
      · rw [List.length_append]
        omega
      · rw [hrun, List.append_assoc, List.drop_drop, List.length_append]

-- All of the items are written when they have encodings and room.
theorem puts_iff (state : State β) (items : List ι) :
    (∀ entry ∈ Machine.transcript (put format) state items, entry.2 = true) ↔
      ∃ elements, Encodes format items elements ∧ elements.length ≤ state.ahead.length := by
  constructor
  · intro hall
    obtain ⟨elements, hencodes, hroom, -⟩ := run_put format state items
    rw [List.filter_eq_self.mpr hall, Machine.transcript_inputs] at hencodes
    exact ⟨elements, hencodes, hroom⟩
  · rintro ⟨elements, hencodes, hroom⟩
    induction hencodes generalizing state with
    | nil => exact nofun
    | cons head others ih =>
      rw [List.length_append] at hroom
      rw [Machine.transcript_cons, List.forall_mem_cons, put_of_fits head (by omega)]
      refine ⟨rfl, ih _ ?_⟩
      rw [List.length_drop]
      omega

theorem run_puts {state : State β} {items : List ι} {elements : List β}
    (hencodes : Encodes format items elements) (hroom : elements.length ≤ state.ahead.length) :
    Machine.run (put format) state items =
      ⟨state.passed ++ elements, state.ahead.drop elements.length⟩ := by
  induction hencodes generalizing state with
  | nil => simp
  | cons head others ih =>
    rw [List.length_append] at hroom
    rw [Machine.run_cons, put_of_fits head (by omega), ih (by rw [List.length_drop]; omega),
      List.append_assoc, List.drop_drop, List.length_append]

end Put

section Get

theorem get_of_encode {item : ι} {elements : List β} (hencode : format.encode item = some elements)
    (passed rest : List β) :
    get format ⟨passed, elements ++ rest⟩ (format.kind item) =
      (some item, ⟨passed ++ elements, rest⟩) := by
  have hlength := format.length_encode hencode
  have hfits : format.width (format.kind item) ≤ (elements ++ rest).length := by
    rw [List.length_append]
    omega
  unfold get
  rw [if_pos hfits, ← hlength, List.take_left, List.drop_left, format.decode_encode hencode]

theorem get_eq_some {state after : State β} {sort : κ} {item : ι}
    (hget : get format state sort = (some item, after)) : ∃ elements rest,
      format.kind item = sort ∧ format.encode item = some elements ∧
      state.ahead = elements ++ rest ∧ after = ⟨state.passed ++ elements, rest⟩ := by
  unfold get at hget
  split_ifs at hget with hfits
  · have hlength : (state.ahead.take (format.width sort)).length = format.width sort := by
      rw [List.length_take]
      omega
    cases hget
    exact ⟨_, _, format.kind_decode hlength, format.encode_decode hlength,
      (List.take_append_drop _ _).symm, rfl⟩
  · cases hget

-- Reads of given kinds succeed with given items when these are what is ahead.
theorem gets_iff (state : State β) (sorts : List κ) (items : List ι) :
    (Machine.transcript (get format) state sorts).map Prod.snd = items.map some ↔
      ∃ elements rest, items.map format.kind = sorts ∧ Encodes format items elements ∧
        state.ahead = elements ++ rest := by
  constructor
  · intro hreads
    induction sorts generalizing state items with
    | nil =>
      cases items with
      | nil => exact ⟨[], state.ahead, rfl, .nil, rfl⟩
      | cons item rest => cases hreads
    | cons sort sorts ih =>
      cases items with
      | nil => cases hreads
      | cons item items =>
        rw [Machine.transcript_cons, List.map_cons, List.map_cons, List.cons.injEq] at hreads
        obtain ⟨hfirst, hothers⟩ := hreads
        have hget : get format state sort = (some item, (get format state sort).2) :=
          Prod.ext hfirst rfl
        obtain ⟨elements, rest, rfl, hencode, hahead, hafter⟩ := get_eq_some hget
        rw [hafter] at hothers
        obtain ⟨more, rest', hkinds, hencodes, hmore⟩ := ih _ _ hothers
        dsimp only at hmore
        refine ⟨elements ++ more, rest', congrArg _ hkinds, .cons hencode hencodes, ?_⟩
        rw [hahead, hmore, List.append_assoc]
  · rintro ⟨elements, rest, rfl, hencodes, hahead⟩
    induction hencodes generalizing state with
    | nil => rfl
    | cons head others ih =>
      obtain ⟨passed, ahead⟩ := state
      dsimp only at hahead
      rw [hahead, List.append_assoc, List.map_cons, Machine.transcript_cons,
        get_of_encode head]
      exact congrArg _ (ih _ rfl)

theorem run_gets {items : List ι} {elements : List β} (hencodes : Encodes format items elements)
    (passed rest : List β) :
    Machine.run (get format) ⟨passed, elements ++ rest⟩ (items.map format.kind) =
      ⟨passed ++ elements, rest⟩ := by
  induction hencodes generalizing passed with
  | nil => simp
  | cons head others ih =>
    rw [List.append_assoc, List.map_cons, Machine.run_cons, get_of_encode head, ih,
      List.append_assoc]

end Get

-- What was written in full is read back, and both are at the same place after each item.
theorem read_written (buffer : List β) (items : List ι)
    (hall : ∀ entry ∈ Machine.transcript (put format) ⟨[], buffer⟩ items, entry.2 = true) :
    let final := Machine.run (put format) ⟨[], buffer⟩ items
    let start : State β := ⟨[], final.passed ++ final.ahead⟩
    (Machine.transcript (get format) start (items.map format.kind)).map Prod.snd =
      items.map some ∧
    ∀ before after, items = before ++ after →
      (Machine.run (get format) start (before.map format.kind)).passed =
        (Machine.run (put format) ⟨[], buffer⟩ before).passed := by
  obtain ⟨elements, hencodes, hroom⟩ := (puts_iff _ _).mp hall
  dsimp only
  rw [run_puts hencodes hroom, List.nil_append]
  refine ⟨(gets_iff _ _ _).mpr ⟨elements, _, rfl, hencodes, rfl⟩, ?_⟩
  rintro before after rfl
  obtain ⟨first, second, rfl, hfirst, -⟩ := hencodes.split
  rw [List.length_append] at hroom
  rw [run_puts hfirst (Nat.le_trans (Nat.le_add_right _ _) hroom), List.append_assoc,
    run_gets hfirst]

-- What was read can be written to a buffer of the same length, and is the same there.
theorem write_read (buffer other : List β) (hlength : other.length = buffer.length)
    (sorts : List κ) (items : List ι)
    (hreads : (Machine.transcript (get format) ⟨[], buffer⟩ sorts).map Prod.snd =
      items.map some) :
    (∀ entry ∈ Machine.transcript (put format) ⟨[], other⟩ items, entry.2 = true) ∧
      (Machine.run (put format) ⟨[], other⟩ items).passed =
        (Machine.run (get format) ⟨[], buffer⟩ sorts).passed := by
  obtain ⟨elements, rest, rfl, hencodes, hbuffer⟩ := (gets_iff _ _ _).mp hreads
  dsimp only at hbuffer
  have hroom : elements.length ≤ other.length := by
    rw [hlength, hbuffer, List.length_append]
    omega
  refine ⟨(puts_iff _ _).mpr ⟨elements, hencodes, hroom⟩, ?_⟩
  rw [run_puts hencodes hroom, hbuffer, run_gets hencodes]

end Cursor
