import AegisFeed.Library.Padding
import AegisFeed.Mold.Types

namespace AegisFeed

open Padding (trimmed)

-- What a session may be made of.
def SessionCharacter (character : UInt8) : Prop :=
  0x20 ≤ character ∧ character ≤ 0x7E

def SessionText (text : List UInt8) : Prop :=
  1 ≤ text.length ∧ text.length ≤ kMoldSessionSize ∧ ∀ character ∈ text, SessionCharacter character

theorem sessionCharacter_iff (character : UInt8) :
    SessionCharacter character ↔ ¬(character < 0x20 ∨ character > 0x7E) := by
  unfold SessionCharacter
  rw [not_or, UInt8.not_lt, gt_iff_lt, UInt8.not_lt]

section Loops

variable {character : UInt8} (index : Nat) (rest : List UInt8)

theorem invalid_character_of (h : SessionCharacter character) :
    invalid_character index (character :: rest) = invalid_character (index + 1) rest :=
  if_neg ((sessionCharacter_iff character).mp h)

theorem invalid_character_of_not (h : ¬SessionCharacter character) :
    invalid_character index (character :: rest) = some (index, character) := by
  rw [sessionCharacter_iff, not_not] at h
  exact if_pos h

theorem invalid_character_eq_none_iff (text : List UInt8) :
    invalid_character index text = none ↔ ∀ character ∈ text, SessionCharacter character := by
  induction text generalizing index with
  | nil => exact iff_of_true rfl nofun
  | cons first others ih =>
    rw [List.forall_mem_cons]
    by_cases hfirst : SessionCharacter first
    · rw [invalid_character_of _ _ hfirst, ih]
      exact (and_iff_right hfirst).symm
    · rw [invalid_character_of_not _ _ hfirst]
      exact iff_of_false nofun fun hall => hfirst hall.1

-- The loop fails at the first character that is not allowed.
theorem invalid_character_append {before : List UInt8}
    (hbefore : ∀ other ∈ before, SessionCharacter other) (h : ¬SessionCharacter character) :
    invalid_character index (before ++ character :: rest) =
      some (index + before.length, character) := by
  induction before generalizing index with
  | nil => exact invalid_character_of_not index rest h
  | cons first others ih =>
    rw [List.forall_mem_cons] at hbefore
    rw [List.cons_append, invalid_character_of _ _ hbefore.1, ih (index + 1) hbefore.2,
      List.length_cons, Nat.add_assoc, Nat.add_comm 1]

theorem toList_copy_characters (session : MoldSession) (text : List UInt8)
    (hfits : index + text.length ≤ kMoldSessionSize) :
    (copy_characters session index text).toList =
      session.toList.take index ++ text ++ session.toList.drop (index + text.length) := by
  induction text generalizing session index with
  | nil => simp [copy_characters]
  | cons first others ih =>
    rw [List.length_cons] at hfits
    have hlt : index < session.toList.length := by
      rw [Vector.length_toList]
      omega
    have htake : (session.toList.set index first).take (index + 1) =
        session.toList.take index ++ [first] := by
      rw [List.take_succ_eq_append_getElem (by rwa [List.length_set]),
        List.take_set_of_le (Nat.le_refl _), List.getElem_set_self]
    rw [copy_characters, ih _ _ (by omega), Vector.toList_setIfInBounds, htake,
      List.drop_set_of_lt (by omega), List.length_cons]
    simp only [List.append_assoc, List.singleton_append, Nat.add_assoc, Nat.add_comm 1]

end Loops

section Make

theorem make_mold_session_eq {text : List UInt8} (h : SessionText text) :
    ∃ session, make_mold_session text = .ok session ∧
      session.toList = text.rightpad kMoldSessionSize 0x20 := by
  obtain ⟨hleast, hmost, hall⟩ := h
  have hlength : ¬(text = [] ∨ text.length > kMoldSessionSize) := by
    rintro (rfl | hover)
    · cases hleast
    · omega
  have hnone := (invalid_character_eq_none_iff 0 text).mpr hall
  unfold make_mold_session
  rw [if_neg hlength, hnone]
  refine ⟨_, rfl, ?_⟩
  rw [toList_copy_characters _ _ _ (by omega)]
  simp [List.rightpad]

theorem make_mold_session_of_length {text : List UInt8}
    (h : text.length = 0 ∨ kMoldSessionSize < text.length) :
    make_mold_session text =
      .error (Error.invalid_session_length (.ofNat text.length) (.ofNat kMoldSessionSize)) := by
  rw [List.length_eq_zero_iff] at h
  exact if_pos h

theorem make_mold_session_of_character {before after : List UInt8} {character : UInt8}
    (hlength : (before ++ character :: after).length ≤ kMoldSessionSize)
    (hbefore : ∀ other ∈ before, SessionCharacter other) (h : ¬SessionCharacter character) :
    make_mold_session (before ++ character :: after) =
      .error (Error.invalid_session_character (.ofNat before.length) character) := by
  have hfits : ¬(before ++ character :: after = [] ∨
      (before ++ character :: after).length > kMoldSessionSize) := by
    rw [not_or, Nat.not_lt]
    exact ⟨by simp, hlength⟩
  unfold make_mold_session
  rw [if_neg hfits, invalid_character_append 0 after hbefore h, Nat.zero_add]

theorem make_mold_session_ok_iff (text : List UInt8) :
    (∃ session, make_mold_session text = .ok session) ↔ SessionText text := by
  constructor
  · rintro ⟨session, hmake⟩
    unfold make_mold_session at hmake
    split_ifs at hmake with hlength
    rw [not_or, Nat.not_lt] at hlength
    cases hinvalid : invalid_character 0 text with
    | none =>
      exact ⟨List.length_pos_iff.mpr hlength.1, hlength.2,
        (invalid_character_eq_none_iff 0 text).mp hinvalid⟩
    | some failure =>
      rw [hinvalid] at hmake
      cases hmake
  · intro htext
    obtain ⟨session, hmake, -⟩ := make_mold_session_eq htext
    exact ⟨session, hmake⟩

-- The session of a text is the text padded to ten bytes.
theorem toList_of_make {text : List UInt8} {session : MoldSession}
    (hmake : make_mold_session text = .ok session) :
    SessionText text ∧ session.toList = text.rightpad kMoldSessionSize 0x20 := by
  have htext := (make_mold_session_ok_iff text).mp ⟨session, hmake⟩
  obtain ⟨other, hother, hpadded⟩ := make_mold_session_eq htext
  cases hmake.symm.trans hother
  exact ⟨htext, hpadded⟩

end Make

section Format

theorem display_size_eq (session : MoldSession) (size : Nat) :
    display_size session size = Padding.scan 0x20 session.toList size := by
  induction size with
  | zero => rfl
  | succ size ih => rw [display_size, Padding.scan, ih, Vector.getElem?_toList]

-- The display of a session is the session without the spaces on the right.
theorem view_format_mold_session (session : MoldSession) :
    (format_mold_session session).view = trimmed 0x20 session.toList := by
  have hlength : session.toList.length = kMoldSessionSize := session.length_toList
  rw [← Padding.take_scan_length, hlength, ← display_size_eq]
  rfl

theorem rightpad_view (session : MoldSession) :
    (format_mold_session session).view.rightpad kMoldSessionSize 0x20 = session.toList := by
  rw [view_format_mold_session]
  exact Padding.rightpad_trimmed 0x20 session.length_toList

end Format

-- Texts and sessions correspond up to spaces on the right.
theorem mold_session_text :
    (∀ text, (∃ session, make_mold_session text = .ok session) ↔
      1 ≤ text.length ∧ text.length ≤ kMoldSessionSize ∧
        ∀ character ∈ text, SessionCharacter character) ∧
    (∀ text, text.length = 0 ∨ kMoldSessionSize < text.length →
      make_mold_session text =
        .error (Error.invalid_session_length (.ofNat text.length) (.ofNat kMoldSessionSize))) ∧
    (∀ before character after, (before ++ character :: after).length ≤ kMoldSessionSize →
      (∀ other ∈ before, SessionCharacter other) → ¬SessionCharacter character →
      make_mold_session (before ++ character :: after) =
        .error (Error.invalid_session_character (.ofNat before.length) character)) ∧
    (∀ text session, make_mold_session text = .ok session →
      (format_mold_session session).view = trimmed 0x20 text) ∧
    (∀ text text' session session', make_mold_session text = .ok session →
      make_mold_session text' = .ok session' →
      (session = session' ↔ trimmed 0x20 text = trimmed 0x20 text')) ∧
    (∀ session, (format_mold_session session).view.rightpad kMoldSessionSize 0x20 =
      session.toList) ∧
    (fun session => (format_mold_session session).view).Injective ∧
    ∀ session : MoldSession, (∀ character ∈ session.toList, SessionCharacter character) →
      (∃ character ∈ session.toList, character ≠ 0x20) →
      make_mold_session (format_mold_session session).view = .ok session := by
  refine ⟨make_mold_session_ok_iff, fun _ => make_mold_session_of_length,
    fun _ _ _ => make_mold_session_of_character, ?_, ?_, rightpad_view, ?_, ?_⟩
  · intro text session hmake
    rw [view_format_mold_session, (toList_of_make hmake).2, Padding.trimmed_rightpad]
  · intro text text' session session' hmake hmake'
    obtain ⟨htext, hsession⟩ := toList_of_make hmake
    obtain ⟨htext', hsession'⟩ := toList_of_make hmake'
    rw [← Vector.toList_inj, hsession, hsession']
    exact Padding.rightpad_eq_iff 0x20 htext.2.1 htext'.2.1
  · intro session session' hview
    dsimp only at hview
    rw [← Vector.toList_inj, ← rightpad_view session, ← rightpad_view session', hview]
  · intro session hprintable hsome
    have hview : (format_mold_session session).view = trimmed 0x20 session.toList :=
      view_format_mold_session session
    have htext : SessionText (format_mold_session session).view := by
      rw [hview]
      refine ⟨?_, ?_, fun character hmem => hprintable character ?_⟩
      · rw [Nat.one_le_iff_ne_zero, ne_eq, List.length_eq_zero_iff, Padding.trimmed_eq_nil_iff,
          not_not]
        exact hsome
      · exact (Padding.trimmed_prefix 0x20 _).length_le.trans_eq session.length_toList
      · exact (Padding.trimmed_prefix 0x20 _).subset hmem
    obtain ⟨other, hmake, hother⟩ := make_mold_session_eq htext
    rw [rightpad_view, Vector.toList_inj] at hother
    rw [hmake, hother]

end AegisFeed
