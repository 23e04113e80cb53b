import Mathlib.Data.Set.Insert

namespace Registry

-- Entries of keys and values that come one after another. A key keeps its first value,
-- and a value that is exclusive keeps its first key.
variable {κ ν : Type*} (exclusive : ν → Prop)

def Compatible (first second : κ × ν) : Prop :=
  (first.1 = second.1 → first.2 = second.2) ∧
    (first.2 = second.2 → exclusive first.2 → first.1 = second.1)

def Consistent (entries : Set (κ × ν)) : Prop :=
  ∀ first ∈ entries, ∀ second ∈ entries, Compatible exclusive first second

-- An entry is compared with those before it only.
def Accepts (entries : Set (κ × ν)) (entry : κ × ν) : Prop :=
  ∀ other ∈ entries, Compatible exclusive other entry

def AcceptsAll : Set (κ × ν) → List (κ × ν) → Prop
  | _, [] => True
  | entries, entry :: rest =>
    Accepts exclusive entries entry ∧ AcceptsAll (insert entry entries) rest

variable {exclusive}

theorem Compatible.refl (entry : κ × ν) : Compatible exclusive entry entry :=
  ⟨fun _ => rfl, fun _ _ => rfl⟩

theorem Compatible.symm {first second : κ × ν} (h : Compatible exclusive first second) :
    Compatible exclusive second first :=
  ⟨fun hkey => (h.1 hkey.symm).symm, fun hvalue hexclusive =>
    (h.2 hvalue.symm (hvalue ▸ hexclusive)).symm⟩

-- With fewer exclusive values more is accepted.
theorem Accepts.mono {fewer : ν → Prop} (hfewer : ∀ value, fewer value → exclusive value)
    {entries : Set (κ × ν)} {entry : κ × ν} (h : Accepts exclusive entries entry) :
    Accepts fewer entries entry :=
  fun other hother => ⟨(h other hother).1, fun hvalue hexclusive =>
    (h other hother).2 hvalue (hfewer _ hexclusive)⟩

theorem consistent_insert_iff {entries : Set (κ × ν)} {entry : κ × ν} :
    Consistent exclusive (insert entry entries) ↔
      Consistent exclusive entries ∧ Accepts exclusive entries entry := by
  constructor
  · intro h
    exact ⟨fun first hfirst second hsecond => h first (Or.inr hfirst) second (Or.inr hsecond),
      fun other hother => h other (Or.inr hother) entry (Or.inl rfl)⟩
  · rintro ⟨hentries, hentry⟩ first (rfl | hfirst) second (rfl | hsecond)
    · exact .refl _
    · exact (hentry second hsecond).symm
    · exact hentry first hfirst
    · exact hentries first hfirst second hsecond

-- Checking each entry against those before it checks all of them, in whatever order
-- they come.
theorem acceptsAll_iff {entries : Set (κ × ν)} (hentries : Consistent exclusive entries)
    (list : List (κ × ν)) :
    AcceptsAll exclusive entries list ↔
      Consistent exclusive (entries ∪ {entry | entry ∈ list}) := by
  induction list generalizing entries with
  | nil => simpa [AcceptsAll] using hentries
  | cons entry rest ih =>
    have hunion : entries ∪ {other | other ∈ entry :: rest} =
        insert entry entries ∪ {other | other ∈ rest} := by
      ext other
      simp only [List.mem_cons, Set.mem_union, Set.mem_ofPred_eq, Set.mem_insert_iff]
      exact or_left_comm.trans or_assoc.symm
    unfold AcceptsAll
    rw [hunion]
    constructor
    · rintro ⟨hentry, hrest⟩
      exact (ih (consistent_insert_iff.mpr ⟨hentries, hentry⟩)).mp hrest
    · intro h
      have hentry : Consistent exclusive (insert entry entries) :=
        fun first hfirst second hsecond => h first (Or.inl hfirst) second (Or.inl hsecond)
      exact ⟨(consistent_insert_iff.mp hentry).2, (ih hentry).mpr h⟩

end Registry
