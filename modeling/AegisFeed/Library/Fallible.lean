import Mathlib.Data.List.Basic

namespace Fallible

-- Loops over a list whose body can fail.
variable {ε α β : Type}

theorem bind_eq_ok {step : Except ε α} {next : α → Except ε β} {result : β} :
    (step >>= next) = .ok result ↔ ∃ value, step = .ok value ∧ next value = .ok result := by
  cases step with
  | error error => exact ⟨nofun, fun ⟨_, h, _⟩ => nomatch h⟩
  | ok value =>
    constructor
    · intro h
      exact ⟨value, rfl, h⟩
    · rintro ⟨_, h, hnext⟩
      cases h
      exact hnext

-- A guard that fails when its condition holds.
theorem guard_ok_iff {guard : Prop} [Decidable guard] {error : ε} {rest : Except ε α}
    {result : α} :
    (if guard then .error error else rest) = .ok result ↔ ¬guard ∧ rest = .ok result := by
  by_cases hguard : guard
  · simp [hguard]
  · simp [hguard]

theorem seq_ok_iff {step : Except ε PUnit} {next : Except ε β} {result : β} :
    (step >>= fun _ => next) = .ok result ↔ step = .ok () ∧ next = .ok result := by
  rw [bind_eq_ok]
  constructor
  · rintro ⟨_, hstep, hnext⟩
    exact ⟨hstep, hnext⟩
  · rintro ⟨hstep, hnext⟩
    exact ⟨(), hstep, hnext⟩

theorem forM_ok_iff {body : α → Except ε PUnit} {list : List α} :
    list.forM body = .ok () ↔ ∀ element ∈ list, body element = .ok () := by
  induction list with
  | nil => exact ⟨fun _ => List.forall_mem_nil _, fun _ => rfl⟩
  | cons element rest ih =>
    rw [List.forall_mem_cons, ← ih]
    exact seq_ok_iff

theorem mapM_ok {body : α → Except ε β} {value : α → β} {list : List α}
    (h : ∀ element ∈ list, body element = .ok (value element)) :
    list.mapM body = .ok (list.map value) := by
  induction list with
  | nil => rfl
  | cons element rest ih =>
    have hrest := ih fun other hother => h other (List.mem_cons_of_mem _ hother)
    rw [List.mapM_cons, h element List.mem_cons_self, hrest]
    rfl

theorem exists_mapM_ok {body : α → Except ε β} {list : List α}
    (h : ∀ element ∈ list, ∃ result, body element = .ok result) :
    ∃ results, list.mapM body = .ok results := by
  induction list with
  | nil => exact ⟨[], rfl⟩
  | cons element rest ih =>
    obtain ⟨result, hresult⟩ := h element List.mem_cons_self
    obtain ⟨results, hresults⟩ := ih fun other hother => h other (List.mem_cons_of_mem _ hother)
    refine ⟨result :: results, ?_⟩
    rw [List.mapM_cons, hresult, hresults]
    rfl

-- A loop that succeeds has pointwise results.
theorem mapM_cons_eq_ok {body : α → Except ε β} {element : α} {rest : List α}
    {results : List β} :
    (element :: rest).mapM body = .ok results ↔
      ∃ result tail, body element = .ok result ∧ rest.mapM body = .ok tail ∧
        results = result :: tail := by
  rw [List.mapM_cons, bind_eq_ok]
  constructor
  · rintro ⟨result, hresult, hrest⟩
    obtain ⟨tail, htail, heq⟩ := bind_eq_ok.mp hrest
    exact ⟨result, tail, hresult, htail, (Except.ok.inj heq).symm⟩
  · rintro ⟨result, tail, hresult, htail, rfl⟩
    refine ⟨result, hresult, ?_⟩
    rw [htail]
    rfl

end Fallible
