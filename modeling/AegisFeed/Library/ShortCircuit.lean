import Mathlib.Data.List.Basic

namespace ShortCircuit

-- Chains of steps over one state that stop at the first step that fails, and what
-- they report.
variable {σ ε α β : Type}

-- The report of a chain is made from the state that its failed step leaves.
def orFail (failure : σ → ε) (steps : OptionT (StateM σ) α) : ExceptT ε (StateM σ) α :=
  fun state =>
    match steps state with
    | (some value, state) => (.ok value, state)
    | (none, state) => (.error (failure state), state)

def failIf (condition : Prop) [Decidable condition] (error : ε) : ExceptT ε (StateM σ) Unit :=
  if condition then throw error else pure ()

theorem orFail_bind (failure : σ → ε) (step : OptionT (StateM σ) α)
    (next : α → OptionT (StateM σ) β) :
    orFail failure (step >>= next) =
      orFail failure step >>= fun value => orFail failure (next value) := by
  funext state
  simp only [bind, OptionT.bind, OptionT.mk, StateT.bind, ExceptT.bind, ExceptT.mk, orFail]
  rcases step state with ⟨_ | value, after⟩ <;> rfl

-- The value, or the first fault.
def verdict (faults : List ε) (value : α) : Except ε α :=
  match faults with
  | [] => .ok value
  | fault :: _ => .error fault

theorem verdict_eq_ok_iff {faults : List ε} {value result : α} :
    verdict faults value = .ok result ↔ faults = [] ∧ value = result := by
  cases faults with
  | nil => simp [verdict]
  | cons fault rest => simp [verdict]

theorem verdict_eq_error_iff {faults : List ε} {value : α} {error : ε} :
    verdict faults value = .error error ↔ faults.head? = some error := by
  cases faults with
  | nil => simp [verdict]
  | cons fault rest => simp [verdict]

-- One check, and the fault it finds.
def fault (violated : Prop) [Decidable violated] (error : ε) : List ε :=
  if violated then [error] else []

theorem verdict_fault_append (violated : Prop) [Decidable violated] (error : ε)
    (rest : List ε) (value : α) :
    verdict (fault violated error ++ rest) value =
      if violated then .error error else verdict rest value := by
  by_cases h : violated
  · rw [fault, if_pos h, if_pos h]
    rfl
  · rw [fault, if_neg h, if_neg h, List.nil_append]

theorem verdict_fault (violated : Prop) [Decidable violated] (error : ε) (value : α) :
    verdict (fault violated error) value = if violated then .error error else .ok value := by
  rw [← List.append_nil (fault violated error), verdict_fault_append]
  rfl

-- What a run from a state does, given the faults of what it reads: without one it
-- yields the value and the state after it, else it reports the first.
def Outcome (run : ExceptT ε (StateM σ) α) (before after : σ) (faults : List ε)
    (value : α) : Prop :=
  match faults with
  | [] => run before = (.ok value, after)
  | fault :: _ => (run before).1 = .error fault

section Rules

variable {before middle after : σ} {faults faults' : List ε} {value : α} {result : β}

theorem Outcome.pure (state : σ) (value : α) :
    Outcome (Pure.pure value : ExceptT ε (StateM σ) α) state state [] value := rfl

theorem Outcome.bind {run : ExceptT ε (StateM σ) α} {next : α → ExceptT ε (StateM σ) β}
    (hfirst : Outcome run before middle faults value)
    (hnext : Outcome (next value) middle after faults' result) :
    Outcome (run >>= next) before after (faults ++ faults') result := by
  cases faults with
  | nil =>
    have hrun : (run >>= next) before = next value middle := by
      have hfirst' : run before = (.ok value, middle) := hfirst
      simp only [Bind.bind, ExceptT.bind, ExceptT.mk, StateT.bind]
      rw [hfirst']
      rfl
    unfold Outcome
    rw [hrun]
    exact hnext
  | cons fault rest =>
    have hfail : (run before).1 = .error fault := hfirst
    show ((run >>= next) before).1 = .error fault
    simp only [Bind.bind, ExceptT.bind, ExceptT.mk, StateT.bind]
    rw [show run before = (.error fault, (run before).2) from Prod.ext hfail rfl]
    rfl

theorem Outcome.bind_pure {run : ExceptT ε (StateM σ) α} {f : α → β}
    (h : Outcome run before after faults value) :
    Outcome (run >>= fun value => Pure.pure (f value)) before after faults (f value) := by
  rw [← List.append_nil faults]
  exact h.bind (Outcome.pure after (f value))

theorem Outcome.failIf (state : σ) (condition : Prop) [Decidable condition] (error : ε) :
    Outcome (ShortCircuit.failIf condition error) state state
      (if condition then [error] else []) () := by
  unfold ShortCircuit.failIf
  split_ifs <;> rfl

theorem Outcome.orFail_bind {failure : σ → ε} {step : OptionT (StateM σ) α}
    {next : α → OptionT (StateM σ) β}
    (hstep : Outcome (orFail failure step) before middle faults value)
    (hnext : Outcome (orFail failure (next value)) middle after faults' result) :
    Outcome (orFail failure (step >>= next)) before after (faults ++ faults') result := by
  rw [ShortCircuit.orFail_bind]
  exact hstep.bind hnext

theorem Outcome.orFail_bind_pure {failure : σ → ε} {step : OptionT (StateM σ) α} {f : α → β}
    (hstep : Outcome (orFail failure step) before after faults value) :
    Outcome (orFail failure (step >>= fun value => Pure.pure (f value))) before after faults
      (f value) := by
  rw [ShortCircuit.orFail_bind]
  exact hstep.bind_pure

-- A first step that has no faults.
theorem Outcome.bind_of_nil {run : ExceptT ε (StateM σ) α} {next : α → ExceptT ε (StateM σ) β}
    (hfirst : Outcome run before middle [] value)
    (hnext : Outcome (next value) middle after faults' result) :
    Outcome (run >>= next) before after faults' result :=
  hfirst.bind hnext

theorem Outcome.orFail_bind_of_nil {failure : σ → ε} {step : OptionT (StateM σ) α}
    {next : α → OptionT (StateM σ) β}
    (hstep : Outcome (orFail failure step) before middle [] value)
    (hnext : Outcome (orFail failure (next value)) middle after faults' result) :
    Outcome (orFail failure (step >>= next)) before after faults' result :=
  hstep.orFail_bind hnext

-- The rules of a chain that more code follows.
section Continued

variable {γ : Type} {failure : σ → ε} {step : OptionT (StateM σ) α} {output : γ}
  {rest : β → ExceptT ε (StateM σ) γ}

theorem Outcome.orFail_bind_then {next : α → OptionT (StateM σ) β}
    (hstep : Outcome (orFail failure step) before middle faults value)
    (hnext : Outcome (orFail failure (next value) >>= rest) middle after faults' output) :
    Outcome (orFail failure (step >>= next) >>= rest) before after (faults ++ faults') output := by
  rw [ShortCircuit.orFail_bind, bind_assoc]
  exact hstep.bind hnext

theorem Outcome.orFail_bind_then_of_nil {next : α → OptionT (StateM σ) β}
    (hstep : Outcome (orFail failure step) before middle [] value)
    (hnext : Outcome (orFail failure (next value) >>= rest) middle after faults' output) :
    Outcome (orFail failure (step >>= next) >>= rest) before after faults' output :=
  hstep.orFail_bind_then hnext

theorem Outcome.orFail_bind_pure_then {f : α → β}
    (hstep : Outcome (orFail failure step) before middle [] value)
    (hnext : Outcome (rest (f value)) middle after faults' output) :
    Outcome (orFail failure (step >>= fun value => Pure.pure (f value)) >>= rest) before after
      faults' output :=
  hstep.orFail_bind_pure.bind hnext

end Continued

theorem Outcome.of_some {step : OptionT (StateM σ) α} (failure : σ → ε)
    (h : step before = (some value, after)) :
    Outcome (orFail failure step) before after [] value := by
  show orFail failure step before = (.ok value, after)
  rw [orFail, h]

theorem Outcome.of_none {step : OptionT (StateM σ) α} (failure : σ → ε)
    (h : step before = (none, after)) (later : σ) (rest : List ε) (value : α) :
    Outcome (orFail failure step) before later (failure after :: rest) value := by
  show (orFail failure step before).1 = .error (failure after)
  rw [orFail, h]

theorem Outcome.eq_verdict {run : ExceptT ε (StateM σ) α}
    (h : Outcome run before after faults value) : (run before).1 = verdict faults value := by
  cases faults with
  | nil => exact congrArg Prod.fst h
  | cons fault rest => exact h

end Rules

end ShortCircuit
