import Mathlib.Data.Nat.Basic
import Mathlib.Data.Option.Basic

namespace Machine

variable {σ ι ο : Type*}

-- The state after a sequence of inputs.
def run (step : σ → ι → ο × σ) : σ → List ι → σ
  | state, [] => state
  | state, input :: rest => run step (step state input).2 rest

-- Every input of the sequence with the response it got.
def transcript (step : σ → ι → ο × σ) : σ → List ι → List (ι × ο)
  | _, [] => []
  | state, input :: rest =>
    (input, (step state input).1) :: transcript step (step state input).2 rest

-- The sum of a measure of the steps over a sequence of inputs.
def accumulated (step : σ → ι → ο × σ) (measure : σ → ι → Nat) : σ → List ι → Nat
  | _, [] => 0
  | state, input :: rest =>
    measure state input + accumulated step measure (step state input).2 rest

@[simp] theorem run_nil (step : σ → ι → ο × σ) (state : σ) : run step state [] = state := rfl

@[simp] theorem run_cons (step : σ → ι → ο × σ) (state : σ) (input : ι) (rest : List ι) :
    run step state (input :: rest) = run step (step state input).2 rest := rfl

@[simp] theorem transcript_nil (step : σ → ι → ο × σ) (state : σ) :
    transcript step state [] = [] := rfl

@[simp] theorem transcript_cons (step : σ → ι → ο × σ) (state : σ) (input : ι)
    (rest : List ι) :
    transcript step state (input :: rest) =
      (input, (step state input).1) :: transcript step (step state input).2 rest := rfl

@[simp] theorem transcript_inputs (step : σ → ι → ο × σ) (state : σ) (inputs : List ι) :
    (transcript step state inputs).map Prod.fst = inputs := by
  induction inputs generalizing state with
  | nil => rfl
  | cons input rest ih => rw [transcript_cons, List.map_cons, ih]

-- What one step preserves, every run preserves.
theorem run_invariant (step : σ → ι → ο × σ) (invariant : σ → Prop)
    (hstep : ∀ state input, invariant state → invariant (step state input).2)
    (state : σ) (hstart : invariant state) (inputs : List ι) :
    invariant (run step state inputs) := by
  induction inputs generalizing state with
  | nil => exact hstart
  | cons input rest ih => exact ih _ (hstep state input hstart)

-- Every input of the sequence is admitted in the state that it meets.
def Admits (step : σ → ι → ο × σ) (admitted : σ → ι → Prop) : σ → List ι → Prop
  | _, [] => True
  | state, input :: rest =>
    admitted state input ∧ Admits step admitted (step state input).2 rest

instance Admits.decidable (step : σ → ι → ο × σ) (admitted : σ → ι → Prop)
    [∀ state input, Decidable (admitted state input)] :
    (state : σ) → (inputs : List ι) → Decidable (Admits step admitted state inputs)
  | _, [] => inferInstanceAs (Decidable True)
  | state, input :: rest =>
    have := Admits.decidable step admitted (step state input).2 rest
    inferInstanceAs (Decidable (admitted state input ∧ _))

section Admitted

variable {step : σ → ι → ο × σ} {admitted : σ → ι → Prop} {state : σ} {inputs : List ι}

theorem admits_of_all (hall : ∀ state input, admitted state input) :
    Admits step admitted state inputs := by
  induction inputs generalizing state with
  | nil => exact trivial
  | cons input rest ih => exact ⟨hall state input, ih⟩

variable {invariant : σ → Prop}
  (hinvariant : ∀ state input, invariant state → admitted state input →
    invariant (step state input).2)

include hinvariant

theorem Admits.run_invariant (hadmits : Admits step admitted state inputs)
    (hstart : invariant state) : invariant (run step state inputs) := by
  induction inputs generalizing state with
  | nil => exact hstart
  | cons input rest ih => exact ih hadmits.2 (hinvariant state input hstart hadmits.1)

-- What every step gains and loses of a value adds up over a run.
theorem Admits.run_balance (value : σ → Nat) (gain loss : σ → ι → Nat)
    (hstep : ∀ state input, invariant state → admitted state input →
      value (step state input).2 + loss state input = value state + gain state input)
    (hadmits : Admits step admitted state inputs) (hstart : invariant state) :
    value (run step state inputs) + accumulated step loss state inputs =
      value state + accumulated step gain state inputs := by
  induction inputs generalizing state with
  | nil => rfl
  | cons input rest ih =>
    have hfirst := hstep state input hstart hadmits.1
    have hrest := ih hadmits.2 (hinvariant state input hstart hadmits.1)
    simp only [run_cons, accumulated]
    omega

end Admitted

theorem run_balance (step : σ → ι → ο × σ) (invariant : σ → Prop) (value : σ → Nat)
    (gain loss : σ → ι → Nat)
    (hinvariant : ∀ state input, invariant state → invariant (step state input).2)
    (hstep : ∀ state input, invariant state →
      value (step state input).2 + loss state input = value state + gain state input)
    {state : σ} (hstart : invariant state) (inputs : List ι) :
    value (run step state inputs) + accumulated step loss state inputs =
      value state + accumulated step gain state inputs := by
  have hadmits : Admits step (fun _ _ => True) state inputs := admits_of_all fun _ _ => trivial
  exact hadmits.run_balance (fun state input hinv _ => hinvariant state input hinv) value gain loss
    (fun state input hinv _ => hstep state input hinv) hstart

theorem accumulated_add (step : σ → ι → ο × σ) (first second : σ → ι → Nat) (state : σ)
    (inputs : List ι) :
    accumulated step (fun state input => first state input + second state input) state inputs =
      accumulated step first state inputs + accumulated step second state inputs := by
  induction inputs generalizing state with
  | nil => rfl
  | cons input rest ih =>
    simp only [accumulated, ih]
    omega

@[simp] theorem run_append (step : σ → ι → ο × σ) (state : σ) (first second : List ι) :
    run step state (first ++ second) = run step (run step state first) second := by
  induction first generalizing state with
  | nil => rfl
  | cons input rest ih => exact ih _

-- A machine whose inputs are those of another one, and which renames its responses.
section Renaming

variable {κ ο' : Type*} (step : σ → ι → ο × σ) (input : κ → ι) (respond : κ → ο → ο')
  (state : σ) (keys : List κ)

theorem run_renamed :
    run (fun state key => (respond key (step state (input key)).1, (step state (input key)).2))
      state keys = run step state (keys.map input) := by
  induction keys generalizing state with
  | nil => rfl
  | cons key rest ih => exact ih _

theorem responses_renamed :
    (transcript
      (fun state key => (respond key (step state (input key)).1, (step state (input key)).2))
      state keys).map Prod.snd =
      List.zipWith respond keys ((transcript step state (keys.map input)).map Prod.snd) := by
  induction keys generalizing state with
  | nil => rfl
  | cons key rest ih => exact congrArg _ (ih _)

end Renaming

theorem transcript_append (step : σ → ι → ο × σ) (state : σ) (first second : List ι) :
    transcript step state (first ++ second) =
      transcript step state first ++ transcript step (run step state first) second := by
  induction first generalizing state with
  | nil => rfl
  | cons input rest ih => exact congrArg _ (ih _)

theorem length_transcript (step : σ → ι → ο × σ) (state : σ) (inputs : List ι) :
    (transcript step state inputs).length = inputs.length := by
  rw [← List.length_map Prod.fst, transcript_inputs]

theorem admits_append {step : σ → ι → ο × σ} {admitted : σ → ι → Prop} {state : σ}
    {first second : List ι} : Admits step admitted state (first ++ second) ↔
      Admits step admitted state first ∧ Admits step admitted (run step state first) second := by
  induction first generalizing state with
  | nil => exact (iff_of_eq (true_and _)).symm
  | cons input rest ih => exact (and_congr_right fun _ => ih).trans and_assoc.symm

-- The inputs that take a run back, step by step from the last one.
def undoRun (step : σ → ι → ο × σ) (undo : σ → ι → List ι) : σ → List ι → List ι
  | _, [] => []
  | state, input :: rest => undoRun step undo (step state input).2 rest ++ undo state input

-- Where each step can be taken back, every run can.
theorem run_undoRun {step : σ → ι → ο × σ} {admitted : σ → ι → Prop} {undo : σ → ι → List ι}
    {invariant : σ → Prop} {reversible : ι → Prop}
    (hinvariant : ∀ state input, invariant state → invariant (step state input).2)
    (hundo : ∀ state input, invariant state → reversible input →
      Admits step admitted (step state input).2 (undo state input) ∧
        run step (step state input).2 (undo state input) = state)
    {state : σ} (hstart : invariant state) {inputs : List ι}
    (hinputs : ∀ input ∈ inputs, reversible input) :
    Admits step admitted (run step state inputs) (undoRun step undo state inputs) ∧
      run step (run step state inputs) (undoRun step undo state inputs) = state := by
  induction inputs generalizing state with
  | nil => exact ⟨trivial, rfl⟩
  | cons input rest ih =>
    rw [List.forall_mem_cons] at hinputs
    obtain ⟨hadmits, hrun⟩ := ih (hinvariant state input hstart) hinputs.2
    obtain ⟨hadmits', hrun'⟩ := hundo state input hstart hinputs.1
    rw [undoRun, run_cons, admits_append, run_append, hrun]
    exact ⟨⟨hadmits, hadmits'⟩, hrun'⟩

theorem length_undoRun_le (step : σ → ι → ο × σ) {undo : σ → ι → List ι} {most : Nat}
    (hmost : ∀ state input, (undo state input).length ≤ most) (state : σ) (inputs : List ι) :
    (undoRun step undo state inputs).length ≤ most * inputs.length := by
  induction inputs generalizing state with
  | nil => exact Nat.zero_le _
  | cons input rest ih =>
    have hrest := ih (step state input).2
    have hinput := hmost state input
    rw [undoRun, List.length_append, List.length_cons, Nat.mul_succ]
    omega

-- The entries of a transcript are the responses after each part of the inputs.
theorem mem_transcript_iff (step : σ → ι → ο × σ) (state : σ) (inputs : List ι) (input : ι)
    (response : ο) :
    (input, response) ∈ transcript step state inputs ↔ ∃ before after,
      inputs = before ++ input :: after ∧
        response = (step (run step state before) input).1 := by
  induction inputs generalizing state with
  | nil => simp
  | cons first rest ih =>
    rw [transcript_cons, List.mem_cons, ih]
    constructor
    · rintro (heq | ⟨before, after, rfl, hresponse⟩)
      · cases heq
        exact ⟨[], rest, rfl, rfl⟩
      · exact ⟨first :: before, after, rfl, hresponse⟩
    · rintro ⟨before, after, hinputs, hresponse⟩
      cases before with
      | nil =>
        cases hinputs
        exact Or.inl (congrArg (Prod.mk input) hresponse)
      | cons other before =>
        cases hinputs
        exact Or.inr ⟨before, after, rfl, hresponse⟩

-- The inputs that a part hears, with the responses they got.
def heard {κ : Type*} (hears : ι → Option κ) (entries : List (ι × ο)) : List (κ × ο) :=
  entries.filterMap fun entry => (hears entry.1).map fun key => (key, entry.2)

section Heard

variable {κ : Type*} {hears : ι → Option κ} {input : ι} (response : ο) (entries : List (ι × ο))

theorem heard_cons_of_none (h : hears input = none) :
    heard hears ((input, response) :: entries) = heard hears entries := by
  simp [heard, h]

theorem heard_cons_of_some {key : κ} (h : hears input = some key) :
    heard hears ((input, response) :: entries) = (key, response) :: heard hears entries := by
  simp [heard, h]

end Heard

-- A part of a machine that moves with the inputs it hears, and with no others, runs on its own.
section Part

variable {κ τ ο' : Type*} {step : σ → ι → ο × σ} {part : τ → κ → ο' × τ}
  {invariant : σ → Prop} {view : σ → τ} {hears : ι → Option κ} {respond : ο' → ο}
  (hinvariant : ∀ state input, invariant state → invariant (step state input).2)
  (hidle : ∀ state input, invariant state → hears input = none →
    view (step state input).2 = view state)
  (hmoves : ∀ state input key, invariant state → hears input = some key →
    (step state input).1 = respond (part (view state) key).1 ∧
      view (step state input).2 = (part (view state) key).2)

include hinvariant hidle hmoves

theorem run_part {state : σ} (hstart : invariant state) (inputs : List ι) :
    view (run step state inputs) = run part (view state) (inputs.filterMap hears) ∧
    heard hears (transcript step state inputs) =
      (transcript part (view state) (inputs.filterMap hears)).map
        fun entry => (entry.1, respond entry.2) := by
  induction inputs generalizing state with
  | nil => exact ⟨rfl, rfl⟩
  | cons input rest ih =>
    obtain ⟨hview, hheard⟩ := ih (hinvariant state input hstart)
    cases hinput : hears input with
    | none =>
      rw [hidle state input hstart hinput] at hview hheard
      rw [List.filterMap_cons_none hinput]
      exact ⟨hview, (heard_cons_of_none _ _ hinput).trans hheard⟩
    | some key =>
      obtain ⟨hresponse, hnext⟩ := hmoves state input key hstart hinput
      rw [hnext] at hview hheard
      rw [List.filterMap_cons_some hinput]
      refine ⟨hview, ?_⟩
      rw [transcript_cons, transcript_cons, List.map_cons, ← hresponse, ← hheard]
      exact heard_cons_of_some _ _ hinput

end Part

-- Where a step keeps the invariant exactly when it is admitted, the invariant holds all
-- along a run exactly when all its steps are admitted.
theorem run_invariant_iff (step : σ → ι → ο × σ) (base invariant : σ → Prop)
    (admitted : σ → ι → Prop)
    (hbase : ∀ state input, base state → base (step state input).2)
    (hstep : ∀ state input, base state → invariant state →
      (invariant (step state input).2 ↔ admitted state input))
    {state : σ} (hstart : base state) (hinitial : invariant state) (inputs : List ι) :
    (∀ before after, inputs = before ++ after → invariant (run step state before)) ↔
      ∀ before input after, inputs = before ++ input :: after →
        admitted (run step state before) input := by
  constructor
  · rintro hall before input after rfl
    have hbefore := hall before (input :: after) rfl
    have hafter := hall (before ++ [input]) after (by simp)
    rw [run_append] at hafter
    have hearlier := run_invariant step base hbase state hstart before
    exact (hstep _ input hearlier hbefore).mp hafter
  · rintro hall before after rfl
    induction before generalizing state with
    | nil => exact hinitial
    | cons first rest ih =>
      have hfirst := (hstep state first hstart hinitial).mpr (hall [] first _ rfl)
      refine ih (hbase state first hstart) hfirst ?_
      intro before input after' heq
      exact hall (first :: before) input after' (congrArg (List.cons first) heq)

-- What one step of two machines preserves while the second responds as admitted, runs of
-- the two on the same inputs preserve.
theorem run_relation {σ' ο' : Type*} (step : σ → ι → ο × σ) (step' : σ' → ι → ο' × σ')
    (relation : σ → σ' → Prop) (admitted : ι → ο' → Prop)
    (hstep : ∀ state state' input, relation state state' →
      admitted input (step' state' input).1 →
        relation (step state input).2 (step' state' input).2)
    {state : σ} {state' : σ'} (hstart : relation state state') (inputs : List ι)
    (hadmitted : ∀ entry ∈ transcript step' state' inputs, admitted entry.1 entry.2) :
    relation (run step state inputs) (run step' state' inputs) := by
  induction inputs generalizing state state' with
  | nil => exact hstart
  | cons input rest ih =>
    rw [transcript_cons, List.forall_mem_cons] at hadmitted
    exact ih (hstep state state' input hstart hadmitted.1) hadmitted.2

-- A machine that shows a view of each state of another one shows a view of its runs.
section Simulation

variable {σ' ο' : Type*} (step : σ → ι → ο × σ) (step' : σ' → ι → ο' × σ') (view : σ → σ')
  (respond : ο → ο') (invariant : σ → Prop)
  (hinvariant : ∀ state input, invariant state → invariant (step state input).2)
  (hstep : ∀ state input, invariant state →
    step' (view state) input = (respond (step state input).1, view (step state input).2))

include hinvariant hstep

theorem run_simulation {state : σ} (hstart : invariant state) (inputs : List ι) :
    run step' (view state) inputs = view (run step state inputs) := by
  induction inputs generalizing state with
  | nil => rfl
  | cons input rest ih =>
    rw [run_cons, run_cons, hstep state input hstart]
    exact ih (hinvariant state input hstart)

theorem transcript_simulation {state : σ} (hstart : invariant state) (inputs : List ι) :
    transcript step' (view state) inputs =
      (transcript step state inputs).map fun entry => (entry.1, respond entry.2) := by
  induction inputs generalizing state with
  | nil => rfl
  | cons input rest ih =>
    rw [transcript_cons, transcript_cons, List.map_cons, hstep state input hstart]
    exact congrArg _ (ih (hinvariant state input hstart))

end Simulation

-- The inputs that were answered as wanted, in their order.
def answered (step : σ → ι → ο × σ) (wanted : ο → Prop) [DecidablePred wanted] :
    σ → List ι → List ι
  | _, [] => []
  | state, input :: rest =>
    let later := answered step wanted (step state input).2 rest
    if wanted (step state input).1 then input :: later else later

-- Where the other inputs change nothing, a run is that of the answered ones.
theorem run_answered {step : σ → ι → ο × σ} {wanted : ο → Prop} [DecidablePred wanted]
    {invariant : σ → Prop}
    (hinvariant : ∀ state input, invariant state → invariant (step state input).2)
    (hunchanged : ∀ state input, invariant state → ¬wanted (step state input).1 →
      (step state input).2 = state)
    {state : σ} (hstart : invariant state) (inputs : List ι) :
    Admits step (fun state input => wanted (step state input).1) state
        (answered step wanted state inputs) ∧
      run step state (answered step wanted state inputs) = run step state inputs := by
  induction inputs generalizing state with
  | nil => exact ⟨trivial, rfl⟩
  | cons input rest ih =>
    obtain ⟨hadmits, hrun⟩ := ih (hinvariant state input hstart)
    simp only [answered, run_cons]
    by_cases hwanted : wanted (step state input).1
    · rw [if_pos hwanted]
      exact ⟨⟨hwanted, hadmits⟩, hrun⟩
    · rw [if_neg hwanted]
      rw [hunchanged state input hstart hwanted] at hadmits hrun ⊢
      exact ⟨hadmits, hrun⟩

-- A value that steps make, and that later steps keep or change one by one.
theorem Admits.run_provenance {α : Type*} {step : σ → ι → ο × σ} {admitted : σ → ι → Prop}
    {invariant : σ → Prop} {value : σ → Option α} {made : σ → ι → Option α}
    {after : α → ι → Option α}
    (hinvariant : ∀ state input, invariant state → admitted state input →
      invariant (step state input).2)
    (hstep : ∀ state input, invariant state → admitted state input → ∀ result,
      value (step state input).2 = some result ↔ made state input = some result ∨
        ∃ held, value state = some held ∧ after held input = some result)
    {state : σ} {inputs : List ι} (hadmits : Admits step admitted state inputs)
    (hstart : invariant state) (result : α) :
    value (run step state inputs) = some result ↔
      (∃ held, value state = some held ∧ inputs.foldlM after held = some result) ∨
      ∃ earlier birth later born, inputs = earlier ++ birth :: later ∧
        made (run step state earlier) birth = some born ∧
        later.foldlM after born = some result := by
  induction inputs generalizing state with
  | nil => simp
  | cons input rest ih =>
    have hfirst := hstep state input hstart hadmits.1
    rw [run_cons, ih hadmits.2 (hinvariant state input hstart hadmits.1)]
    constructor
    · rintro (⟨next, hnext, hrest⟩ | ⟨earlier, birth, later, born, rfl, hborn, hlater⟩)
      · rcases (hfirst next).mp hnext with hmade | ⟨held, hheld, hafter⟩
        · exact .inr ⟨[], input, rest, next, rfl, hmade, hrest⟩
        · refine .inl ⟨held, hheld, ?_⟩
          rw [List.foldlM_cons, hafter]
          exact hrest
      · exact .inr ⟨input :: earlier, birth, later, born, rfl, hborn, hlater⟩
    · rintro (⟨held, hheld, hall⟩ | ⟨earlier, birth, later, born, hinputs, hborn, hlater⟩)
      · rw [List.foldlM_cons] at hall
        obtain ⟨next, hafter, hrest⟩ := Option.bind_eq_some_iff.mp hall
        exact .inl ⟨next, (hfirst next).mpr (.inr ⟨held, hheld, hafter⟩), hrest⟩
      · cases earlier with
        | nil =>
          cases hinputs
          exact .inl ⟨born, (hfirst born).mpr (.inl hborn), hlater⟩
        | cons other earlier =>
          cases hinputs
          exact .inr ⟨earlier, birth, later, born, rfl, hborn, hlater⟩

-- A property that some inputs begin and others end holds after a run exactly when an input
-- has begun it and none has ended it since.
theorem Admits.run_since {step : σ → ι → ο × σ} {admitted : σ → ι → Prop}
    {invariant holds : σ → Prop} {begins ends : ι → Prop} [DecidablePred holds]
    [DecidablePred begins] [DecidablePred ends]
    (hinvariant : ∀ state input, invariant state → admitted state input →
      invariant (step state input).2)
    (hstep : ∀ state input, invariant state → admitted state input →
      (holds (step state input).2 ↔ begins input ∨ holds state ∧ ¬ends input))
    {state : σ} {inputs : List ι} (hadmits : Admits step admitted state inputs)
    (hstart : invariant state) (hnot : ¬holds state) :
    holds (run step state inputs) ↔ ∃ earlier input later, inputs = earlier ++ input :: later ∧
      begins input ∧ ∀ other ∈ later, ¬ends other := by
  have hkept : ∀ later : List ι, later.foldlM (fun _ input => guard (¬ends input)) () =
      some () ↔ ∀ other ∈ later, ¬ends other := by
    intro later
    induction later with
    | nil => exact iff_of_true rfl (List.forall_mem_nil _)
    | cons input rest ih =>
      rw [List.foldlM_cons, List.forall_mem_cons, ← ih, Option.bind_eq_bind,
        Option.bind_eq_some_iff]
      simp only [Option.guard_eq_some']
      exact ⟨fun ⟨_, hfirst, hrest⟩ => ⟨hfirst, hrest⟩, fun hall => ⟨(), hall⟩⟩
  have hmarked : ∀ state input, invariant state → admitted state input → ∀ mark : Unit,
      guard (holds (step state input).2) = some mark ↔ guard (begins input) = some mark ∨
        ∃ held, guard (holds state) = some held ∧ guard (¬ends input) = some mark := by
    intro state input hstate hinput mark
    simp only [Option.guard_eq_some', exists_const]
    exact hstep state input hstate hinput
  have hprovenance := @Admits.run_provenance _ _ _ Unit step admitted invariant
    (fun state => guard (holds state)) (fun _ input => guard (begins input))
    (fun _ input => guard (¬ends input)) hinvariant hmarked state inputs hadmits hstart ()
  simpa only [Option.guard_eq_some', hkept, hnot, false_and, exists_false, false_or,
    exists_const] using hprovenance

end Machine
