import AegisFeed.Library.Machine
import Mathlib.Data.List.Basic

namespace Machine

-- Inputs use channels. Inputs without a common channel are independent, and a
-- sequence is determined, up to the order of independent inputs, by what it
-- shows on each channel.
variable {σ ι ο γ : Type*} (uses : ι → γ → Bool)

def Independent (a b : ι) : Prop :=
  ∀ channel, ¬(uses a channel ∧ uses b channel)

-- The inputs of a sequence that use a channel.
def project (channel : γ) (inputs : List ι) : List ι :=
  inputs.filter fun a => uses a channel

def SameOnChannels (first second : List ι) : Prop :=
  ∀ channel, project uses channel first = project uses channel second

-- Two independent inputs leave the same state in both orders, and neither
-- changes the response to the other.
def StepsCommute (step : σ → ι → ο × σ) : Prop :=
  ∀ state a b, Independent uses a b →
    (step (step state a).2 b).2 = (step (step state b).2 a).2 ∧
    (step (step state a).2 b).1 = (step state b).1

variable {uses}

theorem Independent.symm {a b : ι} (h : Independent uses a b) : Independent uses b a :=
  fun channel hu => h channel ⟨hu.2, hu.1⟩

@[simp] theorem project_append (channel : γ) (first second : List ι) :
    project uses channel (first ++ second) =
      project uses channel first ++ project uses channel second :=
  List.filter_append ..

theorem project_cons_of_uses {a : ι} {channel : γ} (hu : uses a channel) (rest : List ι) :
    project uses channel (a :: rest) = a :: project uses channel rest := by
  simp [project, hu]

theorem project_cons_of_not_uses {a : ι} {channel : γ} (hu : ¬uses a channel)
    (rest : List ι) : project uses channel (a :: rest) = project uses channel rest := by
  simp [project, hu]

theorem project_eq_nil_of_independent (before : List ι) (a : ι) (channel : γ)
    (hind : ∀ b ∈ before, Independent uses a b) (ha : uses a channel) :
    project uses channel before = [] := by
  apply List.filter_eq_nil_iff.mpr
  intro b hb hu
  exact hind b hb channel ⟨ha, hu⟩

-- A sequence is independent of an input, or has a first input that is not.
theorem independent_or_split (a : ι) (inputs : List ι) :
    (∀ b ∈ inputs, Independent uses a b) ∨
    ∃ before b after, inputs = before ++ b :: after ∧
      (∀ c ∈ before, Independent uses a c) ∧ ¬Independent uses a b := by
  induction inputs with
  | nil => exact .inl nofun
  | cons b rest ih =>
    by_cases hb : Independent uses a b
    swap
    · exact .inr ⟨[], b, rest, rfl, nofun, hb⟩
    rcases ih with hall | ⟨before, c, after, rfl, hbefore, hc⟩
    · exact .inl (List.forall_mem_cons.mpr ⟨hb, hall⟩)
    · exact .inr ⟨b :: before, c, after, rfl, List.forall_mem_cons.mpr ⟨hb, hbefore⟩, hc⟩

-- Taking an input out of both sequences, where only independent inputs stand before it.
theorem SameOnChannels.tail {a : ι} {rest before after : List ι}
    (hsame : SameOnChannels uses (a :: rest) (before ++ a :: after))
    (hbefore : ∀ b ∈ before, Independent uses a b) :
    SameOnChannels uses rest (before ++ after) := by
  intro channel
  have h := hsame channel
  rw [project_append] at h ⊢
  by_cases hc : uses a channel
  · rw [project_eq_nil_of_independent before a channel hbefore hc] at h ⊢
    rw [project_cons_of_uses hc, List.nil_append, project_cons_of_uses hc] at h
    exact (List.cons.inj h).2
  · rwa [project_cons_of_not_uses hc, project_cons_of_not_uses hc] at h

-- The first input of a sequence occurs in every sequence that agrees with it on
-- all channels, and only independent inputs stand before it there.
theorem SameOnChannels.exists_split {a : ι} {rest second : List ι}
    (hsame : SameOnChannels uses (a :: rest) second) (huse : ∃ channel, uses a channel) :
    ∃ before after, second = before ++ a :: after ∧
      (∀ b ∈ before, Independent uses a b) ∧ SameOnChannels uses rest (before ++ after) := by
  rcases independent_or_split a second with hall | ⟨before, b, after, rfl, hbefore, hdep⟩
  · obtain ⟨channel, hu⟩ := huse
    have h := hsame channel
    rw [project_cons_of_uses hu, project_eq_nil_of_independent second a channel hall hu] at h
    cases h
  obtain ⟨channel, hu, hb⟩ : ∃ channel, uses a channel ∧ uses b channel := by
    by_contra! hn
    exact hdep fun channel h => hn channel h.1 h.2
  have h := hsame channel
  rw [project_cons_of_uses hu, project_append,
    project_eq_nil_of_independent before a channel hbefore hu, List.nil_append,
    project_cons_of_uses hb] at h
  obtain rfl : a = b := (List.cons.inj h).1
  exact ⟨before, after, rfl, hbefore, hsame.tail hbefore⟩

theorem SameOnChannels.eq_nil (huse : ∀ a, ∃ channel, uses a channel) {inputs : List ι}
    (hsame : SameOnChannels uses [] inputs) : inputs = [] := by
  rw [List.eq_nil_iff_forall_not_mem]
  intro a ha
  obtain ⟨channel, hu⟩ := huse a
  have h : project uses channel inputs = [] := (hsame channel).symm
  exact List.filter_eq_nil_iff.mp h a ha hu

theorem SameOnChannels.swap {a b : ι} (hind : Independent uses a b) (before after : List ι) :
    SameOnChannels uses (before ++ a :: b :: after) (before ++ b :: a :: after) := by
  intro channel
  rw [project_append, project_append]
  by_cases ha : uses a channel
  · have hb : ¬uses b channel := fun hb => hind channel ⟨ha, hb⟩
    rw [project_cons_of_uses ha, project_cons_of_not_uses hb, project_cons_of_not_uses hb,
      project_cons_of_uses ha]
  · by_cases hb : uses b channel <;> simp [project, ha, hb]

-- An input may be moved in front of inputs independent of it.
theorem run_move_front {step : σ → ι → ο × σ} (hcommute : StepsCommute uses step)
    (state : σ) (before after : List ι) (a : ι) (hind : ∀ b ∈ before, Independent uses a b) :
    run step state (before ++ a :: after) = run step state (a :: before ++ after) := by
  induction before generalizing state with
  | nil => rfl
  | cons b before ih =>
    have hb := hind b (by simp)
    have h := ih (step state b).2 fun c hc => hind c (List.mem_cons_of_mem _ hc)
    simp only [List.cons_append, run_cons] at h ⊢
    rw [h, (hcommute state a b hb).1]

theorem transcript_move_front {step : σ → ι → ο × σ} (hcommute : StepsCommute uses step)
    (state : σ) (before after : List ι) (a : ι) (hind : ∀ b ∈ before, Independent uses a b)
    (channel : γ) :
    (transcript step state (before ++ a :: after)).filter (fun entry => uses entry.1 channel) =
      (transcript step state (a :: before ++ after)).filter
        fun entry => uses entry.1 channel := by
  induction before generalizing state with
  | nil => rfl
  | cons b before ih =>
    have hb := hind b (by simp)
    have h := ih (step state b).2 fun c hc => hind c (List.mem_cons_of_mem _ hc)
    have hba := hcommute state b a hb.symm
    have hab := hcommute state a b hb
    simp only [List.cons_append, transcript_cons] at h ⊢
    rw [List.filter_cons, h, List.filter_cons, List.filter_cons, List.filter_cons, hba.2, hab.2,
      hab.1]
    -- at most one of the two inputs uses the channel
    by_cases ha : uses a channel
    · have hn : ¬uses b channel := fun h => hb channel ⟨ha, h⟩
      simp [ha, hn]
    · simp [ha]

-- Sequences that agree on every channel lead to the same state, and on every
-- channel to the same responses.
theorem run_eq_of_sameOnChannels {step : σ → ι → ο × σ} (hcommute : StepsCommute uses step)
    (huse : ∀ a, ∃ channel, uses a channel) (state : σ) (first second : List ι)
    (hsame : SameOnChannels uses first second) :
    run step state first = run step state second ∧
    ∀ channel,
      (transcript step state first).filter (fun entry => uses entry.1 channel) =
        (transcript step state second).filter fun entry => uses entry.1 channel := by
  induction first generalizing state second with
  | nil =>
    rw [hsame.eq_nil huse]
    exact ⟨rfl, fun _ => rfl⟩
  | cons a rest ih =>
    obtain ⟨before, after, rfl, hind, hrest⟩ := hsame.exists_split (huse a)
    obtain ⟨hrun, htranscript⟩ := ih (step state a).2 (before ++ after) hrest
    constructor
    · rw [run_move_front hcommute state before after a hind]
      exact hrun
    · intro channel
      rw [transcript_move_front hcommute state before after a hind channel]
      simp only [List.cons_append, transcript_cons, List.filter_cons, htranscript channel]

-- Sequences with the same inputs on every channel have the same inputs.
theorem SameOnChannels.perm (huse : ∀ a, ∃ channel, uses a channel) {first second : List ι}
    (hsame : SameOnChannels uses first second) : first.Perm second := by
  induction first generalizing second with
  | nil =>
    rw [hsame.eq_nil huse]
  | cons a rest ih =>
    obtain ⟨before, after, rfl, -, hrest⟩ := hsame.exists_split (huse a)
    exact ((ih hrest).cons a).trans List.perm_middle.symm

section Exchanges

variable (uses) (step : σ → ι → ο × σ) (admitted : σ → ι → Prop) (room : Nat → σ → Prop)

-- Two inputs that are admitted in one order are in the other, get the same responses, and
-- leave the same state.
structure Exchange (state : σ) (a b : ι) : Prop where
  admitted_second : admitted state b
  admitted_first : admitted (step state b).2 a
  state_eq : (step (step state b).2 a).2 = (step (step state a).2 b).2
  response_second : (step state b).1 = (step (step state a).2 b).1
  response_first : (step (step state b).2 a).1 = (step state a).1

-- Independent inputs exchange while the state has room for the two. A step takes up to
-- one unit of the room.
structure Exchanges : Prop where
  fewer : ∀ {count : Nat} {state : σ}, room (count + 1) state → room count state
  next : ∀ {count : Nat} {state : σ} {a : ι}, room (count + 1) state → admitted state a →
    room count (step state a).2
  swap : ∀ {count : Nat} {state : σ} {a b : ι}, room (count + 2) state →
    Independent uses a b → admitted state a → admitted (step state a).2 b →
      Exchange step admitted state a b

variable {uses step admitted room} (hexchanges : Exchanges uses step admitted room)

include hexchanges

theorem Exchanges.room_of_le {state : σ} {count total : Nat} (hle : count ≤ total)
    (hroom : room total state) : room count state := by
  induction hle with
  | refl => exact hroom
  | step _ ih => exact ih (hexchanges.fewer hroom)

-- The first input may be moved behind inputs independent of it.
theorem Exchanges.move_back {state : σ} {a : ι} {before after : List ι}
    (hroom : room (before.length + 1) state) (hind : ∀ b ∈ before, Independent uses a b)
    (hadmits : Admits step admitted state (a :: before ++ after)) :
    Admits step admitted state (before ++ a :: after) ∧
      run step state (before ++ a :: after) = run step state (a :: before ++ after) ∧
      (transcript step state (before ++ a :: after)).Perm
        (transcript step state (a :: before ++ after)) := by
  induction before generalizing state with
  | nil => exact ⟨hadmits, rfl, .refl _⟩
  | cons b before ih =>
    obtain ⟨ha, hb, hrest⟩ := hadmits
    obtain ⟨hb', ha', hsame, hsecond, hfirst⟩ :=
      hexchanges.swap hroom (hind b List.mem_cons_self) ha hb
    have hadmits' : Admits step admitted (step state b).2 (a :: before ++ after) := by
      refine ⟨ha', ?_⟩
      rwa [hsame]
    obtain ⟨hadmits'', hrun, hperm⟩ := ih (hexchanges.next hroom hb')
      (fun c hc => hind c (List.mem_cons_of_mem _ hc)) hadmits'
    simp only [List.cons_append, run_cons, transcript_cons] at hrun hperm ⊢
    rw [hsame] at hrun hperm
    refine ⟨⟨hb', hadmits''⟩, hrun, ?_⟩
    rw [← hsecond, ← hfirst]
    exact (hperm.cons _).trans (.swap _ _ _)

-- Sequences that agree on every channel are admitted alike and lead to the same state, and
-- an input gets the same response in both.
theorem Exchanges.run_eq (huse : ∀ a, ∃ channel, uses a channel) {state : σ}
    {first second : List ι} (hroom : room first.length state)
    (hsame : SameOnChannels uses first second) (hadmits : Admits step admitted state first) :
    Admits step admitted state second ∧ run step state second = run step state first ∧
      (transcript step state second).Perm (transcript step state first) := by
  induction first generalizing state second with
  | nil =>
    rw [hsame.eq_nil huse]
    exact ⟨trivial, rfl, .refl _⟩
  | cons a rest ih =>
    obtain ⟨before, after, rfl, hind, hrest⟩ := hsame.exists_split (huse a)
    have hlength := (hrest.perm huse).length_eq
    obtain ⟨ha, hadmits⟩ := hadmits
    obtain ⟨hadmits', hrun, hperm⟩ := ih (hexchanges.next hroom ha) hrest hadmits
    have hbefore : before.length + 1 ≤ rest.length + 1 := by
      rw [hlength, List.length_append]
      omega
    have hfront : Admits step admitted state (a :: before ++ after) := ⟨ha, hadmits'⟩
    obtain ⟨hmoved, hback, hperm'⟩ :=
      hexchanges.move_back (hexchanges.room_of_le hbefore hroom) hind hfront
    refine ⟨hmoved, hback.trans hrun, hperm'.trans ?_⟩
    rw [List.cons_append, transcript_cons, transcript_cons]
    exact hperm.cons _

end Exchanges

end Machine
